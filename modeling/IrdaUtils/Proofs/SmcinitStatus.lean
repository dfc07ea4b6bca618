import IrdaUtils.Spec.Smcinit

/-! The status of `smcinit`, over all bytes that the ports can answer. `set_smc` tells the truth
about the chip; `main` adds it to a local that is set only when a tty is given. -/

namespace Smcinit

open PortIo

/-- The ids of the known chips. -/
def KnownId (i : UInt8) : Prop := i = 0x5a ∨ i = 0x7a

/-- From the read `n` on, the four settings are read back. The read `n + 1` is the interrupt
register before it is written. -/
def ReadBack (rs : ℕ → UInt8) (n : ℕ) (o : Options) : Prop :=
  ofByte (rs n) = localSirIo o ∧ ofByte (rs (n + 2)) = o.firIrq ∧
    ofByte (rs (n + 3)) = localFirIo o ∧ ofByte (rs (n + 4)) = o.firDma

instance (i : UInt8) : Decidable (KnownId i) := inferInstanceAs (Decidable (_ ∨ _))

instance (rs : ℕ → UInt8) (n : ℕ) (o : Options) : Decidable (ReadBack rs n o) :=
  inferInstanceAs (Decidable (_ ∧ _ ∧ _ ∧ _))

/-! ### The settings -/

section Settings

variable (rs : ℕ → UInt8) (base : UInt16) (o : Options) (t : List Access)

theorem writeBack_run (value : BitVec 32) :
    (writeBack base value (replies rs) t).1 = decide (ofByte (rs (reads t)) = value) ∧
      reads (writeBack base value (replies rs) t).2 = reads t + 1 := by
  simp [writeBack, bind_run, outb_run, inb_run, pure_run, replies]

theorem setSirIo_run :
    (setSirIo base o (replies rs) t).1 = decide (ofByte (rs (reads t)) = localSirIo o) ∧
      reads (setSirIo base o (replies rs) t).2 = reads t + 1 := by
  simp [setSirIo, bind_run, outb_run, writeBack_run]

theorem setFirIrq_run :
    (setFirIrq base o (replies rs) t).1 = decide (ofByte (rs (reads t + 1)) = o.firIrq) ∧
      reads (setFirIrq base o (replies rs) t).2 = reads t + 2 := by
  simp [setFirIrq, bind_run, outb_run, inb_run, pure_run, replies]

theorem setFirIo_run :
    (setFirIo base o (replies rs) t).1 = decide (ofByte (rs (reads t)) = localFirIo o) ∧
      reads (setFirIo base o (replies rs) t).2 = reads t + 1 := by
  simp [setFirIo, bind_run, outb_run, writeBack_run]

theorem setFirDma_run :
    (setFirDma base o (replies rs) t).1 = decide (ofByte (rs (reads t)) = o.firDma) := by
  simp [setFirDma, bind_run, outb_run, writeBack_run]

theorem setRegs_run : (setRegs base o (replies rs) t).1 = decide (ReadBack rs (reads t) o) := by
  simp only [setRegs, bind_run, ite_run, setSirIo_run, decide_eq_true_eq]
  by_cases h1 : ofByte (rs (reads t)) = localSirIo o
  · by_cases h2 : ofByte (rs (reads t + 2)) = o.firIrq
    · by_cases h3 : ofByte (rs (reads t + 3)) = localFirIo o
      · simp [h1, h2, h3, setSirIo_run, setFirIrq_run, setFirIo_run, setFirDma_run, ReadBack]
      · simp [h1, h2, h3, setSirIo_run, setFirIrq_run, setFirIo_run, pure_run, ReadBack]
    · simp [h1, h2, setSirIo_run, setFirIrq_run, pure_run, ReadBack]
  · simp [h1, pure_run, ReadBack]

end Settings

/-! ### The status -/

def HubKnown (hub : HubReads) : Prop :=
  hub.vid = 0x8086 ∧ (hub.did = 0x24cc ∨ hub.did = 0x248c)

/-- The hub and a chip are recognised, and the chip keeps its settings. -/
def Programmed (hub : HubReads) (rs : ℕ → UInt8) (o : Options) : Prop :=
  HubKnown hub ∧ (KnownId (rs 0) ∧ ReadBack rs 1 o ∨
    ¬ KnownId (rs 0) ∧ KnownId (rs 1) ∧ ReadBack rs 2 o)

instance (hub : HubReads) : Decidable (HubKnown hub) := inferInstanceAs (Decidable (_ ∧ _))

instance (hub : HubReads) (rs : ℕ → UInt8) (o : Options) : Decidable (Programmed hub rs o) :=
  inferInstanceAs (Decidable (_ ∧ _))

theorem setHub_eq_none_iff (hub : HubReads) : setHub hub = none ↔ ¬ HubKnown hub := by
  unfold setHub HubKnown
  by_cases hv : hub.vid = 0x8086
  · by_cases hd : hub.did ≠ 0x24cc ∧ hub.did ≠ 0x248c
    · simp [hv, hd]
    · simp only [hv, ne_eq, not_true, if_false, if_neg hd, true_and]
      rw [← not_or, not_not] at hd
      simp [hd]
  · simp [hv]

theorem hubKnown_of_setHub {hub : HubReads} {ws : List HubWrite} (h : setHub hub = some ws) :
    HubKnown hub := by
  by_contra hno
  rw [(setHub_eq_none_iff hub).2 hno] at h
  cases h

theorem findChip_first {rs : ℕ → UInt8} (h : KnownId (rs 0)) :
    findChip possibleCfgbase (replies rs) [] =
      (some 0x2e, [.out 0x55 0x2e, .out 0x0d 0x2e, .inn (rs 0) 0x2f]) := by
  have h' : rs 0 = 0x5a ∨ rs 0 = 0x7a := h
  simp [possibleCfgbase, findChip, bind_run, outb_run, inb_run, pure_run, replies, h']

theorem findChip_second {rs : ℕ → UInt8} (h : ¬ KnownId (rs 0)) :
    findChip possibleCfgbase (replies rs) [] =
      findChip [0x4e] (replies rs) [.out 0x55 0x2e, .out 0x0d 0x2e, .inn (rs 0) 0x2f] := by
  have h' : ¬ (rs 0 = 0x5a ∨ rs 0 = 0x7a) := h
  simp [possibleCfgbase, findChip, bind_run, outb_run, inb_run, ite_run, replies, h']

theorem findChip_one (base : UInt16) (rs : ℕ → UInt8) (t : List Access) :
    findChip [base] (replies rs) t =
      (if KnownId (rs (reads t)) then some base else none,
        t ++ [.out 0x55 base, .out 0x0d base, .inn (rs (reads t)) (base + 1)]) := by
  by_cases h : rs (reads t) = 0x5a ∨ rs (reads t) = 0x7a
  · simp [findChip, bind_run, outb_run, inb_run, pure_run, replies, KnownId, h]
  · simp [findChip, bind_run, outb_run, inb_run, pure_run, replies, KnownId, h]

theorem setChip_run (base : UInt16) (rs : ℕ → UInt8) (o : Options) (t : List Access) :
    (setChip o (some base) (replies rs) t).1 = if ReadBack rs (reads t) o then 0 else 1 := by
  simp only [setChip, bind_run, ite_run, setRegs_run, decide_eq_true_eq]
  split_ifs <;> rfl

theorem setSmc_status (hub : HubReads) (rs : ℕ → UInt8) (o : Options) :
    (setSmc hub o (replies rs) []).1 = if Programmed hub rs o then 0 else 1 := by
  unfold setSmc
  cases hh : setHub hub with
  | none =>
    have hno : ¬ HubKnown hub := (setHub_eq_none_iff hub).1 hh
    simp [pure_run, Programmed, hno]
  | some ws =>
    have hyes : HubKnown hub := hubKnown_of_setHub hh
    simp only [bind_run]
    by_cases h0 : KnownId (rs 0)
    · rw [findChip_first h0, setChip_run]
      simp [Programmed, hyes, h0]
    · rw [findChip_second h0, findChip_one]
      by_cases h1 : KnownId (rs 1)
      · simp [h0, h1, hyes, setChip_run, Programmed]
      · simp [h0, h1, setChip, pure_run, Programmed]

/-- For a command line that is accepted, the status tells exactly whether the chip was
programmed, when a tty is given or the local happens to hold 0; when the chip was not
programmed, any value but -1 will do. -/
theorem exit_status_true_iff (argv : List Opt) (o : Options) (h : parseOptions argv = .ok o)
    (serial : Serial) (hserial : o.ttyDevice ≠ [] → unbindFromSerial serial = .ok 0)
    (hub : HubReads) (rs : ℕ → UInt8) (retVal : BitVec 32) :
    ((main true argv serial hub retVal (replies rs) []).1 = .ok 0 ↔ Programmed hub rs o) ↔
      o.ttyDevice ≠ [] ∨
        ((Programmed hub rs o → retVal = 0) ∧ (¬ Programmed hub rs o → retVal ≠ -1)) := by
  have hmain : (main true argv serial hub retVal (replies rs) []).1 =
      .ok ((if o.ttyDevice ≠ [] then 0 else retVal) + if Programmed hub rs o then 0 else 1) := by
    rw [← setSmc_status]
    by_cases ht : o.ttyDevice ≠ []
    · simp only [main, h, if_pos ht, hserial ht]
      rfl
    · simp only [main, h, if_neg ht]
      rfl
  rw [hmain]
  by_cases ht : o.ttyDevice ≠ []
  · by_cases hp : Programmed hub rs o
    · simp [ht, hp]
    · simp [ht, hp]
  · by_cases hp : Programmed hub rs o
    · simp [ht, hp]
    · have hneg : retVal + 1 = 0 ↔ retVal = -1 := by
        constructor
        · intro e
          rw [← BitVec.add_sub_cancel retVal 1, e]
          rfl
        · rintro rfl
          rfl
      simp only [if_neg ht, if_neg hp, Except.ok.injEq, hneg]
      simp [ht, hp]

/-- A hub and a chip that do as they are told, with the default options. -/
def goodHub : HubReads := ⟨0x8086, 0x248c, 0x0000⟩
def goodReplies : ℕ → UInt8 := fun n => [0x5a, 0xfe, 0x00, 0x03, 0x26, 0x03].getD n 0xff

theorem exit_status_true_tty :
    (main true [.tty (Decimal.ascii "/dev/ttyS1")] ⟨true, true, true⟩ goodHub 1 (replies goodReplies) []).1 =
        .ok 0 ↔
      Programmed goodHub goodReplies { Options.default with ttyDevice := Decimal.ascii "/dev/ttyS1" } :=
  (exit_status_true_iff [.tty (Decimal.ascii "/dev/ttyS1")] _ rfl ⟨true, true, true⟩ (fun _ => rfl) goodHub
    goodReplies 1).2 (.inl (by decide))

/-- Without a tty, what the local holds decides: a chip that was programmed is reported as a
failure, and a hub that is not known as a success. -/
theorem exit_status_from_local :
    (Programmed goodHub goodReplies .default ∧
      (main true [] ⟨true, true, true⟩ goodHub 1 (replies goodReplies) []).1 = .ok 1) ∧
    ¬ Programmed ⟨0xffff, 0xffff, 0xffff⟩ goodReplies .default ∧
      (main true [] ⟨true, true, true⟩ ⟨0xffff, 0xffff, 0xffff⟩ (-1) (replies goodReplies) []).1 = .ok 0 := by
  decide +kernel

end Smcinit
