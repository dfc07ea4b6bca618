import IrdaUtils.Spec.Findchip

/-! The probes leave the configuration mode that they enter. Both are loops over sessions by
their form; what has to be seen is that no access inside a session can be taken for an entry
key, not even the write of `register_bank` to a port that the hardware names. -/

namespace Findchip

open PortIo

/-- The access writes no key of `entries` to its port. -/
def NoKey (entries : List Entry) (a : Access) : Prop :=
  ∀ e ∈ entries, ∀ k ∈ e.keys, a ≠ .out k e.port

instance (entries : List Entry) (a : Access) : Decidable (NoKey entries a) :=
  inferInstanceAs (Decidable (∀ e ∈ entries, ∀ k ∈ e.keys, a ≠ .out k e.port))

def smcEntries : List Entry := smcChips.flatMap fun chp => chp.cfg.map chp.entry
def winbondEntries : List Entry := efers.map WinbondEfer.entry

/-- The keys of all known chips: those that open the configuration mode and those that close it. -/
def keyBytes : List UInt8 := [0x55, 0x86, 0x87, 0x88, 0x89, 0xaa]

/-- The access writes no key of any known chip to any port. -/
def Silent : Access → Prop
  | .out value _ => value ∉ keyBytes
  | .inn _ _ => True

theorem Silent.noKey {entries : List Entry} (hkeys : ∀ e ∈ entries, ∀ k ∈ e.keys, k ∈ keyBytes)
    {a : Access} (h : Silent a) : NoKey entries a := by
  rintro e he k hk rfl
  exact h (hkeys e he k hk)

theorem silent_inb (port : UInt16) : Only Silent (inb port) := .inb fun _ => trivial

theorem silent_outb {value : UInt8} (h : value ∉ keyBytes) (port : UInt16) :
    Only Silent (outb value port) := .outb h

/-! ### SMC -/

theorem silent_readReg (confreg : UInt16) {reg : UInt8} (h : reg ∉ keyBytes) :
    Only Silent (readReg confreg reg) :=
  .bind (silent_outb h _) fun _ => silent_inb _

/-- The bank of the FIR part leaves no key in the register. -/
theorem bank_silent (v : UInt8) : v &&& 0xf0 ||| 3 &&& 0x07 ∉ keyBytes := by
  have h : ∀ n : Fin 256, UInt8.ofNat n &&& 0xf0 ||| 3 &&& 0x07 ∉ keyBytes := by decide +kernel
  have hv := h ⟨v.toNat, v.toNat_lt⟩
  rwa [UInt8.ofNat_toNat] at hv

theorem silent_readFir (confreg fir : UInt16) {delayReg : UInt8} (h : delayReg ∉ keyBytes) :
    Only Silent (readFir confreg delayReg fir) := by
  refine .bind (silent_readReg confreg h) fun _ => .bind ?_ fun _ => ?_
  · exact .bind (silent_inb _) fun v => silent_outb (bank_silent v) _
  · exact .bind (silent_inb _) fun _ => .bind (silent_inb _) fun _ => .pure ()

/-- The end of both probes: the FIR part where there is one, and a last register. -/
theorem silent_tail (confreg fir : UInt16) {delayReg last : UInt8} (h : delayReg ∉ keyBytes)
    (hlast : last ∉ keyBytes) : Only Silent (do
      if fir ≠ 0 then readFir confreg delayReg fir
      let _ ← readReg confreg last
      pure fir.toNat) := by
  have hend : Only Silent (do let _ ← readReg confreg last; pure fir.toNat) :=
    .bind (silent_readReg confreg hlast) fun _ => .pure _
  simp only
  split_ifs
  · exact .bind (silent_readFir confreg fir h) fun _ => hend
  · exact hend

theorem silent_probe69 (confreg : UInt16) : Only Silent (probe69 confreg) :=
  .bind (silent_readReg confreg (by decide)) fun _ =>
    .bind (silent_readReg confreg (by decide)) fun _ =>
    .bind (silent_readReg confreg (by decide)) fun _ =>
    .bind (silent_readReg confreg (by decide)) fun fir =>
    silent_tail confreg (fir.toUInt16 <<< 3) (by decide) (by decide)

theorem silent_probe58 (confreg : UInt16) : Only Silent (probe58 confreg) :=
  .bind (silent_outb (by decide) _) fun _ => .bind (silent_outb (by decide) _) fun _ =>
    .bind (silent_readReg confreg (by decide)) fun _ =>
    .bind (silent_readReg confreg (by decide)) fun _ =>
    .bind (silent_readReg confreg (by decide)) fun _ =>
    .bind (silent_readReg confreg (by decide)) fun _ =>
    .bind (silent_readReg confreg (by decide)) fun high =>
    .bind (silent_readReg confreg (by decide)) fun low =>
    silent_tail confreg (high.toUInt16 <<< 8 ||| low.toUInt16) (by decide) (by decide)

theorem silent_smc {chp : SmcChipInfo} (h : chp ∈ smcChips) (cfg : UInt16) :
    Only Silent (chp.identify cfg) := by
  have hcid : ∀ c ∈ smcChips, c.cidIndex ∉ keyBytes := by
    simp [smcChips, keyBytes]
  refine .bind (silent_readReg cfg (hcid chp h)) fun devid => ?_
  split_ifs
  · simp only [smcChips, List.mem_cons, List.not_mem_nil, or_false] at h
    rcases h with rfl | rfl | rfl | rfl | rfl | rfl
    · exact silent_probe69 cfg
    · exact silent_probe69 cfg
    · exact silent_probe69 cfg
    · exact silent_probe58 cfg
    · exact silent_probe58 cfg
    · exact silent_probe58 cfg
  · exact .pure 0

theorem smc_sessions : Bracketed Silent smcEntries (whileZero (fun chp : SmcChipInfo =>
    whileZero (fun cfg => session (chp.entry cfg) (chp.identify cfg)) chp.cfg 0) smcChips 0) := by
  refine Bracketed.whileZero smcChips fun chp hchp => ?_
  rw [← List.flatMap_singleton' (chp.cfg.map chp.entry), List.flatMap_map]
  exact Bracketed.whileZero chp.cfg fun cfg _ => .session (silent_smc hchp cfg)

/-! ### Winbond -/

theorem silent_reg (e : WinbondEfer) {index : UInt8} (h : index ∉ keyBytes) :
    Only Silent (e.reg index) :=
  .bind (silent_outb h _) fun _ => silent_inb _

theorem silent_readInfo (e : WinbondEfer) : Only Silent e.readInfo := by
  unfold WinbondEfer.readInfo
  cases e.chipType with
  | w83977 =>
    refine .bind (silent_reg e (by decide)) fun devid =>
      .bind (silent_reg e (by decide)) fun revision => ?_
    split
    · exact .pure 0
    split
    · exact .pure 0
    · exact .bind (silent_outb (by decide) _) fun _ => .bind (silent_outb (by decide) _) fun _ =>
        .bind (silent_reg e (by decide)) fun _ => .bind (silent_reg e (by decide)) fun _ =>
        .bind (silent_reg e (by decide)) fun _ => .bind (silent_reg e (by decide)) fun _ =>
        .bind (silent_reg e (by decide)) fun _ => .bind (silent_reg e (by decide)) fun _ => .pure 1
  | w83877 =>
    refine .bind (silent_reg e (by decide)) fun chipid => ?_
    split
    · exact .pure 0
    · exact .bind (silent_reg e (by decide)) fun _ => .bind (silent_reg e (by decide)) fun _ =>
        .bind (silent_reg e (by decide)) fun _ => .bind (silent_reg e (by decide)) fun _ =>
        .bind (silent_reg e (by decide)) fun _ => .bind (silent_reg e (by decide)) fun _ =>
        .bind (silent_reg e (by decide)) fun _ => .pure 1

theorem silent_check (e : WinbondEfer) {c : BitCheck} (h : c.index ∉ keyBytes) :
    Only Silent (e.check c) :=
  .bind (silent_reg e h) fun _ => .pure _

theorem silent_winbond {e : WinbondEfer} (h : e ∈ efers) : Only Silent e.identify := by
  have hras : ∀ e ∈ efers, e.hefras.index ∉ keyBytes := by decide
  have here : ∀ e ∈ efers, ∀ c ∈ e.hefere, c.index ∉ keyBytes := by decide
  refine .bind (silent_check e (hras e h)) fun ok => ?_
  split_ifs
  · cases hc : e.hefere with
    | none => exact silent_readInfo e
    | some c =>
      refine .bind (silent_check e (here e h c hc)) fun ok' => ?_
      split_ifs
      · exact silent_readInfo e
      · exact .pure 0
  · exact .pure 0

theorem winbond_sessions : Bracketed Silent winbondEntries
    (whileZero (fun e : WinbondEfer => session e.entry e.identify) efers 0) := by
  have h : winbondEntries = efers.flatMap fun e => [e.entry] := rfl
  rw [h]
  exact Bracketed.whileZero efers fun e he => .session (silent_winbond he)

/-! ### The loops -/

/-- Whatever the hardware answers, the accesses of both probes are sessions of the entries of
their tables, in turn: the entry keys, accesses that write no entry key, the exit key. -/
theorem probes_leave_config_mode (hw : Hardware) (t : List Access) :
    (∃ ss : List Session, (probeSmc hw t).2 = t ++ ss.flatMap Session.trace ∧
      ss.map Session.entry <+: smcEntries ∧ ∀ s ∈ ss, ∀ a ∈ s.body, NoKey smcEntries a) ∧
    ∃ ss : List Session, (probeWinbond hw t).2 = t ++ ss.flatMap Session.trace ∧
      ss.map Session.entry <+: winbondEntries ∧ ∀ s ∈ ss, ∀ a ∈ s.body, NoKey winbondEntries a := by
  have hsmc : ∀ e ∈ smcEntries, ∀ k ∈ e.keys, k ∈ keyBytes := by decide +kernel
  have hwinbond : ∀ e ∈ winbondEntries, ∀ k ∈ e.keys, k ∈ keyBytes := by decide +kernel
  constructor
  · obtain ⟨ss, htr, hpre, -, hP⟩ := smc_sessions hw t
    exact ⟨ss, htr, hpre, fun s hs a ha => (hP s hs a ha).noKey hsmc⟩
  · obtain ⟨ss, htr, hpre, -, hP⟩ := winbond_sessions hw t
    exact ⟨ss, htr, hpre, fun s hs a ha => (hP s hs a ha).noKey hwinbond⟩

end Findchip
