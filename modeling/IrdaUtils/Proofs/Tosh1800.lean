import IrdaUtils.Proofs.PortDecoding
import IrdaUtils.Proofs.ToshRegisters
import IrdaUtils.Spec.Tosh1800

/-! Whole runs of `tosh1800-smcinit`. The bridge is only configured behind a chip that has been
found, so that nothing is done at all when the chip is to be skipped. -/

namespace Tosh1800
open Arguments PortIo ToshSmcinit Smcinit

/-! ### The command line -/

/-- What an option sets, if the program goes on. -/
def Options.set (o : Options) : Opt → Options
  | .skipDecodingCfg => { o with actions := o.actions &&& ~~~actionConfigAli1533PortsDecoding }
  | .skipSmcIrccCfg => { o with actions := o.actions &&& ~~~actionInitSmcIrcc }
  | .print => { o with actions := o.actions ||| actionPrintAli1533Configuration }
  | .number n optarg => { o with number := Function.update o.number n (optNumber optarg) }
  | .version => o
  | .help => o
  | .unknown => o

/-- The options that end the program. -/
def Shows (argv : List Opt) : Prop := .version ∈ argv ∨ .help ∈ argv

instance (argv : List Opt) : Decidable (Shows argv) := inferInstanceAs (Decidable (_ ∨ _))

theorem shows_cons {i : Opt} {argv : List Opt} :
    Shows (i :: argv) ↔ i = .version ∨ i = .help ∨ Shows argv := by
  simp only [Shows, List.mem_cons]
  tauto

theorem parse_eq (argv : List Opt) (o : Options) :
    argv.foldlM option o = if Shows argv then .error 0 else .ok (argv.foldl Options.set o) := by
  induction argv generalizing o with
  | nil => rfl
  | cons i argv ih =>
    rw [List.foldlM_cons, List.foldl_cons]
    by_cases hi : i = .version ∨ i = .help
    · rw [if_pos (shows_cons.2 (or_assoc.1 (.inl hi)))]
      rcases hi with rfl | rfl <;> rfl
    · have hoption : option o i = .ok (o.set i) := by
        cases i with
        | version => exact absurd (.inl rfl) hi
        | help => exact absurd (.inr rfl) hi
        | _ => rfl
      have hshows : Shows (i :: argv) ↔ Shows argv := by
        rw [shows_cons, ← or_assoc]
        exact or_iff_right hi
      rw [hoption]
      exact (ih (o.set i)).trans (if_congr hshows.symm rfl rfl)

/-- The options behind a command line that does not end the program. -/
def parsed (argv : List Opt) : Options := argv.foldl Options.set .default

theorem parse_default (argv : List Opt) :
    argv.foldlM option .default = if Shows argv then .error 0 else .ok (parsed argv) :=
  parse_eq argv .default

theorem parsed_number (argv : List Opt) (n : Number) : (parsed argv).number n = meant argv n := by
  have hset : ∀ (o : Options) (i : Opt), (o.set i).number n = (Opt.valueOf n i).getD (o.number n) := by
    intro o i
    cases i with
    | number n' optarg =>
      by_cases h : n' = n
      · subst h
        simp [Options.set, Opt.valueOf]
      · simp [Options.set, Opt.valueOf, h, Function.update_of_ne (Ne.symm h)]
    | _ => rfl
  exact foldl_lastOf (p := (Options.number · n)) hset argv .default

theorem and_and_of {x a b : BitVec 32} (h : a &&& b = b) : x &&& a &&& b = x &&& b := by
  rw [BitVec.and_assoc, h]

theorem or_and_of {x a b : BitVec 32} (h : a &&& b = 0#32) : (x ||| a) &&& b = x &&& b := by
  rw [BitVec.and_or_distrib_right, h, BitVec.or_zero]

/-- A property of the actions that one of the three options brings about, and none undoes. -/
theorem parsed_actions {P : BitVec 32 → Prop} {i : Opt}
    (hi : i = .skipDecodingCfg ∨ i = .skipSmcIrccCfg ∨ i = .print)
    (hdecoding : ∀ x, P (x &&& ~~~actionConfigAli1533PortsDecoding) ↔ i = .skipDecodingCfg ∨ P x)
    (hsmc : ∀ x, P (x &&& ~~~actionInitSmcIrcc) ↔ i = .skipSmcIrccCfg ∨ P x)
    (hprint : ∀ x, P (x ||| actionPrintAli1533Configuration) ↔ i = .print ∨ P x)
    (hdefault : ¬ P Options.default.actions) (argv : List Opt) :
    P (parsed argv).actions ↔ i ∈ argv := by
  have hset : ∀ (o : Options) (j : Opt), P (o.set j).actions ↔ i = j ∨ P o.actions := by
    intro o j
    cases j with
    | skipDecodingCfg => exact hdecoding o.actions
    | skipSmcIrccCfg => exact hsmc o.actions
    | print => exact hprint o.actions
    | _ =>
      refine (or_iff_right ?_).symm
      rcases hi with rfl | rfl | rfl <;> simp
  exact (foldl_mem_iff (P := fun o : Options => P o.actions) hset argv .default).trans
    (or_iff_left hdefault)

theorem parsed_init (argv : List Opt) :
    (parsed argv).actions &&& actionInitSmcIrcc = 0 ↔ .skipSmcIrccCfg ∈ argv := by
  refine parsed_actions (P := (· &&& actionInitSmcIrcc = 0)) (.inr (.inl rfl)) (fun x => ?_)
    (fun x => iff_of_true ?_ (.inl rfl)) (fun x => ?_) (by decide) argv
  · rw [and_and_of (by decide)]
    simp
  · rw [BitVec.and_assoc]
    exact BitVec.and_zero
  · rw [or_and_of (by decide)]
    simp

theorem parsed_decoding (argv : List Opt) :
    (parsed argv).actions &&& actionConfigAli1533PortsDecoding = 0 ↔ .skipDecodingCfg ∈ argv := by
  refine parsed_actions (P := (· &&& actionConfigAli1533PortsDecoding = 0)) (.inl rfl)
    (fun x => iff_of_true ?_ (.inl rfl)) (fun x => ?_) (fun x => ?_) (by decide) argv
  · rw [BitVec.and_assoc]
    exact BitVec.and_zero
  · rw [and_and_of (by decide)]
    simp
  · rw [or_and_of (by decide)]
    simp

theorem parsed_print (argv : List Opt) :
    (parsed argv).actions &&& actionPrintAli1533Configuration ≠ 0 ↔ .print ∈ argv := by
  refine parsed_actions (P := (· &&& actionPrintAli1533Configuration ≠ 0)) (.inr (.inr rfl))
    (fun x => ?_) (fun x => ?_) (fun x => iff_of_true (fun h => ?_) (.inl rfl)) (by decide) argv
  · rw [and_and_of (by decide)]
    simp
  · rw [and_and_of (by decide)]
    simp
  · rw [BitVec.and_or_distrib_right] at h
    exact absurd (BitVec.or_eq_zero_iff.1 h).2 (by decide)

/-! ### The chip -/

/-- The version of the chip is the one in the table. -/
def Known (c : IndexChip) : Prop := c.regs deviceIdReg = 0x5a

instance (c : IndexChip) : Decidable (Known c) := inferInstanceAs (Decidable (_ = _))

/-- The chip behind `configure_smc_ircc`. -/
def leftChip (granted' : Bool) (sirbase firbase dma irq : BitVec 32) (c : IndexChip) : IndexChip :=
  if Known c ∧ granted' = true then ⟨false, 0x00, configuredRegs c.regs sirbase firbase dma irq⟩
  else ⟨false, revisionIdReg, c.regs⟩

theorem findSmcChipModel_eq (c : IndexChip) :
    findSmcChipModel smcChips (c.regs deviceIdReg) =
      if Known c then some ⟨0x5a, configure47N227SmcIrcc⟩ else none := by
  by_cases h : Known c
  · rw [if_pos h, h]
    rfl
  · rw [if_neg h, findSmcChipModel, smcChips, List.find?_cons_of_neg (by simpa using Ne.symm h)]
    rfl

theorem configureSmcIrcc_run (granted' : Bool) (cfgbase : UInt16)
    (sirbase firbase dma irq : BitVec 32) (c : IndexChip) :
    (lpc47N227 cfgbase).device.Run
      (configureSmcIrcc true granted' cfgbase sirbase firbase dma irq) c
      (if Known c then 1 else 0) (leftChip granted' sirbase firbase dma irq c) := by
  have hreg : ∀ r : UInt8, r ≠ 0xaa → r ≠ (lpc47N227 cfgbase).exitKey := fun r h => h
  have hkeys : cfgAccessKey ≠ cfgExitKey := by decide
  obtain ⟨i, henter⟩ := IndexPort.run_enter (p := lpc47N227 cfgbase) c hkeys
  refine .bind henter <|
    .bind (IndexPort.run_select (hreg deviceIdReg (by decide)) _ _) <|
    .bind (IndexPort.run_read _ _) <|
    .bind (IndexPort.run_select (hreg revisionIdReg (by decide)) _ _) <|
    .bind (IndexPort.run_read _ _) <| .bind (IndexPort.run_exit _ _) ?_
  rw [findSmcChipModel_eq, leftChip]
  by_cases hid : Known c
  · rw [if_pos hid, if_pos hid]
    cases granted' with
    | true =>
      rw [if_pos ⟨hid, rfl⟩]
      exact .bind (configure_run cfgbase sirbase firbase dma irq ⟨false, revisionIdReg, c.regs⟩) (.pure 1 _)
    | false =>
      rw [if_neg fun h => Bool.false_ne_true h.2]
      exact .bind (.pure 0 _) (.pure 1 _)
  · rw [if_neg hid, if_neg hid, if_neg fun h => hid h.1]
    exact .pure 0 _

/-! ### The program -/

variable {m : Machine} {argv : List Opt} {c : IndexChip}

/-- The program gets to the chip. -/
def Opens (m : Machine) (argv : List Opt) : Prop :=
  m.root = true ∧ .skipSmcIrccCfg ∉ argv ∧ m.granted = true

instance (m : Machine) (argv : List Opt) : Decidable (Opens m argv) :=
  inferInstanceAs (Decidable (_ ∧ _ ∧ _))

/-- The devices that are taken for the bridge. -/
def Machine.bridge (m : Machine) (argv : List Opt) : PciDev → Bool :=
  m.matched (meant argv .isabridgeVendorId) (meant argv .isabridgeDeviceId)

/-- The program gets to the bridge. -/
def Decoding (m : Machine) (argv : List Opt) (c : IndexChip) : Prop :=
  Opens m argv ∧ Known c ∧ .skipDecodingCfg ∉ argv

/-- What the program leaves behind, by what the command line asks for. -/
structure Outcome (m : Machine) (argv : List Opt) (c : IndexChip) (s : ℕ)
    (access : Option (List PciDev)) (c' : IndexChip) : Prop where
  success : s = 0 ↔ Opens m argv ∧ Known c ∧
    (.skipDecodingCfg ∉ argv → ∃ bus ∈ m.access, ∃ dev ∈ bus, m.bridge argv dev = true)
  untouched : ¬ Opens m argv → c' = c
  closed : Opens m argv → c'.config = false
  kept : ¬ (Opens m argv ∧ Known c ∧ m.granted' = true) → c'.regs = c.regs
  configured : Opens m argv → Known c → m.granted' = true →
    (Configured c.regs c'.regs (meant argv .sirbase) (meant argv .firbase) (meant argv .dma)
      (meant argv .irq) ↔ c.regs 0x0c &&& 0x08 = 0x08)
  busKept : ¬ (Decoding m argv c ∧ .print ∉ argv) → access = m.access
  decoded : Decoding m argv c → .print ∉ argv → ∀ bus ∈ m.access, ∀ {pre dev post},
    findPciDevice (m.bridge argv) bus = some (pre, dev, post) →
      ∃ regs, access = some (pre ++ { dev with regs := regs } :: post) ∧
        (Decodes 1 dev.regs regs (meant argv .sirbase).toInt (meant argv .firbase).toInt ↔
          Listed (meant argv .sirbase).toInt ∧ Listed (meant argv .firbase).toInt)
  notFound : ∀ bus ∈ m.access, findPciDevice (m.bridge argv) bus = none → access = m.access

theorem findPciDevice_isSome {matched : PciDev → Bool} {bus : List PciDev} :
    (findPciDevice matched bus).isSome = true ↔ ∃ dev ∈ bus, matched dev = true := by
  induction bus with
  | nil => simp [findPciDevice]
  | cons dev bus ih =>
    rw [findPciDevice, List.exists_mem_cons_iff, ← ih]
    cases matched dev <;> simp

/-- The last call, with the options behind the command line. -/
def decode (m : Machine) (argv : List Opt) : ℕ × List Log × Option (List PciDev) :=
  configureAli1533SmcPortsDecoding (m.bridge argv) m.access (meant argv .firbase).toInt
    (meant argv .sirbase).toInt (decide (.print ∈ argv))

/-- The status and the bus behind a chip that has been found. -/
def found (m : Machine) (argv : List Opt) : ℕ × Option (List PciDev) :=
  if .skipDecodingCfg ∈ argv then (0, m.access) else (status (decode m argv).1, (decode m argv).2.2)

theorem main_opens (h : ¬ Shows argv) (ho : Opens m argv) (c : IndexChip) :
    (lpc47N227 (.ofNat (meant argv .cfgbase).toNat)).device.Run (main m argv) c
      (if Known c then found m argv else (1, m.access))
      (leftChip m.granted' (meant argv .sirbase) (meant argv .firbase) (meant argv .dma)
        (meant argv .irq) c) := by
  obtain ⟨hroot, hsmc, hgranted⟩ := ho
  have hport : (parsed argv).port = .ofNat (meant argv .cfgbase).toNat := by
    rw [Options.port, parsed_number]
  have hprint : decide ((parsed argv).actions &&& actionPrintAli1533Configuration ≠ 0) =
      decide (.print ∈ argv) := decide_eq_decide.2 (parsed_print argv)
  unfold main
  rw [parse_default, if_neg h]
  dsimp only
  rw [if_neg (by simp [hroot])]
  simp only [hprint, hport, parsed_number]
  rw [if_pos ((parsed_init argv).not.2 hsmc), hgranted]
  refine .bind (configureSmcIrcc_run m.granted' _ _ _ _ _ c) ?_
  by_cases hid : Known c
  · rw [if_pos hid, if_pos hid, found]
    by_cases hdec : .skipDecodingCfg ∈ argv
    · rw [if_neg fun h => h.1 ((parsed_decoding argv).2 hdec), if_pos hdec]
      exact .pure _ _
    · rw [if_pos ⟨(parsed_decoding argv).not.2 hdec, one_ne_zero⟩, if_neg hdec]
      exact .pure _ _
  · rw [if_neg hid, if_neg hid, if_neg fun h => h.2 rfl]
    exact .pure _ _

/-- The program fails before it gets to the chip. -/
theorem main_fails (h : ¬ Shows argv) (ho : ¬ Opens m argv) {σ : Type} (d : Device σ) (s : σ) :
    d.Run (main m argv) s (1, m.access) s := by
  unfold main
  rw [parse_default, if_neg h]
  dsimp only
  by_cases hroot : m.root = false
  · rw [if_pos hroot]
    exact .pure _ _
  rw [if_neg hroot]
  by_cases hsmc : .skipSmcIrccCfg ∈ argv
  · rw [if_neg (not_not.2 ((parsed_init argv).2 hsmc))]
    refine .bind (.pure 0 _) ?_
    rw [if_neg fun h => h.2 rfl]
    exact .pure _ _
  · have hgranted : m.granted = false := by
      rw [Bool.eq_false_iff]
      exact fun hg => ho ⟨Bool.not_eq_false _ ▸ hroot, hsmc, hg⟩
    rw [if_pos ((parsed_init argv).not.2 hsmc), hgranted]
    refine .bind (.pure 0 _) ?_
    rw [if_neg fun h => h.2 rfl]
    exact .pure _ _

theorem main_shows (h : Shows argv) {σ : Type} (d : Device σ) (s : σ) :
    d.Run (main m argv) s (0, m.access) s := by
  unfold main
  rw [parse_default, if_pos h]
  exact .pure _ _

theorem decode_none {bus : List PciDev} (hbus : m.access = some bus)
    (h : findPciDevice (m.bridge argv) bus = none) :
    decode m argv = (0, [.notFound], m.access) := by
  simp only [decode, hbus, configureAli1533SmcPortsDecoding, h]

theorem decode_print {bus pre post : List PciDev} {dev : PciDev} (hbus : m.access = some bus)
    (h : findPciDevice (m.bridge argv) bus = some (pre, dev, post)) (hprint : .print ∈ argv) :
    decode m argv = (1, [.ended], m.access) := by
  simp only [decode, hbus, configureAli1533SmcPortsDecoding, h, hprint, decide_true, if_true]

theorem decode_found {bus pre post : List PciDev} {dev : PciDev} (hbus : m.access = some bus)
    (h : findPciDevice (m.bridge argv) bus = some (pre, dev, post)) (hprint : .print ∉ argv) :
    let regs := ToshSmcinit.decodedRegs dev.regs (meant argv .sirbase).toInt (meant argv .firbase).toInt
    ∃ log, decode m argv = (1, log, some (pre ++ { dev with regs } :: post)) := by
  intro regs
  rw [decode, hbus, decide_eq_false hprint]
  exact configureAli1533_found h _ _

theorem decode_status (m : Machine) (argv : List Opt) :
    status (decode m argv).1 = 0 ↔ ∃ bus ∈ m.access, ∃ dev ∈ bus, m.bridge argv dev = true := by
  cases hacc : m.access with
  | none =>
    rw [decode, hacc]
    simp [configureAli1533SmcPortsDecoding, status]
  | some bus =>
    simp only [Option.mem_def, Option.some.injEq, exists_eq_left', ← findPciDevice_isSome]
    cases hfind : findPciDevice (m.bridge argv) bus with
    | none =>
      rw [decode_none hacc hfind]
      exact iff_of_false one_ne_zero Bool.false_ne_true
    | some r =>
      refine iff_of_true ?_ rfl
      by_cases hprint : .print ∈ argv
      · rw [decode_print hacc hfind hprint]
        rfl
      · obtain ⟨log, hrun⟩ := decode_found hacc hfind hprint
        rw [hrun]
        rfl

theorem decode_kept (h : .print ∈ argv ∨ ∃ bus ∈ m.access, findPciDevice (m.bridge argv) bus = none) :
    (decode m argv).2.2 = m.access := by
  cases hacc : m.access with
  | none => rw [decode, hacc, configureAli1533SmcPortsDecoding]
  | some bus =>
    cases hfind : findPciDevice (m.bridge argv) bus with
    | none => rw [decode_none hacc hfind, hacc]
    | some r =>
      rcases h with hprint | ⟨bus', hbus', hnone⟩
      · rw [decode_print hacc hfind hprint, hacc]
      · rw [hacc] at hbus'
        cases hbus'
        rw [hfind] at hnone
        cases hnone

theorem leftChip_outcome (ho : Opens m argv) (c : IndexChip) {s : ℕ} {access : Option (List PciDev)}
    (hsuccess : s = 0 ↔ Known c ∧
      (.skipDecodingCfg ∉ argv → ∃ bus ∈ m.access, ∃ dev ∈ bus, m.bridge argv dev = true))
    (hkept : ¬ (Decoding m argv c ∧ .print ∉ argv) → access = m.access)
    (hfound : Decoding m argv c → access = (decode m argv).2.2) :
    Outcome m argv c s access (leftChip m.granted' (meant argv .sirbase) (meant argv .firbase)
      (meant argv .dma) (meant argv .irq) c) where
  success := hsuccess.trans (and_iff_right ho).symm
  untouched := fun hno => absurd ho hno
  closed := fun _ => by
    unfold leftChip
    split_ifs <;> rfl
  kept := fun h => by rw [leftChip, if_neg fun hk => h ⟨ho, hk⟩]
  configured := fun _ hk hg => by
    rw [leftChip, if_pos ⟨hk, hg⟩]
    exact configured_iff c.regs _ _ _ _
  busKept := hkept
  decoded := fun hd hprint bus hbus pre dev post hfind => by
    obtain ⟨log, hrun⟩ := decode_found hbus hfind hprint
    rw [hfound hd, hrun]
    exact ⟨_, rfl, decodes_iff dev.regs _ _⟩
  notFound := fun bus hbus hnone => by
    by_cases hd : Decoding m argv c
    · rw [hfound hd]
      exact decode_kept (.inr ⟨bus, hbus, hnone⟩)
    · exact hkept fun h => hd h.1

/-- Whole runs, for every command line, machine and chip. With `-V` or `-h` nothing happens, and
else the run has its `Outcome`: without the chip, also when it is to be skipped, nothing is done
and the program fails; whether the function of the chip has failed makes no difference. -/
theorem program_outcome (m : Machine) (argv : List Opt) (c : IndexChip) :
    let d := (lpc47N227 (.ofNat (meant argv .cfgbase).toNat)).device
    let r := main m argv (d.hardware c) []
    if Shows argv then r.1 = (0, m.access) ∧ d.state c r.2 = c
    else Outcome m argv c r.1.1 r.1.2 (d.state c r.2) := by
  intro d r
  split_ifs with h
  · exact main_shows h d c c [] rfl
  by_cases ho : Opens m argv
  · obtain ⟨hr, hstate⟩ := main_opens h ho c c [] rfl
    rw [hr, hstate]
    by_cases hk : Known c
    · rw [if_pos hk, found]
      split_ifs with hdec
      · exact leftChip_outcome ho c (iff_of_true rfl ⟨hk, fun hno => absurd hdec hno⟩) (fun _ => rfl)
          fun hd => absurd hdec hd.2.2
      · refine leftChip_outcome ho c ?_ ?_ fun _ => rfl
        · rw [decode_status, and_iff_right hk]
          exact ⟨fun hb _ => hb, fun hb => hb hdec⟩
        · intro hno
          refine decode_kept (.inl ?_)
          by_contra hprint
          exact hno ⟨⟨ho, hk, hdec⟩, hprint⟩
    · rw [if_neg hk]
      exact leftChip_outcome ho c (iff_of_false one_ne_zero fun hs => hk hs.1) (fun _ => rfl)
        fun hd => absurd hd.2.1 hk
  · obtain ⟨hr, hstate⟩ := main_fails h ho d c c [] rfl
    rw [hr, hstate]
    exact
      { success := iff_of_false one_ne_zero fun hs => ho hs.1
        untouched := fun _ => rfl
        closed := fun hopen => absurd hopen ho
        kept := fun _ => rfl
        configured := fun hopen => absurd hopen ho
        busKept := fun _ => rfl
        decoded := fun hd => absurd hd.1 ho
        notFound := fun _ _ _ => rfl }

end Tosh1800
