import IrdaUtils.Lib.PortDevice
import IrdaUtils.Spec.ChipInfo

/-! What the Winbond report is made of. No `read_info` sets the delay, which only the verbose
report shows, and `w83877_read_info` sets the DMA channel only when it is the same in both
directions. -/

namespace Findchip

open PortIo Decimal

/-! ### Printed fields -/

inductive Field where
  | manufacturer
  | name
  | chipId
  | revision
  | cfgBase
  | sirBase
  | firBase
  | irq
  | dma
  | uartComp
  | enabled
  | suspended
  | delay
  deriving DecidableEq, Repr

/-- The arguments of the calls of `printf`. -/
def printedFields (verbose : Bool) : List Field :=
  if verbose then
    [.manufacturer, .name, .cfgBase, .chipId, .revision, .sirBase, .firBase, .irq, .dma, .enabled,
      .suspended, .uartComp, .delay]
  else
    [.manufacturer, .name, .chipId, .revision, .cfgBase, .sirBase, .firBase, .irq, .dma, .enabled,
      .suspended, .uartComp]

def Fields.assigned (info : Fields Option) : Field → Bool
  | .manufacturer => info.manufacturer.isSome
  | .name => info.name.isSome
  | .chipId => info.chipId.isSome
  | .revision => info.revision.isSome
  | .cfgBase => info.cfgBase.isSome
  | .sirBase => info.sirBase.isSome
  | .firBase => info.firBase.isSome
  | .irq => info.irq.isSome
  | .dma => info.dma.isSome
  | .uartComp => info.uartComp.isSome
  | .enabled => info.enabled.isSome
  | .suspended => info.suspended.isSome
  | .delay => info.delay.isSome

/-- Every field that is printed has been set, and the report does not depend on the stack. -/
structure Determined (info : Fields Option) (verbose : Bool) : Prop where
  assigned : ∀ f ∈ printedFields verbose, info.assigned f = true
  same : ∀ stack stack', printInfo verbose (info.over stack) = printInfo verbose (info.over stack')

def SameField (a b : ChipInfo) : Field → Prop
  | .manufacturer => a.manufacturer = b.manufacturer
  | .name => a.name = b.name
  | .chipId => a.chipId = b.chipId
  | .revision => a.revision = b.revision
  | .cfgBase => a.cfgBase = b.cfgBase
  | .sirBase => a.sirBase = b.sirBase
  | .firBase => a.firBase = b.firBase
  | .irq => a.irq = b.irq
  | .dma => a.dma = b.dma
  | .uartComp => a.uartComp = b.uartComp
  | .enabled => a.enabled = b.enabled
  | .suspended => a.suspended = b.suspended
  | .delay => a.delay = b.delay

theorem printInfo_same {a b : ChipInfo} {verbose : Bool}
    (h : ∀ f ∈ printedFields verbose, SameField a b f) : printInfo verbose a = printInfo verbose b := by
  cases verbose with
  | false =>
    simp only [printedFields, Bool.false_eq_true, if_false, List.forall_mem_cons, SameField] at h
    obtain ⟨h1, h2, h3, h4, h5, h6, h7, h8, h9, h10, h11, h12, -⟩ := h
    change printLine a = printLine b
    unfold printLine
    rw [h1, h2, h3, h4, h5, h6, h7, h8, h9, h10, h11, h12]
  | true =>
    simp only [printedFields, if_true, List.forall_mem_cons, SameField] at h
    obtain ⟨h1, h2, h3, h4, h5, h6, h7, h8, h9, h10, h11, h12, h13, -⟩ := h
    change printVerbose a = printVerbose b
    unfold printVerbose
    rw [h1, h2, h3, h4, h5, h6, h7, h8, h9, h10, h11, h12, h13]

/-- The stack shows only through fields that are not set. -/
theorem over_same {info : Fields Option} {f : Field} (h : info.assigned f = true)
    (stack stack' : ChipInfo) : SameField (info.over stack) (info.over stack') f := by
  have hget : ∀ {α : Type} {o : Option α}, o.isSome = true → ∀ x y, o.getD x = o.getD y := by
    intro α o ho x y
    obtain ⟨v, rfl⟩ := Option.isSome_iff_exists.1 ho
    rfl
  cases f <;> exact hget h _ _

theorem determined_iff (info : Fields Option) (verbose : Bool) :
    Determined info verbose ↔ ∀ f ∈ printedFields verbose, info.assigned f = true := by
  refine ⟨Determined.assigned, fun h => ⟨h, fun stack stack' => printInfo_same fun f hf => ?_⟩⟩
  exact over_same (h f hf) stack stack'

/-! ### The records -/

theorem w83977_determined_iff (e : WinbondEfer) (name : List UInt8)
    (devid revision cr74 cr70 cr60 cr61 crf0 : UInt8) (verbose : Bool) :
    Determined (w83977Fields e name devid revision cr74 cr70 cr60 cr61 crf0) verbose ↔
      verbose = false := by
  rw [determined_iff]
  cases verbose with
  | false => exact iff_of_true (by simp [printedFields, Fields.assigned, w83977Fields]) rfl
  | true =>
    refine iff_of_false (fun h => ?_) (by simp)
    have := h .delay (by decide)
    simp [Fields.assigned, w83977Fields, unset] at this

theorem w83877_determined_iff (e : WinbondEfer) (name : List UInt8)
    (chipid cr2a cr28 cr25 cr0c cr0d cr2c : UInt8) (verbose : Bool) :
    Determined (w83877Fields e name chipid cr2a cr28 cr25 cr0c cr0d cr2c) verbose ↔
      verbose = false ∧ (cr2a &&& 0xf0) >>> 4 = cr2a &&& 0x0f := by
  rw [determined_iff]
  cases verbose with
  | false =>
    have hdma : (dma83877 cr2a).isSome = true ↔ (cr2a &&& 0xf0) >>> 4 = cr2a &&& 0x0f := by
      unfold dma83877
      simp only
      split_ifs with h <;> simp [h]
    rw [← hdma]
    simp [printedFields, Fields.assigned, w83877Fields]
  | true =>
    refine iff_of_false (fun h => ?_) (by simp)
    have := h .delay (by decide)
    simp [Fields.assigned, w83877Fields, unset] at this

/-! ### The probe

The functions with their records make the accesses of `readInfo`, and report a chip when it
does. -/

theorem winbondName_isSome (id : UInt8) : (winbondName id).isSome = true ↔ id ∈ winbondChips := by
  have hids : winbondChips = winbondNames.map Prod.snd := rfl
  rw [winbondName, Option.isSome_map, List.find?_isSome, hids, List.mem_map]
  simp only [beq_iff_eq]

theorem winbondName_none {id : UInt8} (h : winbondName id = none) : id ∉ winbondChips := by
  rw [← winbondName_isSome, h]
  exact Bool.false_ne_true

theorem winbondName_some {id : UInt8} {name : List UInt8} (h : winbondName id = some name) :
    id ∈ winbondChips := by
  rw [← winbondName_isSome, h]
  rfl

theorem info_readInfo (e : WinbondEfer) (hw : Hardware) (t : List Access) :
    (e.info hw t).2 = (e.readInfo hw t).2 ∧
      ((e.info hw t).1.isSome = true ↔ (e.readInfo hw t).1 = 1) := by
  unfold WinbondEfer.info WinbondEfer.readInfo
  cases e.chipType with
  | w83877 =>
    simp only [w83877Info, w83877ReadInfo, bind_run]
    cases hname : winbondName ((e.reg 0x09 hw t).1 &&& 0x0f) with
    | none =>
      rw [if_pos (winbondName_none hname)]
      simp [pure_run]
    | some name =>
      rw [if_neg (not_not.2 (winbondName_some hname))]
      simp [bind_run, pure_run]
  | w83977 =>
    simp only [w83977Info, w83977ReadInfo, bind_run, ite_run]
    by_cases hid : (e.reg 0x20 hw t).1 ≠ 0x97
    · simp [hid, pure_run]
    · simp only [if_neg hid]
      cases hname : winbondName (e.reg 0x21 hw (e.reg 0x20 hw t).2).1 with
      | none => simp [winbondName_none hname, pure_run]
      | some name => simp [winbondName_some hname, bind_run, pure_run]

/-! ### The chip -/

def WinbondEfer.indexPort (e : WinbondEfer) : IndexPort := ⟨e.efirAddr, e.startFlag, e.endFlag⟩

def usedRegs : List UInt8 :=
  [0x07, 0x20, 0x21, 0x74, 0x75, 0x70, 0x60, 0x61, 0xf0, 0x09, 0x2a, 0x28, 0x25, 0x0b, 0x0c, 0x0d,
    0x2c]

/-- The data port is next to the index port, and no index is taken for the exit key. -/
theorem efers_ports {e : WinbondEfer} (h : e ∈ efers) :
    e.efdrAddr = e.efirAddr + 1 ∧ e.endFlag ∉ usedRegs := by
  simp only [efers, List.mem_cons, List.not_mem_nil, or_false] at h
  rcases h with rfl | rfl | rfl | rfl | rfl | rfl <;> decide

section Chip

variable {e : WinbondEfer}

theorem run_index (he : e ∈ efers) {index : UInt8} (hmem : index ∈ usedRegs) (i : UInt8)
    (regs : UInt8 → UInt8) :
    e.indexPort.device.Run (outb index e.efirAddr) ⟨true, i, regs⟩ () ⟨true, index, regs⟩ := by
  refine IndexPort.run_select (p := e.indexPort) ?_ i regs
  rintro rfl
  exact (efers_ports he).2 hmem

theorem run_reg (he : e ∈ efers) {index : UInt8} (hmem : index ∈ usedRegs) (i : UInt8)
    (regs : UInt8 → UInt8) :
    e.indexPort.device.Run (e.reg index) ⟨true, i, regs⟩ (regs index) ⟨true, index, regs⟩ := by
  unfold WinbondEfer.reg
  rw [(efers_ports he).1]
  exact .bind (run_index he hmem i regs) (IndexPort.run_read (p := e.indexPort) index regs)

theorem run_set (he : e ∈ efers) (value index : UInt8) (regs : UInt8 → UInt8) :
    e.indexPort.device.Run (outb value e.efdrAddr) ⟨true, index, regs⟩ ()
      ⟨true, index, Function.update regs index value⟩ := by
  rw [(efers_ports he).1]
  exact IndexPort.run_data (p := e.indexPort) value index regs

/-- The record of a chip with the registers `regs`, if it is known. -/
def recordOf (e : WinbondEfer) (regs : UInt8 → UInt8) : Option (Fields Option) :=
  match e.chipType with
  | .w83877 => (winbondName (regs 0x09 &&& 0x0f)).map fun name =>
      w83877Fields e name (regs 0x09 &&& 0x0f) (regs 0x2a) (regs 0x28) (regs 0x25) (regs 0x0c)
        (regs 0x0d) (regs 0x2c)
  | .w83977 =>
    if regs 0x20 ≠ 0x97 then none
    else (winbondName (regs 0x21)).map fun name =>
      w83977Fields e name (regs 0x20) (regs 0x21) (regs 0x74) (regs 0x70) (regs 0x60) (regs 0x61)
        (regs 0xf0)

theorem run_w83877 (he : e ∈ efers) (htype : e.chipType = .w83877) (i : UInt8)
    (regs : UInt8 → UInt8) :
    ∃ c, e.indexPort.device.Run (w83877Info e) ⟨true, i, regs⟩ (recordOf e regs) c := by
  unfold recordOf w83877Info
  rw [htype]
  cases hname : winbondName (regs 0x09 &&& 0x0f) with
  | none =>
    refine ⟨⟨true, 0x09, regs⟩, .bind (run_reg he (by decide) i regs) ?_⟩
    rw [hname]
    exact .pure _ _
  | some name =>
    refine ⟨⟨true, 0x2c, regs⟩, .bind (run_reg he (by decide) i regs) ?_⟩
    rw [hname]
    exact .bind (run_reg he (by decide) _ regs) (.bind (run_reg he (by decide) _ regs)
      (.bind (run_reg he (by decide) _ regs) (.bind (run_reg he (by decide) _ regs)
      (.bind (run_reg he (by decide) _ regs) (.bind (run_reg he (by decide) _ regs)
      (.bind (run_reg he (by decide) _ regs) (.pure _ _)))))))

/-- The logical device that is selected first has the registers that are read then. -/
theorem run_w83977 (he : e ∈ efers) (htype : e.chipType = .w83977) (i : UInt8)
    (regs : UInt8 → UInt8) :
    ∃ c, e.indexPort.device.Run (w83977Info e) ⟨true, i, regs⟩ (recordOf e regs) c := by
  have hids : ∀ {m : UInt8 → UInt8 → Io (Option (Fields Option))} {r : Option (Fields Option)} {c : IndexChip},
      e.indexPort.device.Run (m (regs 0x20) (regs 0x21)) ⟨true, 0x21, regs⟩ r c →
      e.indexPort.device.Run (do let devid ← e.reg 0x20; let revision ← e.reg 0x21; m devid revision)
        ⟨true, i, regs⟩ r c := by
    intro m r c h
    exact .bind (run_reg he (by decide) i regs) (.bind (run_reg he (by decide) _ regs) h)
  unfold recordOf w83977Info
  rw [htype]
  by_cases hid : regs 0x20 ≠ 0x97
  · refine ⟨⟨true, 0x21, regs⟩, hids ?_⟩
    rw [if_pos hid]
    simp only [if_pos hid]
    exact .pure _ _
  · cases hname : winbondName (regs 0x21) with
    | none =>
      refine ⟨⟨true, 0x21, regs⟩, hids ?_⟩
      rw [if_neg hid, hname]
      simp only [if_neg hid]
      exact .pure _ _
    | some name =>
      refine ⟨⟨true, 0xf0, Function.update regs 0x07 0x06⟩, hids ?_⟩
      rw [if_neg hid, hname]
      simp only [if_neg hid]
      exact .bind (run_index he (by decide) _ regs) (.bind (run_set he _ _ regs)
        (.bind (run_reg he (by decide) _ _) (.bind (run_reg he (by decide) _ _)
        (.bind (run_reg he (by decide) _ _) (.bind (run_reg he (by decide) _ _)
        (.bind (run_reg he (by decide) _ _) (.bind (run_reg he (by decide) _ _) (.pure _ _))))))))

theorem run_info (he : e ∈ efers) (i : UInt8) (regs : UInt8 → UInt8) :
    (e.info (e.indexPort.device.hardware ⟨true, i, regs⟩) []).1 = recordOf e regs := by
  unfold WinbondEfer.info
  cases htype : e.chipType with
  | w83877 =>
    obtain ⟨c, hrun⟩ := run_w83877 he htype i regs
    exact (hrun ⟨true, i, regs⟩ [] rfl).1
  | w83977 =>
    obtain ⟨c, hrun⟩ := run_w83977 he htype i regs
    exact (hrun ⟨true, i, regs⟩ [] rfl).1

end Chip

/-! ### The report -/

/-- For every register contents with which a chip is reported: all fields of the report have
been set, and the stack does not show in it, exactly when it is not the verbose one and, for
a W83877, both DMA channels are the same. -/
theorem report_determined_iff {e : WinbondEfer} (he : e ∈ efers) (i : UInt8) (regs : UInt8 → UInt8)
    (verbose : Bool) {info : Fields Option}
    (h : (e.info (e.indexPort.device.hardware ⟨true, i, regs⟩) []).1 = some info) :
    Determined info verbose ↔
      verbose = false ∧ (e.chipType = .w83877 → (regs 0x2a &&& 0xf0) >>> 4 = regs 0x2a &&& 0x0f) := by
  rw [run_info he] at h
  unfold recordOf at h
  cases htype : e.chipType with
  | w83877 =>
    rw [htype] at h
    obtain ⟨name, -, rfl⟩ := Option.map_eq_some_iff.1 h
    rw [w83877_determined_iff]
    simp
  | w83977 =>
    rw [htype] at h
    by_cases hid : regs 0x20 ≠ 0x97
    · simp only [if_pos hid] at h
      cases h
    · simp only [if_neg hid] at h
      obtain ⟨name, -, rfl⟩ := Option.map_eq_some_iff.1 h
      rw [w83977_determined_iff]
      simp

/-- A W83877AF at 0x3f0 with the channel 2 for both directions. -/
theorem report_determined_877 :
    ∃ info, (WinbondEfer.info ⟨.w83877, 0x3f0, 2, 0x86, 0xaa, 0x3f0, 0x3f1, ⟨0x16, 0x01, true⟩,
        some ⟨0x0c, 0x20, false⟩⟩
      ((IndexPort.device ⟨0x3f0, 0x86, 0xaa⟩).hardware
        ⟨true, 0, fun r => if r = 0x09 then 0x0b else if r = 0x2a then 0x22 else 0⟩) []).1 = some info ∧
      Determined info false := by
  set e : WinbondEfer := ⟨.w83877, 0x3f0, 2, 0x86, 0xaa, 0x3f0, 0x3f1, ⟨0x16, 0x01, true⟩,
    some ⟨0x0c, 0x20, false⟩⟩
  have he : e ∈ efers := by decide
  refine ⟨w83877Fields e (ascii "W83877AF") 0x0b 0x22 0 0 0 0 0, ?_, ?_⟩
  · exact (run_info he 0 _).trans rfl
  · refine (report_determined_iff he 0 (fun r => if r = 0x09 then 0x0b else if r = 0x2a then 0x22 else 0)
      false ?_).2 ⟨rfl, fun _ => by decide⟩
    exact (run_info he 0 _).trans rfl

/-- A stack that holds `n` in place of the DMA channel, and zeros. -/
def stackWith (n : BitVec 32) : ChipInfo := ⟨[], [], 0, 0, 0, 0, 0, 0, n, 0, 0, 0, 0⟩

/-- A W83877AF at 0x3f0 with the channels 1 and 2: the report has a channel from the stack. -/
theorem report_from_stack :
    ∃ info, (WinbondEfer.info ⟨.w83877, 0x3f0, 2, 0x86, 0xaa, 0x3f0, 0x3f1, ⟨0x16, 0x01, true⟩,
        some ⟨0x0c, 0x20, false⟩⟩
      ((IndexPort.device ⟨0x3f0, 0x86, 0xaa⟩).hardware
        ⟨true, 0, fun r => if r = 0x09 then 0x0b else if r = 0x2a then 0x12 else 0⟩) []).1 = some info ∧
      printInfo false (info.over (stackWith 0)) ≠ printInfo false (info.over (stackWith 1)) := by
  set e : WinbondEfer := ⟨.w83877, 0x3f0, 2, 0x86, 0xaa, 0x3f0, 0x3f1, ⟨0x16, 0x01, true⟩,
    some ⟨0x0c, 0x20, false⟩⟩
  have he : e ∈ efers := by decide
  refine ⟨w83877Fields e (ascii "W83877AF") 0x0b 0x12 0 0 0 0 0, ?_, ?_⟩
  · exact (run_info he 0 _).trans rfl
  · decide

end Findchip
