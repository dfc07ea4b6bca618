import IrdaUtils.Lib.PortDevice
import IrdaUtils.Spec.Nsc

/-! What `probe_nsc` reports of a chip, from its registers, which it leaves as they are. A chip
may answer to both names of the table at the port that they share. -/

namespace Findchip

open PortIo

/-- The ports of the table. -/
def nscPorts : List UInt16 := [0x150, 0x398, 0xea, 0x15c, 0x2e]

/-- The report of a '108 with the registers `regs`. -/
def report108 (base : UInt16) (regs : UInt8 → UInt8) : NscReport :=
  ⟨none, nsc108Info pc87108.name base ((regs 0x05 &&& 0xf0) >>> 4) (regs 0x05 &&& 0x0f) (regs 0x00)
    (regs 0x01) (regs 0x02)⟩

/-- The report of a '338. In legacy mode the address comes from the FAR register, which is
printed, too. -/
def report338 (base : UInt16) (regs : UInt8 → UInt8) : NscReport :=
  if regs 0x1b >>> 4 &&& 0x01 ≠ 0 then
    ⟨none, nsc338Info pc87338.name base ((regs 0x08 &&& 0xf0) >>> 4) (regs 0x08 &&& 0x0f)
      (pnpBase (regs 0x46) (regs 0x47)) (regs 0x00) (regs 0x1c) (regs 0x4f) (regs 0x02)⟩
  else
    ⟨some (regs 0x01), nsc338Info pc87338.name base ((regs 0x08 &&& 0xf0) >>> 4)
      (regs 0x08 &&& 0x0f) (farBase (regs 0x01)) (regs 0x00) (regs 0x1c) (regs 0x4f) (regs 0x02)⟩

def reports108 (base : UInt16) (regs : UInt8 → UInt8) : List NscReport :=
  if base ∈ pc87108.cfg ∧ regs 0x05 &&& 0xf0 = 0x10 then [report108 base regs] else []

def reports338 (base : UInt16) (regs : UInt8 → UInt8) : List NscReport :=
  if base ∈ pc87338.cfg ∧ regs 0x08 &&& 0xf0 = 0xb0 then [report338 base regs] else []

section Chip

variable {p : OpenPort}

theorem run_readReg (reg i : UInt8) (regs : UInt8 → UInt8) :
    p.device.Run (readReg p.base reg) ⟨i, regs⟩ (regs reg) ⟨reg, regs⟩ :=
  .bind (OpenPort.run_select reg i regs) (OpenPort.run_read reg regs)

theorem run_nscProbe108 (name : List UInt8) (chipId revision i : UInt8) (regs : UInt8 → UInt8) :
    p.device.Run (nscProbe108 name p.base chipId revision) ⟨i, regs⟩
      ⟨none, nsc108Info name p.base chipId revision (regs 0x00) (regs 0x01) (regs 0x02)⟩
      ⟨0x02, regs⟩ :=
  .bind (run_readReg 0x00 i regs) (.bind (run_readReg 0x01 0x00 regs)
    (.bind (run_readReg 0x02 0x01 regs) (.pure _ _)))

/-- Either way of the address leaves another register selected. -/
theorem run_nsc338Base (i : UInt8) (regs : UInt8 → UInt8) :
    p.device.Run (nsc338Base p.base) ⟨i, regs⟩
      (if regs 0x1b >>> 4 &&& 0x01 ≠ 0 then (pnpBase (regs 0x46) (regs 0x47), none)
        else (farBase (regs 0x01), some (regs 0x01)))
      (if regs 0x1b >>> 4 &&& 0x01 ≠ 0 then ⟨0x47, regs⟩ else ⟨0x01, regs⟩) := by
  refine .bind (run_readReg 0x1b i regs) ?_
  by_cases h : regs 0x1b >>> 4 &&& 0x01 ≠ 0
  · rw [if_pos h, if_pos h, if_pos h]
    exact .bind (run_readReg 0x46 0x1b regs) (.bind (run_readReg 0x47 0x46 regs) (.pure _ _))
  · rw [if_neg h, if_neg h, if_neg h]
    exact .bind (run_readReg 0x01 0x1b regs) (.pure _ _)

theorem run_nscProbe338 (name : List UInt8) (chipId revision i : UInt8) (regs : UInt8 → UInt8) :
    p.device.Run (nscProbe338 name p.base chipId revision) ⟨i, regs⟩
      (if regs 0x1b >>> 4 &&& 0x01 ≠ 0 then
        ⟨none, nsc338Info name p.base chipId revision (pnpBase (regs 0x46) (regs 0x47)) (regs 0x00)
          (regs 0x1c) (regs 0x4f) (regs 0x02)⟩
      else
        ⟨some (regs 0x01), nsc338Info name p.base chipId revision (farBase (regs 0x01)) (regs 0x00)
          (regs 0x1c) (regs 0x4f) (regs 0x02)⟩)
      ⟨0x02, regs⟩ := by
  have hrest : ∀ (base : BitVec 32 × Option UInt8) (j : UInt8),
      p.device.Run (do
        let pnp1 ← readReg p.base 0x1c
        let pnp3 ← readReg p.base 0x4f
        let ptr ← readReg p.base 0x02
        pure (⟨base.2, nsc338Info name p.base chipId revision base.1 (regs 0x00) pnp1 pnp3 ptr⟩ :
          NscReport)) ⟨j, regs⟩
        ⟨base.2, nsc338Info name p.base chipId revision base.1 (regs 0x00) (regs 0x1c) (regs 0x4f)
          (regs 0x02)⟩ ⟨0x02, regs⟩ :=
    fun base j => .bind (run_readReg 0x1c j regs) (.bind (run_readReg 0x4f 0x1c regs)
      (.bind (run_readReg 0x02 0x4f regs) (.pure _ _)))
  have hbase := run_nsc338Base (p := p) 0x00 regs
  refine .bind (run_readReg 0x00 i regs) (.bind hbase ?_)
  by_cases h : regs 0x1b >>> 4 &&& 0x01 ≠ 0
  · simp only [if_pos h]
    exact hrest (pnpBase (regs 0x46) (regs 0x47), none) 0x47
  · simp only [if_neg h]
    exact hrest (farBase (regs 0x01), some (regs 0x01)) 0x01

/-! ### One turn -/

/-- At a port without a chip nothing is written. -/
theorem run_tryAt_empty {chip : NscChip} {cfgBase : UInt16} (h : cfgBase ≠ p.base)
    (h' : cfgBase ≠ p.base + 1) (c : OpenChip) : p.device.Run (chip.tryAt cfgBase) c [] c := by
  refine .bind (OpenPort.run_empty h h' c) ?_
  rw [if_pos rfl]
  exact .pure _ _

theorem run_tryAt_off {chip : NscChip} (regs : UInt8 → UInt8) :
    p.device.Run (chip.tryAt p.base) ⟨0xff, regs⟩ [] ⟨0xff, regs⟩ := by
  refine .bind (OpenPort.run_index ⟨0xff, regs⟩) ?_
  rw [if_pos rfl]
  exact .pure _ _

theorem run_tryAt {chip : NscChip} {i : UInt8} (hi : i ≠ 0xff) (regs : UInt8 → UInt8)
    {r : NscReport} (hr : p.device.Run (chip.probe chip.name p.base
      ((regs chip.cidIndex &&& chip.cidMask) >>> 4) (regs chip.cidIndex &&& ~~~chip.cidMask))
        ⟨chip.cidIndex, regs⟩ r ⟨0x02, regs⟩) :
    p.device.Run (chip.tryAt p.base) ⟨i, regs⟩
      (if regs chip.cidIndex &&& chip.cidMask = chip.cidValue then [r] else [])
      (if regs chip.cidIndex &&& chip.cidMask = chip.cidValue then ⟨0x02, regs⟩
        else ⟨chip.cidIndex, regs⟩) := by
  refine .bind (OpenPort.run_index ⟨i, regs⟩) ?_
  rw [if_neg hi]
  refine .bind (run_readReg chip.cidIndex i regs) ?_
  by_cases h : regs chip.cidIndex &&& chip.cidMask = chip.cidValue
  · rw [if_pos h, if_pos h, if_pos h]
    exact .bind hr (.pure _ _)
  · rw [if_neg h, if_neg h, if_neg h]
    exact .pure _ _

/-! ### The loops -/

theorem run_ports_off {chip : NscChip} (regs : UInt8 → UInt8) (qs : List UInt16)
    (hqs : ∀ q ∈ qs, q ≠ p.base + 1) :
    p.device.Run (gather chip.tryAt qs) ⟨0xff, regs⟩ [] ⟨0xff, regs⟩ := by
  induction qs with
  | nil => exact .gather_nil _ _
  | cons q qs ih =>
    obtain ⟨hq, hqs'⟩ := List.forall_mem_cons.1 hqs
    have hturn : p.device.Run (chip.tryAt q) ⟨0xff, regs⟩ [] ⟨0xff, regs⟩ := by
      by_cases hbase : q = p.base
      · rw [hbase]
        exact run_tryAt_off regs
      · exact run_tryAt_empty hbase hq _
    exact .gather_cons hturn (ih hqs')

/-- The chip is asked at its own port only, once. -/
theorem run_ports (chip : NscChip) {regs : UInt8 → UInt8} {r : NscReport}
    (hcid : chip.cidIndex ≠ 0xff)
    (hr : p.device.Run (chip.probe chip.name p.base ((regs chip.cidIndex &&& chip.cidMask) >>> 4)
      (regs chip.cidIndex &&& ~~~chip.cidMask)) ⟨chip.cidIndex, regs⟩ r ⟨0x02, regs⟩)
    (qs : List UInt16) (hqs : ∀ q ∈ qs, q ≠ p.base + 1) (hnodup : qs.Nodup) {i : UInt8}
    (hi : i ≠ 0xff) :
    ∃ j, j ≠ 0xff ∧ p.device.Run (gather chip.tryAt qs) ⟨i, regs⟩
      (if p.base ∈ qs ∧ regs chip.cidIndex &&& chip.cidMask = chip.cidValue then [r] else [])
      ⟨j, regs⟩ := by
  induction qs generalizing i with
  | nil => exact ⟨i, hi, .gather_nil _ _⟩
  | cons q qs ih =>
    obtain ⟨hq, hqs'⟩ := List.forall_mem_cons.1 hqs
    obtain ⟨hnot, hnodup'⟩ := List.nodup_cons.1 hnodup
    by_cases hbase : q = p.base
    · subst hbase
      have hturn := run_tryAt hi regs hr
      by_cases hid : regs chip.cidIndex &&& chip.cidMask = chip.cidValue
      · rw [if_pos hid, if_pos hid] at hturn
        obtain ⟨j, hj, hrest⟩ := ih hqs' hnodup' (i := 0x02) (by decide)
        rw [if_neg fun h => hnot h.1] at hrest
        rw [if_pos ⟨by simp, hid⟩]
        exact ⟨j, hj, .gather_cons hturn hrest⟩
      · rw [if_neg hid, if_neg hid] at hturn
        obtain ⟨j, hj, hrest⟩ := ih hqs' hnodup' hcid
        rw [if_neg fun h => hnot h.1] at hrest
        rw [if_neg fun h => hid h.2]
        exact ⟨j, hj, .gather_cons hturn hrest⟩
    · obtain ⟨j, hj, hrest⟩ := ih hqs' hnodup' hi
      have hmem : p.base ∈ q :: qs ↔ p.base ∈ qs := by
        rw [List.mem_cons, or_iff_right (Ne.symm hbase)]
      refine ⟨j, hj, ?_⟩
      simp only [hmem]
      exact .gather_cons (run_tryAt_empty hbase hq _) hrest

theorem run_nscChips {c c1 c2 : OpenChip} {as bs : List NscReport}
    (h108 : p.device.Run (gather pc87108.tryAt pc87108.cfg) c as c1)
    (h338 : p.device.Run (gather pc87338.tryAt pc87338.cfg) c1 bs c2) :
    p.device.Run probeNsc c (as ++ bs) c2 := by
  have hlast : p.device.Run (gather (fun chip : NscChip => gather chip.tryAt chip.cfg) [pc87338]) c1
      (bs ++ []) c2 := .gather_cons h338 (.gather_nil _ _)
  rw [List.append_nil] at hlast
  exact .gather_cons h108 hlast

theorem run_probeNsc_off (regs : UInt8 → UInt8)
    (hports : ∀ chip ∈ nscChips, ∀ q ∈ chip.cfg, q ≠ p.base + 1) :
    p.device.Run probeNsc ⟨0xff, regs⟩ [] ⟨0xff, regs⟩ := by
  have h108 : p.device.Run (gather pc87108.tryAt pc87108.cfg) ⟨0xff, regs⟩ [] ⟨0xff, regs⟩ :=
    run_ports_off regs _ (hports pc87108 (by simp [nscChips]))
  have h338 : p.device.Run (gather pc87338.tryAt pc87338.cfg) ⟨0xff, regs⟩ [] ⟨0xff, regs⟩ :=
    run_ports_off regs _ (hports pc87338 (by simp [nscChips]))
  exact run_nscChips h108 h338

theorem run_probeNsc {i : UInt8} (hi : i ≠ 0xff) (regs : UInt8 → UInt8)
    (hports : ∀ chip ∈ nscChips, ∀ q ∈ chip.cfg, q ≠ p.base + 1) :
    ∃ j, p.device.Run probeNsc ⟨i, regs⟩ (reports108 p.base regs ++ reports338 p.base regs) ⟨j, regs⟩ := by
  have h108 : p.device.Run (pc87108.probe pc87108.name p.base ((regs 0x05 &&& 0xf0) >>> 4)
      (regs 0x05 &&& ~~~0xf0)) ⟨0x05, regs⟩ (report108 p.base regs) ⟨0x02, regs⟩ :=
    run_nscProbe108 pc87108.name _ _ 0x05 regs
  have h338 : p.device.Run (pc87338.probe pc87338.name p.base ((regs 0x08 &&& 0xf0) >>> 4)
      (regs 0x08 &&& ~~~0xf0)) ⟨0x08, regs⟩ (report338 p.base regs) ⟨0x02, regs⟩ :=
    run_nscProbe338 pc87338.name _ _ 0x08 regs
  obtain ⟨j1, hj1, hrun1⟩ := run_ports pc87108 (by decide) h108 pc87108.cfg
    (hports pc87108 (by simp [nscChips])) (by decide) hi
  obtain ⟨j2, -, hrun2⟩ := run_ports pc87338 (by decide) h338 pc87338.cfg
    (hports pc87338 (by simp [nscChips])) (by decide) hj1
  exact ⟨j2, run_nscChips hrun1 hrun2⟩

end Chip

/-- For every chip with the index register that the NSC probes expect, whatever its registers
hold: if a register is selected, the probe reports what the registers say, under each of the
two names that its id register answers to, and else nothing; its registers are as before. -/
theorem nsc_reported {base : UInt16} (hbase : base ∈ nscPorts) (i : UInt8) (regs : UInt8 → UInt8) :
    let d := (OpenPort.mk base).device
    let run := probeNsc (d.hardware ⟨i, regs⟩) []
    run.1 = (if i = 0xff then [] else reports108 base regs ++ reports338 base regs) ∧
      (d.state ⟨i, regs⟩ run.2).regs = regs := by
  intro d run
  have hports : ∀ chip ∈ nscChips, ∀ q ∈ chip.cfg, q ≠ (OpenPort.mk base).base + 1 := by
    have hall : nscPorts.all (fun b => (pc87108.cfg ++ pc87338.cfg).all fun q => q != b + 1) =
        true := by decide
    intro chip hchip q hq
    refine bne_iff_ne.1 (List.all_eq_true.1 (List.all_eq_true.1 hall base hbase) q ?_)
    simp only [nscChips, List.mem_cons, List.not_mem_nil, or_false] at hchip
    rcases hchip with rfl | rfl
    · exact List.mem_append_left _ hq
    · exact List.mem_append_right _ hq
  by_cases hi : i = 0xff
  · subst hi
    obtain ⟨h1, h2⟩ := run_probeNsc_off regs hports ⟨0xff, regs⟩ [] rfl
    exact ⟨h1, congrArg OpenChip.regs h2⟩
  · obtain ⟨j, hrun⟩ := run_probeNsc (p := OpenPort.mk base) hi regs hports
    obtain ⟨h1, h2⟩ := hrun ⟨i, regs⟩ [] rfl
    rw [if_neg hi]
    exact ⟨h1, congrArg OpenChip.regs h2⟩

/-- The registers of a '338 in legacy mode that answers to the name of a '108, too. -/
def bothNames : UInt8 → UInt8 := fun r => if r = 0x05 then 0x17 else if r = 0x08 then 0xb3 else 0

theorem nsc_reported_both :
    (probeNsc ((OpenPort.mk 0x398).device.hardware ⟨0, bothNames⟩) []).1.map (fun r => r.info.name) =
      [pc87108.name, pc87338.name] := by
  have hport : (0x398 : UInt16) ∈ nscPorts := by decide
  rw [(nsc_reported hport 0 bothNames).1]
  decide

end Findchip
