import IrdaUtils.Lib.PortIo

/-! Devices behind I/O ports as state machines: every access moves the device on, and a read is
answered from its state. `Run` is the evaluation of a program against such a device.

The second part is the usual device of a super I/O chip: a register file behind an index port
and the data port next to it, open from one key to another. -/

namespace PortIo

variable {σ α β : Type}

structure Device (σ : Type) where
  access : σ → Access → σ
  answer : σ → UInt16 → UInt8

namespace Device

variable (d : Device σ)

/-- The state behind the accesses of `t`. -/
def state (s : σ) (t : List Access) : σ := t.foldl d.access s

def hardware (s : σ) : Hardware := fun t port => d.answer (d.state s t) port

/-- From `s`, the program answers `a` and leaves the device in `s'`. -/
def Run (m : Io α) (s : σ) (a : α) (s' : σ) : Prop :=
  ∀ s0 t, d.state s0 t = s →
    (m (d.hardware s0) t).1 = a ∧ d.state s0 (m (d.hardware s0) t).2 = s'

variable {d}

theorem state_snoc (s : σ) (t : List Access) (a : Access) :
    d.state s (t ++ [a]) = d.access (d.state s t) a := by
  simp [state]

theorem Run.pure (a : α) (s : σ) : d.Run (pure a : Io α) s a s :=
  fun _ _ h => ⟨rfl, h⟩

theorem Run.outb (value : UInt8) (port : UInt16) (s : σ) :
    d.Run (outb value port) s () (d.access s (.out value port)) := by
  intro s0 t h
  refine ⟨rfl, ?_⟩
  rw [← h]
  exact state_snoc s0 t _

theorem Run.inb (port : UInt16) (s : σ) :
    d.Run (inb port) s (d.answer s port) (d.access s (.inn (d.answer s port) port)) := by
  intro s0 t h
  rw [← h]
  exact ⟨rfl, state_snoc s0 t _⟩

theorem Run.bind {m : Io α} {f : α → Io β} {s s1 s2 : σ} {a : α} {b : β}
    (hm : d.Run m s a s1) (hf : d.Run (f a) s1 b s2) : d.Run (m >>= f) s b s2 := by
  intro s0 t h
  obtain ⟨ha, hs⟩ := hm s0 t h
  have hb := hf s0 (m (d.hardware s0) t).2 hs
  rw [← ha] at hb
  exact hb

theorem Run.gather_nil {κ : Type} (f : κ → Io (List α)) (s : σ) : d.Run (gather f []) s [] s :=
  .pure _ _

theorem Run.gather_cons {κ : Type} {f : κ → Io (List α)} {k : κ} {ks : List κ} {s s1 s2 : σ}
    {as bs : List α} (h : d.Run (f k) s as s1) (hs : d.Run (gather f ks) s1 bs s2) :
    d.Run (gather f (k :: ks)) s (as ++ bs) s2 :=
  .bind h (.bind hs (.pure _ _))

end Device

/-! ### A register file behind an index port -/

structure IndexChip where
  config : Bool
  index : UInt8
  regs : UInt8 → UInt8

/-- Outside the configuration mode the chip waits for `enterKey` at the index port; inside, a
write there selects a register or, with `exitKey`, ends the mode. -/
structure IndexPort where
  base : UInt16
  enterKey : UInt8
  exitKey : UInt8
  deriving DecidableEq, Repr

namespace IndexPort

variable (p : IndexPort)

def access (c : IndexChip) : Access → IndexChip
  | .out value port =>
    if port = p.base then
      if c.config then
        if value = p.exitKey then { c with config := false } else { c with index := value }
      else if value = p.enterKey then { c with config := true } else c
    else if port = p.base + 1 ∧ c.config then
      { c with regs := Function.update c.regs c.index value }
    else c
  | .inn _ _ => c

def answer (c : IndexChip) (port : UInt16) : UInt8 :=
  if port = p.base + 1 ∧ c.config then c.regs c.index else 0xff

def device : Device IndexChip := ⟨p.access, p.answer⟩

/-- A write to the selected register. -/
def writeReg (reg value : UInt8) : Io Unit := do
  outb reg p.base
  outb value (p.base + 1)

/-- A register rewritten from its own value. -/
def modifyReg (reg : UInt8) (f : UInt8 → UInt8) : Io Unit := do
  outb reg p.base
  let onebyte ← inb (p.base + 1)
  outb (f onebyte) (p.base + 1)

variable {p}

/-- The key opens the chip; one that is open takes it for an index. -/
theorem run_enter (c : IndexChip) (h : p.enterKey ≠ p.exitKey) :
    ∃ i, p.device.Run (outb p.enterKey p.base) c () ⟨true, i, c.regs⟩ := by
  refine ⟨if c.config then p.enterKey else c.index, ?_⟩
  have hacc : p.access c (.out p.enterKey p.base) =
      ⟨true, if c.config then p.enterKey else c.index, c.regs⟩ := by
    cases hc : c.config with
    | true => simp [access, hc, h]
    | false => simp [access, hc]
  rw [← hacc]
  exact .outb _ _ c

theorem run_select {reg : UInt8} (h : reg ≠ p.exitKey) (i : UInt8) (regs : UInt8 → UInt8) :
    p.device.Run (outb reg p.base) ⟨true, i, regs⟩ () ⟨true, reg, regs⟩ := by
  have hacc : p.access ⟨true, i, regs⟩ (.out reg p.base) = ⟨true, reg, regs⟩ := by
    simp [access, h]
  rw [← hacc]
  exact .outb _ _ _

theorem run_data (value i : UInt8) (regs : UInt8 → UInt8) :
    p.device.Run (outb value (p.base + 1)) ⟨true, i, regs⟩ ()
      ⟨true, i, Function.update regs i value⟩ := by
  have hacc : p.access ⟨true, i, regs⟩ (.out value (p.base + 1)) =
      ⟨true, i, Function.update regs i value⟩ := by
    simp [access]
  rw [← hacc]
  exact .outb _ _ _

theorem run_read (i : UInt8) (regs : UInt8 → UInt8) :
    p.device.Run (inb (p.base + 1)) ⟨true, i, regs⟩ (regs i) ⟨true, i, regs⟩ := by
  have hans : p.answer ⟨true, i, regs⟩ (p.base + 1) = regs i := by
    simp [answer]
  rw [← hans]
  exact .inb _ _

theorem run_exit (i : UInt8) (regs : UInt8 → UInt8) :
    p.device.Run (outb p.exitKey p.base) ⟨true, i, regs⟩ () ⟨false, i, regs⟩ := by
  have hacc : p.access ⟨true, i, regs⟩ (.out p.exitKey p.base) = ⟨false, i, regs⟩ := by
    simp [access]
  rw [← hacc]
  exact .outb _ _ _

theorem run_writeReg {reg : UInt8} (h : reg ≠ p.exitKey) (value i : UInt8)
    (regs : UInt8 → UInt8) :
    p.device.Run (p.writeReg reg value) ⟨true, i, regs⟩ ()
      ⟨true, reg, Function.update regs reg value⟩ :=
  .bind (run_select h i regs) (run_data value reg regs)

theorem run_modifyReg {reg : UInt8} (h : reg ≠ p.exitKey) (f : UInt8 → UInt8) (i : UInt8)
    (regs : UInt8 → UInt8) :
    p.device.Run (p.modifyReg reg f) ⟨true, i, regs⟩ ()
      ⟨true, reg, Function.update regs reg (f (regs reg))⟩ :=
  .bind (run_select h i regs) (.bind (run_read reg regs) (run_data _ reg regs))

end IndexPort

/-! ### A register file that is always open -/

structure OpenChip where
  index : UInt8
  regs : UInt8 → UInt8

/-- The index port can be read as well; all other ports are empty. -/
structure OpenPort where
  base : UInt16
  deriving DecidableEq, Repr

namespace OpenPort

variable (p : OpenPort)

def access (c : OpenChip) : Access → OpenChip
  | .out value port =>
    if port = p.base then { c with index := value }
    else if port = p.base + 1 then { c with regs := Function.update c.regs c.index value }
    else c
  | .inn _ _ => c

def answer (c : OpenChip) (port : UInt16) : UInt8 :=
  if port = p.base then c.index else if port = p.base + 1 then c.regs c.index else 0xff

def device : Device OpenChip := ⟨p.access, p.answer⟩

variable {p}

theorem run_index (c : OpenChip) : p.device.Run (inb p.base) c c.index c := by
  have hans : p.answer c p.base = c.index := if_pos rfl
  rw [← hans]
  exact .inb _ c

/-- A port without hardware. -/
theorem run_empty {port : UInt16} (h : port ≠ p.base) (h' : port ≠ p.base + 1) (c : OpenChip) :
    p.device.Run (inb port) c 0xff c := by
  have hans : p.answer c port = 0xff := by
    rw [answer, if_neg h, if_neg h']
  rw [← hans]
  exact .inb _ c

theorem run_select (reg i : UInt8) (regs : UInt8 → UInt8) :
    p.device.Run (outb reg p.base) ⟨i, regs⟩ () ⟨reg, regs⟩ := by
  have hacc : p.access ⟨i, regs⟩ (.out reg p.base) = ⟨reg, regs⟩ := if_pos rfl
  rw [← hacc]
  exact .outb _ _ _

theorem run_read (i : UInt8) (regs : UInt8 → UInt8) :
    p.device.Run (inb (p.base + 1)) ⟨i, regs⟩ (regs i) ⟨i, regs⟩ := by
  have hne : p.base + 1 ≠ p.base := by simp
  have hans : p.answer ⟨i, regs⟩ (p.base + 1) = regs i := by
    rw [answer, if_neg hne, if_pos rfl]
  rw [← hans]
  exact .inb _ _

end OpenPort

end PortIo
