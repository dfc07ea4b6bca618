import IrdaUtils.Lib.Masks
import IrdaUtils.Lib.Memory

/-! Chips with more registers than ports. The registers are in banks, one of which is selected
at a time; a master register next to them, in all banks, has the number of the selected bank in
the bits of a mask. There is also a memory that the program and the chip share.

A program names the register that it means. What it meets is the register with that offset in
the selected bank, so the trace has the bank of every access. A read may be answered by any
byte: `Meets` is about all streams of answers. -/

namespace Banked
open Memory

structure Reg where
  bank : UInt8
  offset : ℕ
  deriving DecidableEq, Repr

/-- An access, with the bank that is selected. A `copy` goes to the shared memory. -/
inductive Access where
  | readMaster (value : UInt8)
  | writeMaster (value : UInt8)
  | read (bank : UInt8) (reg : Reg) (value : UInt8)
  | write (bank : UInt8) (reg : Reg) (value : UInt8)
  | peek (a : ℤ) (value : UInt8)
  | copy (a : ℕ) (bs : List UInt8)
  deriving DecidableEq, Repr

inductive Prog (α : Type) where
  | done (x : α)
  | getMaster (next : UInt8 → Prog α)
  | setMaster (value : UInt8) (next : Prog α)
  | get (reg : Reg) (next : UInt8 → Prog α)
  | set (reg : Reg) (value : UInt8) (next : Prog α)
  | getMem (a : ℤ) (next : UInt8 → Prog α)
  | setMem (a : ℕ) (bs : List UInt8) (next : Prog α)

structure Outcome (α : Type) where
  val : α
  bank : UInt8
  trace : List Access
  rest : ℕ → UInt8

variable {α β : Type}

def Outcome.after (a : Access) (o : Outcome α) : Outcome α := { o with trace := a :: o.trace }

namespace Prog

def bind : Prog α → (α → Prog β) → Prog β
  | done x, f => f x
  | getMaster next, f => getMaster fun v => (next v).bind f
  | setMaster v next, f => setMaster v (next.bind f)
  | get r next, f => get r fun v => (next v).bind f
  | set r v next, f => set r v (next.bind f)
  | getMem a next, f => getMem a fun v => (next v).bind f
  | setMem a bs next, f => setMem a bs (next.bind f)

/-- The run from `bank`, with the reads answered by `as`. The master register answers with the
selected bank in the bits of `mask`. -/
def run (mask : UInt8) : Prog α → UInt8 → (ℕ → UInt8) → Outcome α
  | done x, bank, as => ⟨x, bank, [], as⟩
  | getMaster next, bank, as =>
    let v := (as 0 &&& ~~~mask) ||| bank
    ((next v).run mask bank fun n => as (n + 1)).after (.readMaster v)
  | setMaster v next, _, as => (next.run mask (v &&& mask) as).after (.writeMaster v)
  | get r next, bank, as =>
    ((next (as 0)).run mask bank fun n => as (n + 1)).after (.read bank r (as 0))
  | set r v next, bank, as => (next.run mask bank as).after (.write bank r v)
  | getMem a next, bank, as =>
    ((next (as 0)).run mask bank fun n => as (n + 1)).after (.peek a (as 0))
  | setMem a bs next, bank, as => (next.run mask bank as).after (.copy a bs)

end Prog

instance : Monad Prog where
  pure := .done
  bind := .bind

def inMaster : Prog UInt8 := .getMaster .done

def outMaster (value : UInt8) : Prog Unit := .setMaster value (.done ())

def inReg (reg : Reg) : Prog UInt8 := .get reg .done

def outReg (reg : Reg) (value : UInt8) : Prog Unit := .set reg value (.done ())

def peek (a : ℤ) : Prog UInt8 := .getMem a .done

def copyTo (a : ℕ) (bs : List UInt8) : Prog Unit := .setMem a bs (.done ())

/-- The `n` bytes from `a` on. -/
def copyFrom (a : ℤ) : ℕ → Prog (List UInt8)
  | 0 => pure []
  | n + 1 => do
    let b ← peek a
    let bs ← copyFrom (a + 1) n
    pure (b :: bs)

/-! ### Rules -/

variable {mask : UInt8}

theorem run_bind (p : Prog α) (f : α → Prog β) (b : UInt8) (as : ℕ → UInt8) :
    (p >>= f).run mask b as =
      let o := p.run mask b as
      let o' := (f o.val).run mask o.bank o.rest
      ⟨o'.val, o'.bank, o.trace ++ o'.trace, o'.rest⟩ := by
  change (p.bind f).run mask b as = _
  induction p generalizing b as with
  | done x => rfl
  | getMaster next ih => simp only [Prog.bind, Prog.run, Outcome.after, ih, List.cons_append]
  | setMaster v next ih => simp only [Prog.bind, Prog.run, Outcome.after, ih, List.cons_append]
  | get r next ih => simp only [Prog.bind, Prog.run, Outcome.after, ih, List.cons_append]
  | set r v next ih => simp only [Prog.bind, Prog.run, Outcome.after, ih, List.cons_append]
  | getMem a next ih => simp only [Prog.bind, Prog.run, Outcome.after, ih, List.cons_append]
  | setMem a bs next ih => simp only [Prog.bind, Prog.run, Outcome.after, ih, List.cons_append]

/-- From bank `b`, whatever the reads answer, the result, the last bank and the trace meet `Q`. -/
def Meets (mask b : UInt8) (p : Prog α) (Q : α → UInt8 → List Access → Prop) : Prop :=
  ∀ as, Q (p.run mask b as).val (p.run mask b as).bank (p.run mask b as).trace

namespace Meets

variable {b : UInt8} {Q : α → UInt8 → List Access → Prop} {R : β → UInt8 → List Access → Prop}

theorem pure {x : α} (h : Q x b []) : Meets mask b (pure x) Q := fun _ => h

theorem mono {p : Prog α} {Q' : α → UInt8 → List Access → Prop} (hp : Meets mask b p Q)
    (h : ∀ x b' t, Q x b' t → Q' x b' t) : Meets mask b p Q' :=
  fun as => h _ _ _ (hp as)

theorem and {p : Prog α} {Q' : α → UInt8 → List Access → Prop} (hp : Meets mask b p Q)
    (hp' : Meets mask b p Q') : Meets mask b p fun x b' t => Q x b' t ∧ Q' x b' t :=
  fun as => ⟨hp as, hp' as⟩

theorem bind {p : Prog α} {f : α → Prog β} (hp : Meets mask b p Q)
    (hf : ∀ x b' t, Q x b' t → Meets mask b' (f x) fun y b'' u => R y b'' (t ++ u)) :
    Meets mask b (p >>= f) R := by
  intro as
  rw [run_bind]
  exact hf _ _ _ (hp as) _

theorem inMaster {f : UInt8 → Prog β}
    (hf : ∀ v, Meets mask b (f ((v &&& ~~~mask) ||| b)) fun y b' u =>
      R y b' (.readMaster ((v &&& ~~~mask) ||| b) :: u)) :
    Meets mask b (Banked.inMaster >>= f) R :=
  fun as => hf (as 0) _

theorem outMaster {v : UInt8} {f : Unit → Prog β}
    (hf : Meets mask (v &&& mask) (f ()) fun y b' u => R y b' (.writeMaster v :: u)) :
    Meets mask b (Banked.outMaster v >>= f) R :=
  fun as => hf as

theorem inReg {r : Reg} {f : UInt8 → Prog β}
    (hf : ∀ v, Meets mask b (f v) fun y b' u => R y b' (.read b r v :: u)) :
    Meets mask b (Banked.inReg r >>= f) R :=
  fun as => hf (as 0) _

theorem outReg {r : Reg} {v : UInt8} {f : Unit → Prog β}
    (hf : Meets mask b (f ()) fun y b' u => R y b' (.write b r v :: u)) :
    Meets mask b (Banked.outReg r v >>= f) R :=
  fun as => hf as

theorem peek {a : ℤ} {f : UInt8 → Prog β}
    (hf : ∀ v, Meets mask b (f v) fun y b' u => R y b' (.peek a v :: u)) :
    Meets mask b (Banked.peek a >>= f) R :=
  fun as => hf (as 0) _

theorem copyTo {a : ℕ} {bs : List UInt8} {f : Unit → Prog β}
    (hf : Meets mask b (f ()) fun y b' u => R y b' (.copy a bs :: u)) :
    Meets mask b (Banked.copyTo a bs >>= f) R :=
  fun as => hf as

end Meets

/-- The reads of a block, with what they were answered. -/
def peeks (a : ℤ) : List UInt8 → List Access
  | [] => []
  | b :: bs => .peek a b :: peeks (a + 1) bs

theorem copyFrom_meets {b : UInt8} (a : ℤ) (n : ℕ) :
    Meets mask b (copyFrom a n) fun bs b' t => b' = b ∧ bs.length = n ∧ t = peeks a bs := by
  induction n generalizing a with
  | zero => exact .pure ⟨rfl, rfl, rfl⟩
  | succ n ih =>
    refine .peek fun v => .bind (ih (a + 1)) ?_
    rintro bs b' t ⟨rfl, hn, rfl⟩
    exact .pure ⟨rfl, by rw [List.length_cons, hn], by simp [peeks]⟩

/-! ### The master register -/

/-- A bank that the mask can name. -/
def IsBank (mask b : UInt8) : Prop := b &&& mask = b

instance (mask b : UInt8) : Decidable (IsBank mask b) := inferInstanceAs (Decidable (b &&& mask = b))

/-- The bits beside the mask do not select. -/
theorem select_bank {b : UInt8} (h : IsBank mask b) (v : UInt8) :
    ((v &&& ~~~mask) ||| b) &&& mask = b := by
  rw [Masks.mask_or, Masks.clear_mask, h, UInt8.zero_or]

/-! ### What the chip has seen -/

/-- The access goes to a register of another bank than the one that is meant. -/
def Access.missed : Access → Bool
  | .read bank reg _ => bank ≠ reg.bank
  | .write bank reg _ => bank ≠ reg.bank
  | _ => false

def misses (t : List Access) : List Access := t.filter Access.missed

@[simp] theorem misses_append (t u : List Access) : misses (t ++ u) = misses t ++ misses u :=
  List.filter_append t u

theorem misses_peeks (a : ℤ) (bs : List UInt8) : misses (peeks a bs) = [] := by
  induction bs generalizing a with
  | nil => rfl
  | cons b bs ih => exact ih (a + 1)

@[simp] theorem peeks_length (a : ℤ) (bs : List UInt8) : (peeks a bs).length = bs.length := by
  induction bs generalizing a with
  | nil => rfl
  | cons b bs ih => exact congrArg (· + 1) (ih (a + 1))

/-- The registers by bank and offset, and the shared memory. -/
structure Chip where
  regs : UInt8 → ℕ → UInt8
  mem : Mem

/-- A write goes to the register that is met, not to the one that is meant. -/
def Chip.see (c : Chip) : Access → Chip
  | .write bank reg value =>
    { c with regs := Function.update c.regs bank (Function.update (c.regs bank) reg.offset value) }
  | .copy a bs => { c with mem := store c.mem a bs }
  | _ => c

def Chip.after (c : Chip) (t : List Access) : Chip := t.foldl Chip.see c

@[simp] theorem Chip.after_append (c : Chip) (t u : List Access) :
    c.after (t ++ u) = (c.after t).after u :=
  List.foldl_append

end Banked
