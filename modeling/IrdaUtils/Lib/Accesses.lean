import IrdaUtils.Lib.Stores

/-! Programs that read and write a byte memory. A program comes to a byte only by `read`, so
the trace of a run has everything that it looks at, in the order of the accesses. `loop` is a
`while` loop, whose condition may access the memory too. -/

namespace Accesses
open Memory Stores

inductive Access where
  | read (a : ℕ)
  | write (a : ℕ) (b : UInt8)
  deriving DecidableEq, Repr

inductive Prog (α : Type) where
  | done (x : α)
  | get (a : ℕ) (next : UInt8 → Prog α)
  | set (a : ℕ) (b : UInt8) (next : Prog α)

structure Effect (α : Type) where
  val : α
  mem : Mem
  trace : List Access

variable {α β σ : Type}

namespace Prog

def bind : Prog α → (α → Prog β) → Prog β
  | done x, f => f x
  | get a next, f => get a fun b => (next b).bind f
  | set a b next, f => set a b (next.bind f)

def run : Prog α → Mem → Effect α
  | done x, m => ⟨x, m, []⟩
  | get a next, m =>
    let o := (next (m a)).run m
    ⟨o.val, o.mem, .read a :: o.trace⟩
  | set a b next, m =>
    let o := next.run (Function.update m a b)
    ⟨o.val, o.mem, .write a b :: o.trace⟩

end Prog

instance : Monad Prog where
  pure := .done
  bind := .bind

def read (a : ℕ) : Prog UInt8 := .get a .done

def write (a : ℕ) (b : UInt8) : Prog Unit := .set a b (.done ())

/-- `while (cond) body`, with at most that many turns: there is no result when the condition
holds once more. -/
def loop (cond : σ → Prog Bool) (body : σ → Prog σ) : ℕ → σ → Prog (Option σ)
  | 0, s => do if ← cond s then pure none else pure (some s)
  | n + 1, s => do if ← cond s then body s >>= loop cond body n else pure (some s)

theorem run_pure (x : α) (m : Mem) : (pure x : Prog α).run m = ⟨x, m, []⟩ := rfl

theorem run_bind (p : Prog α) (f : α → Prog β) (m : Mem) : (p >>= f).run m =
    ⟨((f (p.run m).val).run (p.run m).mem).val, ((f (p.run m).val).run (p.run m).mem).mem,
      (p.run m).trace ++ ((f (p.run m).val).run (p.run m).mem).trace⟩ := by
  change (p.bind f).run m = _
  induction p generalizing m with
  | done x => rfl
  | get a next ih => simp only [Prog.bind, Prog.run, ih, List.cons_append]
  | set a b next ih => simp only [Prog.bind, Prog.run, ih, List.cons_append]

/-! ### Traces -/

/-- The stores of a trace. -/
def writes (t : List Access) : Log :=
  t.filterMap fun
    | .read _ => none
    | .write a b => some (a, b)

theorem mem_writes {t : List Access} {w : ℕ × UInt8} : w ∈ writes t ↔ .write w.1 w.2 ∈ t := by
  unfold writes
  rw [List.mem_filterMap]
  constructor
  · rintro ⟨x, hx, h⟩
    cases x with
    | read a => cases h
    | write a b =>
      cases h
      exact hx
  · intro h
    exact ⟨_, h, rfl⟩

/-- A run changes the memory by the writes of its trace. -/
theorem run_mem (p : Prog α) (m : Mem) : (p.run m).mem = play m (writes (p.run m).trace) := by
  induction p generalizing m with
  | done x => rfl
  | get a next ih => exact ih (m a) m
  | set a b next ih => exact ih _

/-- What is not written stays. -/
theorem run_mem_outside (p : Prog α) {m : Mem} {x : ℕ}
    (h : ∀ b, .write x b ∉ (p.run m).trace) : (p.run m).mem x = m x := by
  rw [run_mem]
  refine play_outside _ fun w hw e => ?_
  rw [mem_writes, e] at hw
  exact h w.2 hw

/-- An access that does not read what the earlier one has written. -/
def Clear : Access → Access → Prop
  | .write a _, .read a' => a ≠ a'
  | _, _ => True

/-- No byte is read after it was written. -/
def ReadsFresh (t : List Access) : Prop := t.Pairwise Clear

theorem ReadsFresh.append_read {t : List Access} (h : ReadsFresh t) {a : ℕ}
    (ha : ∀ b, .write a b ∉ t) : ReadsFresh (t ++ [.read a]) := by
  refine List.pairwise_append.2 ⟨h, List.pairwise_singleton _ _, fun x hx y hy => ?_⟩
  rw [List.mem_singleton.1 hy]
  cases x with
  | read _ => trivial
  | write a' b =>
    rintro rfl
    exact ha b hx

theorem ReadsFresh.append_write {t : List Access} (h : ReadsFresh t) (a : ℕ) (b : UInt8) :
    ReadsFresh (t ++ [.write a b]) := by
  refine List.pairwise_append.2 ⟨h, List.pairwise_singleton _ _, fun x _ y hy => ?_⟩
  rw [List.mem_singleton.1 hy]
  cases x <;> trivial

/-! ### Programs that only read -/

/-- On `m`, the program gives `x`, reads where `P` holds only, and writes nothing. -/
structure ReadsOnly (P : ℕ → Prop) (m : Mem) (p : Prog α) (x : α) : Prop where
  val : (p.run m).val = x
  trace : ∀ y ∈ (p.run m).trace, ∃ a, P a ∧ y = .read a

namespace ReadsOnly

variable {P : ℕ → Prop} {m : Mem}

theorem mem {p : Prog α} {x : α} (h : ReadsOnly P m p x) : (p.run m).mem = m := by
  funext a
  refine run_mem_outside p fun b hb => ?_
  obtain ⟨_, -, e⟩ := h.trace _ hb
  cases e

theorem mono {P' : ℕ → Prop} {p : Prog α} {x : α} (h : ReadsOnly P m p x) (himp : ∀ a, P a → P' a) :
    ReadsOnly P' m p x := by
  refine ⟨h.val, fun y hy => ?_⟩
  obtain ⟨a, ha, rfl⟩ := h.trace y hy
  exact ⟨a, himp a ha, rfl⟩

theorem pure (x : α) : ReadsOnly P m (pure x) x := ⟨rfl, by simp [run_pure]⟩

theorem read {a : ℕ} (h : P a) : ReadsOnly P m (read a) (m a) :=
  ⟨rfl, fun _ hy => ⟨a, h, List.mem_singleton.1 hy⟩⟩

theorem bind {p : Prog α} {x : α} {f : α → Prog β} {y : β} (hp : ReadsOnly P m p x)
    (hf : ReadsOnly P m (f x) y) : ReadsOnly P m (p >>= f) y := by
  constructor
  · rw [run_bind]
    simp only [hp.val, hp.mem]
    exact hf.val
  · intro z hz
    rw [run_bind] at hz
    simp only [hp.val, hp.mem] at hz
    rcases List.mem_append.1 hz with h | h
    · exact hp.trace z h
    · exact hf.trace z h

end ReadsOnly

/-! ### Loops -/

section Loops

variable {cond : σ → Prog Bool} {body : σ → Prog σ}

/-- A loop that is left at once, however many turns are allowed. -/
theorem run_loop_left {s : σ} {m : Mem} (h : ((cond s).run m).val = false) (n : ℕ) :
    (loop cond body n s).run m = ⟨some s, ((cond s).run m).mem, ((cond s).run m).trace⟩ := by
  cases n <;>
    simp only [loop, run_bind, h, Bool.false_eq_true, if_false, run_pure, List.append_nil]

theorem run_loop_again {s : σ} {m : Mem} (h : ((cond s).run m).val = true) (n : ℕ) :
    (loop cond body (n + 1) s).run m =
      let c := (cond s).run m
      let b := (body s).run c.mem
      let o := (loop cond body n b.val).run b.mem
      ⟨o.val, o.mem, c.trace ++ b.trace ++ o.trace⟩ := by
  simp only [loop, run_bind, h, if_true, List.append_assoc]

variable (cond body) in
/-- The rule for loops that end. `I` is about the local variables, the memory and the trace
before the condition, and `μ` is no less than the number of turns that are left. -/
theorem loop_ends (I Q : σ → Mem → List Access → Prop) (μ : σ → ℕ)
    (again : ∀ s m t, I s m t → ((cond s).run m).val = true →
      let c := (cond s).run m
      let b := (body s).run c.mem
      I b.val b.mem (t ++ (c.trace ++ b.trace)) ∧ μ b.val < μ s)
    (left : ∀ s m t, I s m t → ((cond s).run m).val = false →
      Q s ((cond s).run m).mem (t ++ ((cond s).run m).trace)) :
    ∀ n s m t, I s m t → μ s ≤ n → ∃ s', ((loop cond body n s).run m).val = some s' ∧
      Q s' ((loop cond body n s).run m).mem (t ++ ((loop cond body n s).run m).trace) := by
  intro n
  induction n with
  | zero =>
    intro s m t hI hμ
    cases hc : ((cond s).run m).val with
    | true =>
      have hlt := (again s m t hI hc).2
      omega
    | false =>
      rw [run_loop_left hc]
      exact ⟨s, rfl, left s m t hI hc⟩
  | succ n ih =>
    intro s m t hI hμ
    cases hc : ((cond s).run m).val with
    | true =>
      obtain ⟨hI', hlt⟩ := again s m t hI hc
      obtain ⟨s', hval, hQ⟩ := ih _ _ _ hI' (by omega)
      rw [run_loop_again hc]
      refine ⟨s', hval, ?_⟩
      rwa [List.append_assoc] at hQ
    | false =>
      rw [run_loop_left hc]
      exact ⟨s, rfl, left s m t hI hc⟩

end Loops

/-- The rule for loops that only read, with a condition on the local variables. -/
theorem loop_readsOnly {P : ℕ → Prop} {m : Mem} {cond : σ → Bool} {body : σ → Prog σ} {f : σ → σ}
    {I : σ → Prop} (μ : σ → ℕ)
    (again : ∀ s, I s → cond s = true → ReadsOnly P m (body s) (f s) ∧ I (f s) ∧ μ (f s) < μ s)
    {n : ℕ} {s : σ} (hs : I s) (hμ : μ s ≤ n) :
    ∃ s', I s' ∧ cond s' = false ∧ ReadsOnly P m (loop (fun s => pure (cond s)) body n s) (some s') := by
  let reads (t : List Access) : Prop := ∀ y ∈ t, ∃ a, P a ∧ y = .read a
  have hagain : ∀ s m' t, (I s ∧ m' = m ∧ reads t) → cond s = true →
      (I ((body s).run m').val ∧ ((body s).run m').mem = m ∧ reads (t ++ ((body s).run m').trace)) ∧
        μ ((body s).run m').val < μ s := by
    rintro s m' t ⟨hs, rfl, ht⟩ hc
    obtain ⟨hbody, hs', hlt⟩ := again s hs hc
    rw [hbody.val, hbody.mem]
    refine ⟨⟨hs', rfl, fun y hy => ?_⟩, hlt⟩
    rcases List.mem_append.1 hy with h | h
    · exact ht y h
    · exact hbody.trace y h
  have hleft : ∀ s m' t, (I s ∧ m' = m ∧ reads t) → cond s = false →
      I s ∧ cond s = false ∧ reads (t ++ []) := by
    rintro s m' t ⟨hs, -, ht⟩ hc
    exact ⟨hs, hc, by rwa [List.append_nil]⟩
  obtain ⟨s', hval, hs', hc, htrace⟩ := loop_ends (fun s => pure (cond s)) body
    (fun s m' t => I s ∧ m' = m ∧ reads t) (fun s _ t => I s ∧ cond s = false ∧ reads t) μ hagain hleft
    n s m [] ⟨hs, rfl, fun _ hy => absurd hy List.not_mem_nil⟩ hμ
  exact ⟨s', hs', hc, hval, htrace⟩

end Accesses
