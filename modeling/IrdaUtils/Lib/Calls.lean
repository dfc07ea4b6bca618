import Mathlib.Tactic

/-! Sequences of calls that may fail or be interrupted. A call changes the state when it
succeeds; when it fails, the state stays, and the sequence goes on or ends there. `Reach`
gives the points at which a sequence can stand, and `Triple` is a Hoare triple with a
third assertion that holds at all of them. -/

namespace Calls

variable {σ : Type*}

inductive OnFailure where
  | never
  | goesOn
  | ends
  deriving DecidableEq, Repr

structure Call (σ : Type*) where
  run : σ → σ
  onFailure : OnFailure

/-- An assignment between two calls. -/
def assign (run : σ → σ) : Call σ := ⟨run, .never⟩

/-- The sequence `cs`, begun in `s`, can stand before `rest` in `s'`. -/
inductive Reach : List (Call σ) → σ → List (Call σ) → σ → Prop where
  | here (cs s) : Reach cs s cs s
  | ok {c cs s rest s'} : Reach cs (c.run s) rest s' → Reach (c :: cs) s rest s'
  | failed {c cs s rest s'} : c.onFailure = .goesOn → Reach cs s rest s' →
      Reach (c :: cs) s rest s'

/-- The state behind a sequence of calls that all succeed. -/
def runAll (cs : List (Call σ)) (s : σ) : σ := cs.foldl (fun s c => c.run s) s

theorem reach_runAll (cs : List (Call σ)) : ∀ s, Reach cs s [] (runAll cs s) := by
  induction cs with
  | nil => intro s; exact .here [] s
  | cons c cs ih => intro s; exact .ok (ih (c.run s))

theorem reach_append {ds : List (Call σ)} {rest : List (Call σ)} {s' : σ} :
    ∀ {cs : List (Call σ)} {s : σ}, Reach (cs ++ ds) s rest s' →
      (∃ r, rest = r ++ ds ∧ Reach cs s r s') ∨ ∃ m, Reach cs s [] m ∧ Reach ds m rest s' := by
  intro cs
  induction cs with
  | nil => intro s h; exact .inr ⟨s, .here _ _, h⟩
  | cons c cs ih =>
    intro s h
    cases h with
    | here => exact .inl ⟨_, rfl, .here _ _⟩
    | ok h =>
      rcases ih h with ⟨r, e, hr⟩ | ⟨m, hm, hd⟩
      · exact .inl ⟨r, e, .ok hr⟩
      · exact .inr ⟨m, .ok hm, hd⟩
    | failed hf h =>
      rcases ih h with ⟨r, e, hr⟩ | ⟨m, hm, hd⟩
      · exact .inl ⟨r, e, .failed hf hr⟩
      · exact .inr ⟨m, .failed hf hm, hd⟩

/-- From `P`, every point of the sequence meets `I` and its end meets `Q`. -/
def Triple (I P : σ → Prop) (cs : List (Call σ)) (Q : σ → Prop) : Prop :=
  ∀ s, P s → (∀ rest s', Reach cs s rest s' → I s') ∧ ∀ s', Reach cs s [] s' → Q s'

section Rules

variable {I P Q R : σ → Prop} {c : Call σ} {cs ds : List (Call σ)}

theorem Triple.call (hP : ∀ s, P s → I s) (hQ : ∀ s, Q s → I s)
    (hrun : ∀ s, P s → Q (c.run s)) (hfail : c.onFailure = .goesOn → ∀ s, P s → Q s) :
    Triple I P [c] Q := by
  intro s hs
  have key : ∀ rest s', Reach [c] s rest s' → (s' = s ∧ rest = [c]) ∨ Q s' := by
    intro rest s' h
    cases h with
    | here => exact .inl ⟨rfl, rfl⟩
    | ok h =>
      cases h
      exact .inr (hrun s hs)
    | failed hf h =>
      cases h
      exact .inr (hfail hf s hs)
  constructor
  · intro rest s' h
    rcases key rest s' h with ⟨rfl, -⟩ | hq
    · exact hP _ hs
    · exact hQ _ hq
  · intro s' h
    rcases key [] s' h with ⟨-, e⟩ | hq
    · cases e
    · exact hq

theorem Triple.append (h1 : Triple I P cs Q) (h2 : Triple I Q ds R) :
    Triple I P (cs ++ ds) R := by
  intro s hs
  obtain ⟨hi, hq⟩ := h1 s hs
  constructor
  · intro rest s' h
    rcases reach_append h with ⟨r, -, hr⟩ | ⟨m, hm, hd⟩
    · exact hi r s' hr
    · exact (h2 m (hq m hm)).1 rest s' hd
  · intro s' h
    rcases reach_append h with ⟨r, e, hr⟩ | ⟨m, hm, hd⟩
    · -- the end of `cs ++ ds` is inside `cs` only when `ds` is empty
      obtain ⟨rfl, rfl⟩ := List.append_eq_nil_iff.1 e.symm
      exact (h2 s' (hq s' hr)).2 s' (.here _ _)
    · exact (h2 m (hq m hm)).2 s' hd

/-- An assertion that every call keeps. -/
theorem Triple.keeps (h : ∀ c ∈ cs, ∀ s, P s → P (c.run s)) : Triple P P cs P := by
  have key : ∀ rest s s', Reach cs s rest s' → P s → P s' := by
    intro rest s s' hr
    induction hr with
    | here => intro hs; exact hs
    | ok _ ih => intro hs; exact ih (fun c hc => h c (by simp [hc])) (h _ (by simp) _ hs)
    | failed _ _ ih => intro hs; exact ih (fun c hc => h c (by simp [hc])) hs
  intro s hs
  exact ⟨fun rest s' hr => key rest s s' hr hs, fun s' hr => key [] s s' hr hs⟩

theorem Triple.imp {J : σ → Prop} (h : Triple I P cs Q) (hi : ∀ s, I s → J s) :
    Triple J P cs Q := by
  intro s hs
  exact ⟨fun rest s' hr => hi s' ((h s hs).1 rest s' hr), (h s hs).2⟩

end Rules

end Calls
