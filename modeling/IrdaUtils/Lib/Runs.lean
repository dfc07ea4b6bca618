import Mathlib.Tactic

/-! Runs of a deterministic machine: a state type `σ`, a type `ι` of inputs and a
total step function. `Along` says that every step of a run meets a condition on
the state before it and its input. The rules below derive what holds at every
step, or after the run, from what one step preserves. -/

namespace Runs

variable {σ τ ι κ : Type*}

def Along (step : σ → ι → σ) (ok : σ → ι → Prop) : σ → List ι → Prop
  | _, [] => True
  | s, i :: is => ok s i ∧ Along step ok (step s i) is

instance decidableAlong {step : σ → ι → σ} {ok : σ → ι → Prop} [∀ s i, Decidable (ok s i)] :
    ∀ s is, Decidable (Along step ok s is)
  | _, [] => .isTrue trivial
  | s, i :: is => @instDecidableAnd _ _ (inferInstance : Decidable (ok s i))
      (decidableAlong (step s i) is)

theorem Along.split {step : σ → ι → σ} {ok : σ → ι → Prop} {i : ι} {post : List ι} :
    ∀ {pre : List ι} {s : σ}, Along step ok s (pre ++ i :: post) →
      Along step ok s pre ∧ ok (pre.foldl step s) i := by
  intro pre
  induction pre with
  | nil => intro s h; exact ⟨trivial, h.1⟩
  | cons j pre ih =>
    intro s h
    obtain ⟨h1, h2⟩ := ih h.2
    exact ⟨⟨h.1, h1⟩, h2⟩

theorem Along.imp {step : σ → ι → σ} {ok ok' : σ → ι → Prop} :
    ∀ {is : List ι} {s : σ}, (∀ s, ∀ i ∈ is, ok s i → ok' s i) →
      Along step ok s is → Along step ok' s is := by
  intro is
  induction is with
  | nil => intro s _ _; trivial
  | cons i is ih =>
    intro s himp h
    exact ⟨himp s i (by simp) h.1, ih (fun s j hj => himp s j (by simp [hj])) h.2⟩

theorem Along.and {step : σ → ι → σ} {ok ok' : σ → ι → Prop} :
    ∀ {is : List ι} {s : σ}, Along step ok s is → Along step ok' s is →
      Along step (fun s i => ok s i ∧ ok' s i) s is := by
  intro is
  induction is with
  | nil => intro s _ _; trivial
  | cons i is ih =>
    intro s h h'
    exact ⟨⟨h.1, h'.1⟩, ih h.2 h'.2⟩

/-- Two conditions that agree in the states with an invariant, which the steps that meet
them keep. -/
theorem along_congr {step : σ → ι → σ} {ok ok' : σ → ι → Prop} (inv : σ → Prop) :
    ∀ {is : List ι} {s : σ}, (∀ s, ∀ i ∈ is, inv s → (ok s i ↔ ok' s i)) →
      (∀ s, ∀ i ∈ is, inv s → ok' s i → inv (step s i)) → inv s →
      (Along step ok s is ↔ Along step ok' s is) := by
  intro is
  induction is with
  | nil => intro s _ _ _; exact Iff.rfl
  | cons i is ih =>
    intro s hiff hinv hs
    have hrest : ok' s i → (Along step ok (step s i) is ↔ Along step ok' (step s i) is) := by
      intro hok
      exact ih (fun s j hj => hiff s j (by simp [hj])) (fun s j hj => hinv s j (by simp [hj]))
        (hinv s i (by simp) hs hok)
    exact (and_congr_left' (hiff s i (by simp) hs)).trans (and_congr_right hrest)

theorem along_append {step : σ → ι → σ} {ok : σ → ι → Prop} (is js : List ι) :
    ∀ s, Along step ok s (is ++ js) ↔ Along step ok s is ∧ Along step ok (is.foldl step s) js := by
  induction is with
  | nil => intro s; simp [Along]
  | cons i is ih => intro s; exact (and_congr_right fun _ => ih _).trans and_assoc.symm

theorem Along.imp_inv {step : σ → ι → σ} {ok ok' : σ → ι → Prop} (inv : σ → Prop)
    (himp : ∀ s i, inv s → ok s i → ok' s i) (hinv : ∀ s i, inv s → ok s i → inv (step s i)) :
    ∀ {is : List ι} {s : σ}, Along step ok s is → inv s → Along step ok' s is := by
  intro is
  induction is with
  | nil => intro s _ _; trivial
  | cons i is ih =>
    intro s h hs
    exact ⟨himp s i hs h.1, ih h.2 (hinv s i hs h.1)⟩

theorem along_image {step : σ → ι → σ} {step' : τ → ι → τ} (ok : τ → ι → Prop) (φ : σ → τ)
    (hφ : ∀ s i, φ (step s i) = step' (φ s) i) :
    ∀ (is : List ι) (s : σ),
      Along step (fun s i => ok (φ s) i) s is ↔ Along step' ok (φ s) is := by
  intro is
  induction is with
  | nil => intro s; exact Iff.rfl
  | cons i is ih =>
    intro s
    exact and_congr Iff.rfl (by rw [ih, hφ])

/-- The simulation rule: a relation that every allowed step keeps relates the ends
of the two runs. -/
theorem simulation {step : σ → ι → σ} {step' : τ → ι → τ} {ok : σ → ι → Prop}
    (R : σ → τ → Prop) (hstep : ∀ s t i, R s t → ok s i → R (step s i) (step' t i)) :
    ∀ (is : List ι) (s : σ) (t : τ), R s t → Along step ok s is →
      R (is.foldl step s) (is.foldl step' t) := by
  intro is
  induction is with
  | nil => intro s t h _; exact h
  | cons i is ih =>
    intro s t h hok
    exact ih _ _ (hstep s t i h hok.1) hok.2

theorem Along.inv {step : σ → ι → σ} {ok : σ → ι → Prop} (inv : σ → Prop)
    (hstep : ∀ s i, inv s → ok s i → inv (step s i)) :
    ∀ {is : List ι} {s : σ}, Along step ok s is → inv s → inv (is.foldl step s) := by
  intro is
  induction is with
  | nil => intro s _ hs; exact hs
  | cons i is ih =>
    intro s h hs
    exact ih h.2 (hstep s i hs h.1)

/-- Where a step from a good state reaches a good one exactly when it meets `ok`, all states
of a run are good exactly when all its steps meet `ok`. -/
theorem along_iff_always {step : σ → ι → σ} {allowed ok : σ → ι → Prop} {inv good : σ → Prop}
    (hinv : ∀ s i, inv s → allowed s i → inv (step s i))
    (h : ∀ s i, inv s → good s → allowed s i → (ok s i ↔ good (step s i))) :
    ∀ (is : List ι) (s : σ), inv s → good s → Along step allowed s is →
      ((∀ pre, pre <+: is → good (pre.foldl step s)) ↔ Along step ok s is) := by
  intro is
  induction is with
  | nil =>
    intro s _ hs _
    refine ⟨fun _ => trivial, fun _ pre hpre => ?_⟩
    rw [List.prefix_nil.1 hpre]
    exact hs
  | cons i is ih =>
    intro s hi hs hal
    have hi' := hinv s i hi hal.1
    constructor
    · intro hall
      have h1 : good (step s i) := hall [i] (by simp)
      refine ⟨(h s i hi hs hal.1).2 h1, (ih (step s i) hi' h1 hal.2).1 ?_⟩
      intro pre hpre
      exact hall (i :: pre) (List.cons_prefix_cons.2 ⟨rfl, hpre⟩)
    · rintro ⟨hok, hrest⟩ pre hpre
      have h1 : good (step s i) := (h s i hi hs hal.1).1 hok
      cases pre with
      | nil => exact hs
      | cons j pre =>
        obtain ⟨rfl, htail⟩ := List.cons_prefix_cons.1 hpre
        exact (ih _ hi' h1 hal.2).2 hrest pre htail

theorem along_trivial (step : σ → ι → σ) :
    ∀ (is : List ι) (s : σ), Along step (fun _ _ => True) s is := by
  intro is
  induction is with
  | nil => intro _; trivial
  | cons i is ih => intro s; exact ⟨trivial, ih _⟩

theorem along_iff_always_good {step : σ → ι → σ} {ok : σ → ι → Prop} {good : σ → Prop}
    (h : ∀ s i, good s → (ok s i ↔ good (step s i))) (is : List ι) (s : σ) (hs : good s) :
    (∀ pre, pre <+: is → good (pre.foldl step s)) ↔ Along step ok s is := by
  have hinv : ∀ s i, True → True → True := fun (_ : σ) (_ : ι) _ _ => trivial
  have hstep : ∀ s i, True → good s → True → (ok s i ↔ good (step s i)) := fun s i _ hs _ => h s i hs
  exact along_iff_always hinv hstep is s trivial hs (along_trivial step is s)

/-! ### Inputs that do not matter -/

/-- A part of the state that only the inputs of one kind change, and from itself alone, is the
same behind the run of these inputs. -/
theorem foldl_filter {α : Type*} {step : σ → ι → σ} (get : σ → α) (own : ι → Bool)
    (hother : ∀ s i, own i = false → get (step s i) = get s)
    (hown : ∀ s t i, own i = true → get s = get t → get (step s i) = get (step t i)) :
    ∀ (is : List ι) (s t : σ), get s = get t →
      get (is.foldl step s) = get ((is.filter own).foldl step t) := by
  intro is
  induction is with
  | nil => intro s t h; exact h
  | cons i is ih =>
    intro s t h
    cases hi : own i with
    | true =>
      rw [List.filter_cons_of_pos hi, List.foldl_cons, List.foldl_cons]
      exact ih _ _ (hown s t i hi h)
    | false =>
      rw [List.filter_cons_of_neg (by simp [hi]), List.foldl_cons]
      exact ih _ _ ((hother s i hi).trans h)

/-! ### Step relations -/

theorem reachable_inv {r : σ → σ → Prop} (inv : σ → Prop) (hstep : ∀ s s', inv s → r s s' → inv s')
    {s s' : σ} (hs : inv s) (h : Relation.ReflTransGen r s s') : inv s' := by
  induction h with
  | refl => exact hs
  | tail _ hr ih => exact hstep _ _ ih hr

theorem chain_length_le {r : σ → σ → Prop} (μ : σ → ℕ) (hμ : ∀ s s', r s s' → μ s' < μ s)
    (ss : List σ) : ∀ s, List.IsChain r (s :: ss) → ss.length ≤ μ s := by
  induction ss with
  | nil => intro s _; exact Nat.zero_le _
  | cons s1 ss ih =>
    intro s hc
    rw [List.isChain_cons_cons] at hc
    have h1 := hμ s s1 hc.1
    have h2 := ih s1 hc.2
    rw [List.length_cons]
    omega

end Runs
