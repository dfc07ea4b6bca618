import Mathlib.Data.List.Basic
import Mathlib.Tactic

/-! Words of which none starts another one. A list splits into such words in one way only,
up to a rest that no word starts. -/

namespace PrefixCode

variable {α κ : Type}

/-- No word is empty, and none starts another one. -/
structure PrefixFree (W : List α → Prop) : Prop where
  ne_nil : ∀ w, W w → w ≠ []
  eq_of_starts : ∀ w w', W w → W w' → w <+: w' → w = w'

/-- `l` is words, and a rest that starts with no word. -/
structure Splits (W : List α → Prop) (l : List α) (ws : List (List α)) (rest : List α) : Prop where
  append : l = ws.flatten ++ rest
  words : ∀ w ∈ ws, W w
  stop : ∀ w, W w → ¬ w <+: rest

section Splits

variable {W : List α → Prop} {l : List α} {ws : List (List α)} {w rest : List α}

theorem Splits.tail (h : Splits W l (w :: ws) rest) : Splits W (l.drop w.length) ws rest := by
  refine ⟨?_, fun w' hw' => h.words w' (List.mem_cons_of_mem _ hw'), h.stop⟩
  rw [h.append, List.flatten_cons, List.append_assoc, List.drop_left]

theorem Splits.head_starts (h : Splits W l (w :: ws) rest) : w <+: l := by
  rw [h.append, List.flatten_cons, List.append_assoc]
  exact List.prefix_append _ _

theorem exists_splits (hW : PrefixFree W) (l : List α) : ∃ ws rest, Splits W l ws rest := by
  induction hn : l.length using Nat.strong_induction_on generalizing l with
  | _ n ih =>
    by_cases h : ∃ w, W w ∧ w <+: l
    · obtain ⟨w, hw, l', rfl⟩ := h
      have hpos : 0 < w.length := List.length_pos_of_ne_nil (hW.ne_nil w hw)
      rw [List.length_append] at hn
      obtain ⟨ws, rest, hs⟩ := ih l'.length (by omega) l' rfl
      refine ⟨w :: ws, rest, ?_, ?_, hs.stop⟩
      · rw [List.flatten_cons, List.append_assoc, ← hs.append]
      · intro w' hw'
        rcases List.mem_cons.1 hw' with rfl | hw'
        · exact hw
        · exact hs.words w' hw'
    · refine ⟨[], l, rfl, by simp, ?_⟩
      intro w hw hp
      exact h ⟨w, hw, hp⟩

/-- There is no longer split: words in front of `l` are the first ones of `ws`. -/
theorem Splits.longest (hW : PrefixFree W) (h : Splits W l ws rest) {ws' : List (List α)}
    (hws : ∀ w ∈ ws', W w) (hp : ws'.flatten <+: l) : ws' <+: ws := by
  induction ws' generalizing l ws with
  | nil => exact List.nil_prefix
  | cons v vs ih =>
    have hv : W v := hws v (by simp)
    have hvl : v <+: l := (List.prefix_append _ _).trans hp
    cases ws with
    | nil =>
      rw [h.append, List.flatten_nil, List.nil_append] at hvl
      exact absurd hvl (h.stop v hv)
    | cons w ws =>
      have hw : W w := h.words w (by simp)
      obtain rfl : v = w := by
        rcases List.prefix_or_prefix_of_prefix hvl h.head_starts with e | e
        · exact hW.eq_of_starts v w hv hw e
        · exact (hW.eq_of_starts w v hw hv e).symm
      refine (List.prefix_cons_inj v).2 (ih h.tail (fun w' hw' => hws w' (by simp [hw'])) ?_)
      obtain ⟨t, rfl⟩ := hp
      rw [List.flatten_cons, List.append_assoc, List.drop_left]
      exact List.prefix_append _ _

/-- Nothing is left exactly when the whole of `l` is words. -/
theorem Splits.rest_eq_nil_iff (hW : PrefixFree W) (h : Splits W l ws rest) :
    rest = [] ↔ ∃ ws' : List (List α), (∀ w ∈ ws', W w) ∧ l = ws'.flatten := by
  constructor
  · rintro rfl
    exact ⟨ws, h.words, by simpa using h.append⟩
  · rintro ⟨ws', hws, hl⟩
    obtain ⟨vs, rfl⟩ := h.longest hW hws (by rw [hl])
    have e := h.append
    rw [hl, List.flatten_append, List.append_assoc] at e
    have hnil := List.self_eq_append_right.1 e
    exact (List.append_eq_nil_iff.1 hnil).2

end Splits

/-- Two ways to write the keys, such that no two words for one key start each other unless
they are the same: the texts agree only if they agree word by word. -/
theorem flatMap_eq_iff {f g : κ → List α} {ks : List κ}
    (h : ∀ k ∈ ks, f k <+: g k ∨ g k <+: f k → f k = g k) :
    ks.flatMap f = ks.flatMap g ↔ ∀ k ∈ ks, f k = g k := by
  constructor
  · intro e
    induction ks with
    | nil => simp
    | cons k ks ih =>
      rw [List.flatMap_cons, List.flatMap_cons] at e
      have hf : f k <+: g k ++ ks.flatMap g := ⟨_, e⟩
      have hor := List.prefix_or_prefix_of_prefix hf (List.prefix_append (g k) (ks.flatMap g))
      have hk : f k = g k := h k (by simp) hor
      rw [hk] at e
      intro k' hk'
      rcases List.mem_cons.1 hk' with rfl | hk'
      · exact hk
      · exact ih (fun k hk => h k (by simp [hk])) (List.append_cancel_left e) k' hk'
  · intro e
    exact List.flatMap_congr e

theorem takeWhile_terminated [DecidableEq α] {t : α} {a : List α} (ha : t ∉ a) (c : List α) :
    (a ++ t :: c).takeWhile (· ≠ t) = a := by
  have hne : ∀ x ∈ a, decide (x ≠ t) = true := by
    intro x hx
    simpa using ne_of_mem_of_not_mem hx ha
  rw [List.takeWhile_append_of_pos hne, List.takeWhile_cons_of_neg (by simp), List.append_nil]

/-- A word that is ended by the first `t` in it is started by no other word of that form. -/
theorem terminated_eq [DecidableEq α] {t : α} {a b c d : List α} (ha : t ∉ a) (hb : t ∉ b)
    (h : a ++ t :: c <+: b ++ t :: d ∨ b ++ t :: d <+: a ++ t :: c) : a = b := by
  rcases h with ⟨x, hx⟩ | ⟨x, hx⟩
  · have e := congrArg (List.takeWhile (· ≠ t)) hx
    rw [List.append_assoc, List.cons_append, takeWhile_terminated ha, takeWhile_terminated hb] at e
    exact e
  · have e := congrArg (List.takeWhile (· ≠ t)) hx
    rw [List.append_assoc, List.cons_append, takeWhile_terminated ha, takeWhile_terminated hb] at e
    exact e.symm

end PrefixCode
