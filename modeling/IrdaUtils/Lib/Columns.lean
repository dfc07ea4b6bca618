import Mathlib.Tactic

/-! Texts of lines, each with its end behind it, and lines of columns with a separator between
them. -/

namespace Columns

variable {α : Type*} [DecidableEq α] {nl sep : α}

/-- The lines of a text. What stands behind the last end is not one. -/
def lines (nl : α) (s : List α) : List (List α) := (s.splitOn nl).dropLast

theorem lines_cons {r : List α} (h : nl ∉ r) (s : List α) :
    lines nl (r ++ nl :: s) = r :: lines nl s := by
  rw [lines, List.splitOn_append_cons_self_of_not_mem h,
    List.dropLast_cons_of_ne_nil (List.splitOn_ne_nil nl s)]
  rfl

theorem lines_rows {rows : List (List α)} (h : ∀ r ∈ rows, nl ∉ r) :
    lines nl (rows.flatMap (· ++ [nl])) = rows := by
  induction rows with
  | nil => rfl
  | cons r rows ih =>
    rw [List.flatMap_cons, List.append_assoc, List.singleton_append, lines_cons (h r (by simp)),
      ih fun r' h' => h r' (by simp [h'])]

theorem length_splitOn (nl : α) (s : List α) : (s.splitOn nl).length = s.count nl + 1 := by
  induction s with
  | nil => rfl
  | cons a s ih =>
    rw [List.splitOn_cons_eq_if_modifyHead, List.count_cons]
    split_ifs
    · rw [List.length_cons, ih]
    · rw [List.length_modifyHead, ih, Nat.add_zero]

theorem length_lines (nl : α) (s : List α) : (lines nl s).length = s.count nl := by
  rw [lines, List.length_dropLast, length_splitOn, Nat.add_sub_cancel]

/-! ### Columns -/

/-- The line cut at the first `n` separators. -/
def cut (sep : α) : ℕ → List α → List (List α)
  | 0, s => [s]
  | n + 1, s => s.takeWhile (· ≠ sep) :: cut sep n (s.dropWhile (· ≠ sep)).tail

theorem cut_cons {w : List α} (h : sep ∉ w) (n : ℕ) (s : List α) :
    cut sep (n + 1) (w ++ sep :: s) = w :: cut sep n s := by
  have hw : ∀ a ∈ w, decide (a ≠ sep) = true := fun a ha =>
    decide_eq_true fun e => h (e ▸ ha)
  rw [cut, List.takeWhile_append_of_pos hw, List.dropWhile_append_of_pos hw,
    List.takeWhile_cons_of_neg (by simp), List.dropWhile_cons_of_neg (by simp), List.append_nil,
    List.tail_cons]

end Columns
