import Mathlib.Data.List.TakeWhile
import IrdaUtils.Spec.Devlist

/-! `gfindchip.c`: the labels that it makes from the first line that `findchip` prints. The
array `button` has sixteen elements, of which the even ones hold the names of the fields. -/

namespace Gfindchip

open Irattach

/-- The length of `button`. -/
def buttons : ℕ := 16

/-- A label in the column `x + 1` and the row `y` of the table, stored as `button[n]`. -/
structure ResultLabel where
  x : ℕ
  y : ℕ
  n : ℕ
  label : List UInt8
  deriving DecidableEq, Repr

def makeResultLabel (i : ℕ) (label : List UInt8) : ResultLabel := ⟨2 * (i % 3), i / 3, i * 2 + 1, label⟩

/-- The label of a text, which must not be empty. -/
def labelOf (i : ℕ) (text : List UInt8) : List ResultLabel :=
  if text ≠ [] then [makeResultLabel i text] else []

/-- The loop from `p1` on, and the text behind the last comma: the labels, and `i` at the end. -/
def splitLoop (i : ℕ) (p1 : List UInt8) : List ResultLabel × ℕ :=
  if 0x2c ∈ p1 then
    let r := splitLoop (i + 1) (p1.dropWhile (· ≠ 0x2c)).tail
    (labelOf i (p1.takeWhile (· ≠ 0x2c)) ++ r.1, r.2)
  else (labelOf i p1, i)
termination_by p1.length
decreasing_by
  rename_i h
  have hne : p1.dropWhile (· ≠ 0x2c) ≠ [] := by
    intro h0
    simpa using List.dropWhile_eq_nil_iff.1 h0 _ h
  have hpos := List.length_pos_iff.2 hne
  have hle := List.length_dropWhile_le (· ≠ 0x2c) p1
  rw [List.length_tail]
  omega

/-- What is done with the output of `findchip`: the labels, and whether it is said that no chip
was found. Without the end of a line in `buf`, a zero is written through a null pointer. -/
def showResult (out : List UInt8) : Option (List ResultLabel × Bool) :=
  if out = [] then some ([], true)
  else
    let buf := cstr (readLine 127 out).1
    if 0x0a ∉ buf then none
    else
      let r := splitLoop 0 (buf.takeWhile (· ≠ 0x0a))
      some (r.1, r.2 == 0)

end Gfindchip
