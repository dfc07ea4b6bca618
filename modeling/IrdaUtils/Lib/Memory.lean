import Mathlib.Data.List.Basic
import Mathlib.Data.List.GetD
import Mathlib.Tactic

/-! Byte memories addressed by natural numbers. `load` reads a block and `store`
overwrites one; a copy is a `store` of a `load`, which is also right for blocks
that overlap, since the whole source is read first. -/

namespace Memory

abbrev Mem := ℕ → UInt8

/-- The `n` bytes that start at address `a`. -/
def load (m : Mem) (a n : ℕ) : List UInt8 := (List.range n).map fun i => m (a + i)

/-- The memory with `bs` written from address `a` on. -/
def store (m : Mem) (a : ℕ) (bs : List UInt8) : Mem :=
  fun x => if a ≤ x ∧ x < a + bs.length then bs.getD (x - a) 0 else m x

@[simp] theorem load_length (m : Mem) (a n : ℕ) : (load m a n).length = n := by
  simp [load]

@[simp] theorem load_zero (m : Mem) (a : ℕ) : load m a 0 = [] := rfl

theorem load_getElem (m : Mem) (a n i : ℕ) (h : i < (load m a n).length) :
    (load m a n)[i] = m (a + i) := by
  simp [load]

theorem load_add (m : Mem) (a n k : ℕ) : load m a (n + k) = load m a n ++ load m (a + n) k := by
  simp [load, List.range_add, Function.comp_def, Nat.add_assoc]

theorem load_congr {m m' : Mem} {a a' n : ℕ} (h : ∀ i < n, m (a + i) = m' (a' + i)) :
    load m a n = load m' a' n := by
  apply List.map_congr_left
  intro i hi
  exact h i (List.mem_range.1 hi)

theorem load_drop (m : Mem) (a n k : ℕ) : (load m a n).drop k = load m (a + k) (n - k) := by
  apply List.ext_getElem
  · simp
  · intro i h1 h2
    simp only [List.getElem_drop, load_getElem, Nat.add_assoc]

theorem load_take (m : Mem) (a n k : ℕ) (h : k ≤ n) : (load m a n).take k = load m a k := by
  apply List.ext_getElem
  · simp [h]
  · intro i h1 h2
    simp only [List.getElem_take, load_getElem]

theorem store_inside {m : Mem} {a : ℕ} {bs : List UInt8} {i : ℕ} (h : i < bs.length) :
    store m a bs (a + i) = bs[i] := by
  simp [store, h]

theorem store_outside {m : Mem} {a : ℕ} {bs : List UInt8} {x : ℕ}
    (h : x < a ∨ a + bs.length ≤ x) : store m a bs x = m x := by
  rw [store, if_neg (by omega)]

@[simp] theorem load_store (m : Mem) (a : ℕ) (bs : List UInt8) :
    load (store m a bs) a bs.length = bs := by
  apply List.ext_getElem
  · simp
  · intro i h1 h2
    rw [load_getElem, store_inside h2]

/-- A part of the stored block. -/
theorem load_store_slice (m : Mem) (a : ℕ) (bs : List UInt8) {i n : ℕ} (h : i + n ≤ bs.length) :
    load (store m a bs) (a + i) n = (bs.drop i).take n := by
  conv_rhs => rw [← load_store m a bs, load_drop]
  rw [load_take _ _ _ _ (by omega)]

/-- A block that does not meet the stored one is read as before. -/
theorem load_store_disjoint {m : Mem} {a b n : ℕ} {bs : List UInt8}
    (h : b + n ≤ a ∨ a + bs.length ≤ b) : load (store m a bs) b n = load m b n :=
  load_congr fun i hi => store_outside (by omega)

end Memory
