import IrdaUtils.Lib.Memory

/-! Arrays that are written byte by byte. A log has the writes in their order, so that one
can ask at which indices an array was written as well as what it holds afterwards. -/

namespace Stores
open Memory

/-- The index and the byte of each write. -/
abbrev Log := List (ℕ × UInt8)

def play (m : Mem) (log : Log) : Mem := log.foldl (fun m w => Function.update m w.1 w.2) m

/-- Every write is in an array of `n` elements. -/
def Fits (n : ℕ) (log : Log) : Prop := ∀ w ∈ log, w.1 < n

def copyTo : ℕ → List UInt8 → Log
  | _, [] => []
  | a, b :: bs => (a, b) :: copyTo (a + 1) bs

/-- A copy of `bs` to the start of the array, and a zero byte behind it. -/
def text (bs : List UInt8) : Log := copyTo 0 bs ++ [(bs.length, 0)]

/-- The same from the element `a` on. -/
def textAt (a : ℕ) (bs : List UInt8) : Log := copyTo a bs ++ [(a + bs.length, 0)]

theorem mem_copyTo {w : ℕ × UInt8} (bs : List UInt8) :
    ∀ {a : ℕ}, w ∈ copyTo a bs → a ≤ w.1 ∧ w.1 < a + bs.length := by
  induction bs with
  | nil => intro a h; cases h
  | cons b bs ih =>
    intro a h
    rw [List.length_cons]
    rcases List.mem_cons.1 h with rfl | h
    · simp only
      omega
    · have := ih h
      omega

theorem mem_textAt {w : ℕ × UInt8} {a : ℕ} {bs : List UInt8} (h : w ∈ textAt a bs) :
    a ≤ w.1 ∧ w.1 ≤ a + bs.length := by
  rcases List.mem_append.1 h with h | h
  · have := mem_copyTo bs h
    omega
  · rw [List.mem_singleton.1 h]
    simp

theorem fits_append {n : ℕ} {l l' : Log} : Fits n (l ++ l') ↔ Fits n l ∧ Fits n l' :=
  List.forall_mem_append

theorem fits_cons {n : ℕ} {w : ℕ × UInt8} {l : Log} : Fits n (w :: l) ↔ w.1 < n ∧ Fits n l :=
  List.forall_mem_cons

theorem fits_nil (n : ℕ) : Fits n [] := fun _ h => by cases h

theorem fits_copyTo {n : ℕ} (bs : List UInt8) {a : ℕ} (h : a + bs.length ≤ n) :
    Fits n (copyTo a bs) := by
  intro w hw
  have := mem_copyTo bs hw
  omega

/-- A text fits when there is room for the byte that ends it. -/
theorem fits_text {n : ℕ} {bs : List UInt8} : Fits n (text bs) ↔ bs.length < n := by
  unfold text
  rw [fits_append, fits_cons]
  constructor
  · intro h
    exact h.2.1
  · intro h
    exact ⟨fits_copyTo bs (by omega), h, fits_nil n⟩

theorem play_append (m : Mem) (l l' : Log) : play m (l ++ l') = play (play m l) l' :=
  List.foldl_append

theorem play_copyTo (bs : List UInt8) : ∀ (m : Mem) (a : ℕ), play m (copyTo a bs) = store m a bs := by
  induction bs with
  | nil =>
    intro m a
    funext x
    rw [store_outside (by simp only [List.length_nil]; omega)]
    rfl
  | cons b bs ih =>
    intro m a
    have hstep : play m (copyTo a (b :: bs)) = store (Function.update m a b) (a + 1) bs := by
      rw [← ih]
      rfl
    funext x
    rw [hstep]
    rcases Nat.lt_trichotomy x a with h | rfl | h
    · rw [store_outside (by omega), store_outside (by omega), Function.update_of_ne (by omega)]
    · rw [store_outside (by omega), Function.update_self]
      have h0 : 0 < (b :: bs).length := Nat.succ_pos _
      exact (store_inside h0).symm
    · by_cases hx : x < a + (bs.length + 1)
      · obtain ⟨i, rfl⟩ := Nat.exists_eq_add_of_lt h
        have hi : i + 1 < (b :: bs).length := by
          rw [List.length_cons]
          omega
        rw [show a + i + 1 = (a + 1) + i by omega, store_inside (by omega),
          show (a + 1) + i = a + (i + 1) by omega, store_inside hi, List.getElem_cons_succ]
      · have hout : x < a ∨ a + (b :: bs).length ≤ x := by
          rw [List.length_cons]
          omega
        rw [store_outside (by omega), store_outside hout, Function.update_of_ne (by omega)]

theorem play_outside {x : ℕ} (log : Log) : ∀ {m : Mem}, (∀ w ∈ log, w.1 ≠ x) → play m log x = m x := by
  induction log with
  | nil => intro m _; rfl
  | cons w log ih =>
    intro m h
    have hw : w.1 ≠ x := h w (by simp)
    have hrest := ih (m := Function.update m w.1 w.2) fun v hv => h v (by simp [hv])
    rw [Function.update_of_ne hw.symm] at hrest
    exact hrest

/-- The array holds the text from `a` on, whatever it held before. -/
theorem load_textAt (m : Mem) (a : ℕ) (bs : List UInt8) :
    load (play m (textAt a bs)) a (bs.length + 1) = bs ++ [0] := by
  have hplay : play m (textAt a bs) = Function.update (store m a bs) (a + bs.length) 0 := by
    rw [textAt, play_append, play_copyTo]
    rfl
  rw [hplay, load_add]
  congr 1
  · refine Eq.trans (load_congr fun i hi => ?_) (load_store m a bs)
    rw [Function.update_of_ne (by omega)]
  · simp [load]

theorem load_text (m : Mem) (bs : List UInt8) :
    load (play m (text bs)) 0 (bs.length + 1) = bs ++ [0] := by
  have h := load_textAt m 0 bs
  rwa [textAt, Nat.zero_add] at h

end Stores
