import Mathlib.Tactic

/-! Integers as bytes in memory, least significant byte first or last according to
the byte order of the host, and the conversion between host and network order. -/

namespace ByteOrder

inductive Order where
  | little
  | big
  deriving DecidableEq, Repr

/-- The `k` low bytes of `n`, least significant first. -/
def leBytes : ℕ → ℕ → List UInt8
  | 0, _ => []
  | k + 1, n => UInt8.ofNat n :: leBytes k (n / 256)

def ofLeBytes : List UInt8 → ℕ
  | [] => 0
  | b :: bs => b.toNat + 256 * ofLeBytes bs

@[simp] theorem leBytes_length (k n : ℕ) : (leBytes k n).length = k := by
  induction k generalizing n with
  | zero => rfl
  | succ k ih => simp only [leBytes, List.length_cons, ih]

theorem ofLeBytes_leBytes (k n : ℕ) : ofLeBytes (leBytes k n) = n % 256 ^ k := by
  induction k generalizing n with
  | zero => simp [leBytes, ofLeBytes, Nat.mod_one]
  | succ k ih =>
    simp only [leBytes, ofLeBytes, ih, UInt8.toNat_ofNat']
    rw [pow_succ 256 k, Nat.mul_comm (256 ^ k), Nat.mod_mul]

/-- How the host stores an integer of `k` bytes. -/
def bytesOf : Order → ℕ → ℕ → List UInt8
  | .little, k, n => leBytes k n
  | .big, k, n => (leBytes k n).reverse

def ofBytes : Order → List UInt8 → ℕ
  | .little, bs => ofLeBytes bs
  | .big, bs => ofLeBytes bs.reverse

@[simp] theorem bytesOf_length (o : Order) (k n : ℕ) : (bytesOf o k n).length = k := by
  cases o <;> simp [bytesOf]

theorem ofBytes_bytesOf (o : Order) (k n : ℕ) : ofBytes o (bytesOf o k n) = n % 256 ^ k := by
  cases o <;> simp [ofBytes, bytesOf, ofLeBytes_leBytes]

theorem ofBytes_bytesOf_of_lt {o : Order} {k n : ℕ} (h : n < 256 ^ k) :
    ofBytes o (bytesOf o k n) = n := by
  rw [ofBytes_bytesOf, Nat.mod_eq_of_lt h]

def swap16 (x : UInt16) : UInt16 := x <<< 8 ||| x >>> 8

/-- `htons`: host to network order. -/
def htons : Order → UInt16 → UInt16
  | .little, x => swap16 x
  | .big, x => x

/-- `ntohs` is the same exchange of bytes, or none, as `htons`. -/
def ntohs : Order → UInt16 → UInt16 := htons

end ByteOrder
