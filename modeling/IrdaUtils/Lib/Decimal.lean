import Mathlib.Tactic

/-! Numbers in texts of bytes, as C prints and scans them: `%d`, `%u`, `%lu` and `%x` of
`printf`, `%u` and `%d` of `scanf` with a `long` of 64 bits, and `strtol`. -/

namespace Decimal

/-- The bytes of a text of ASCII characters. -/
def ascii (s : String) : List UInt8 := s.toList.map fun c => UInt8.ofNat c.toNat

def print (n : ℕ) : List UInt8 := (Nat.toDigits 10 n).map fun c => UInt8.ofNat c.toNat

def printInt (z : ℤ) : List UInt8 := if z < 0 then 0x2d :: print z.natAbs else print z.natAbs

/-- `%x` with at least `w` digits. -/
def printHex (w n : ℕ) : List UInt8 :=
  let ds := (Nat.toDigits 16 n).map fun c => UInt8.ofNat c.toNat
  List.replicate (w - ds.length) 0x30 ++ ds

def isDigit (b : UInt8) : Bool := 0x30 ≤ b && b ≤ 0x39

/-- Space, tab, line feed, vertical tab, form feed and carriage return. -/
def isSpace (b : UInt8) : Bool := b == 0x20 || (0x09 ≤ b && b ≤ 0x0d)

def skipSpace (s : List UInt8) : List UInt8 := s.dropWhile isSpace

def value (ds : List UInt8) : ℕ := ds.foldl (fun n d => 10 * n + (d.toNat - 0x30)) 0

/-- White space, a sign and at least one digit: the sign, the number and what follows it. -/
def scanNumber (s : List UInt8) : Option (Bool × ℕ × List UInt8) :=
  let s := skipSpace s
  let neg := s.head? == some 0x2d
  let s := if neg || s.head? == some 0x2b then s.tail else s
  let ds := s.takeWhile isDigit
  if ds = [] then none else some (neg, value ds, s.dropWhile isDigit)

/-- `%u`: what `strtoul` returns, cut to 32 bits. -/
def scanUnsigned (s : List UInt8) : Option (BitVec 32 × List UInt8) :=
  (scanNumber s).map fun (neg, n, rest) =>
    let v : BitVec 64 := if 2 ^ 64 ≤ n then -1 else if neg then -BitVec.ofNat 64 n else BitVec.ofNat 64 n
    (v.setWidth 32, rest)

/-- `%d`: what `strtol` returns, cut to 32 bits. -/
def scanInt (s : List UInt8) : Option (BitVec 32 × List UInt8) :=
  (scanNumber s).map fun (neg, n, rest) =>
    let z : ℤ := if neg then max (-2 ^ 63) (-n) else min (2 ^ 63 - 1) n
    (BitVec.ofInt 32 z, rest)

/-- `strtol` with the base 10 and a `long` of `w` bits; a text without a number is 0. -/
def strtol (w : ℕ) (s : List UInt8) : ℤ :=
  match scanNumber s with
  | some (true, n, _) => max (-2 ^ (w - 1)) (-n)
  | some (false, n, _) => min (2 ^ (w - 1) - 1) n
  | none => 0

/-- `atoi`, with a `long` of 64 bits. -/
def atoi (s : List UInt8) : BitVec 32 := BitVec.ofInt 32 (strtol 64 s)

/-! ### Reading back -/

theorem byte_digit {c : Char} (h : c.isDigit = true) :
    isDigit (UInt8.ofNat c.toNat) = true ∧ (UInt8.ofNat c.toNat).toNat = c.toNat := by
  have hc : 48 ≤ c.toNat ∧ c.toNat ≤ 57 := by
    simpa [Char.isDigit, UInt32.le_iff_toNat_le] using h
  have hb : (UInt8.ofNat c.toNat).toNat = c.toNat := by
    rw [UInt8.toNat_ofNat', Nat.mod_eq_of_lt (by omega)]
  refine ⟨?_, hb⟩
  simp only [isDigit, Bool.and_eq_true, decide_eq_true_eq, UInt8.le_iff_toNat_le, hb]
  exact hc

theorem print_digits (n : ℕ) : ∀ b ∈ print n, isDigit b = true := by
  intro b hb
  obtain ⟨c, hc, rfl⟩ := List.mem_map.1 hb
  exact (byte_digit (Nat.isDigit_of_mem_toDigits (by decide) (by decide) hc)).1

theorem mem_toDigits {b n : ℕ} (hb : 1 < b) {c : Char} (h : c ∈ Nat.toDigits b n) :
    ∃ d < b, c = Nat.digitChar d := by
  induction n using Nat.strong_induction_on with
  | _ n ih =>
    rw [Nat.toDigits_eq_if hb] at h
    split_ifs at h with hn
    · exact ⟨n, hn, List.mem_singleton.1 h⟩
    · rcases List.mem_append.1 h with h | h
      · exact ih (n / b) (Nat.div_lt_self (by omega) hb) h
      · exact ⟨n % b, Nat.mod_lt n (by omega), List.mem_singleton.1 h⟩

def isHexDigit (b : UInt8) : Bool := isDigit b || (0x61 ≤ b && b ≤ 0x66)

theorem printHex_digits (w n : ℕ) : ∀ b ∈ printHex w n, isHexDigit b = true := by
  have hchar : ∀ d < 16, isHexDigit (UInt8.ofNat (Nat.digitChar d).toNat) = true := by decide
  intro b hb
  rcases List.mem_append.1 hb with hb | hb
  · rw [List.eq_of_mem_replicate hb]
    decide
  · obtain ⟨c, hc, rfl⟩ := List.mem_map.1 hb
    obtain ⟨d, hd, rfl⟩ := mem_toDigits (by decide) hc
    exact hchar d hd

theorem print_ne_nil (n : ℕ) : print n ≠ [] := by
  simp [print, Nat.toDigits_ne_nil]

theorem value_map (cs : List Char) (h : ∀ c ∈ cs, c.isDigit = true) :
    ∀ n, (cs.map fun c => UInt8.ofNat c.toNat).foldl (fun n d => 10 * n + (d.toNat - 0x30)) n
      = Nat.ofDigitChars 10 cs n := by
  induction cs with
  | nil => intro n; rfl
  | cons c cs ih =>
    intro n
    have hc := (byte_digit (h c (by simp))).2
    rw [List.map_cons, List.foldl_cons, ih (fun c' hc' => h c' (by simp [hc'])),
      Nat.ofDigitChars_cons, hc]
    rfl

theorem value_print (n : ℕ) : value (print n) = n := by
  rw [value, print, value_map _ (fun c hc => Nat.isDigit_of_mem_toDigits (by decide) (by decide) hc),
    Nat.ofDigitChars_toDigits (by decide) (by decide)]

theorem not_space_of_digit {b : UInt8} (h : isDigit b = true) :
    isSpace b = false ∧ b ≠ 0x2d ∧ b ≠ 0x2b := by
  simp only [isDigit, Bool.and_eq_true, decide_eq_true_eq, UInt8.le_iff_toNat_le] at h
  have h1 : 0x30 ≤ b.toNat := h.1
  refine ⟨?_, ?_, ?_⟩
  · simp only [isSpace, Bool.or_eq_false_iff, Bool.and_eq_false_iff, decide_eq_false_iff_not,
      beq_eq_false_iff_ne, UInt8.le_iff_toNat_le]
    refine ⟨?_, .inr (by change ¬ b.toNat ≤ 0x0d; omega)⟩
    rintro rfl
    exact absurd h1 (by decide)
  · rintro rfl
    exact absurd h1 (by decide)
  · rintro rfl
    exact absurd h1 (by decide)

theorem takeWhile_print (n : ℕ) {b : UInt8} (hb : isDigit b = false) (rest : List UInt8) :
    (print n ++ b :: rest).takeWhile isDigit = print n := by
  rw [List.takeWhile_append_of_pos (print_digits n), List.takeWhile_cons_of_neg (by simp [hb]),
    List.append_nil]

theorem dropWhile_print (n : ℕ) {b : UInt8} (hb : isDigit b = false) (rest : List UInt8) :
    (print n ++ b :: rest).dropWhile isDigit = b :: rest := by
  rw [List.dropWhile_append_of_pos (print_digits n), List.dropWhile_cons_of_neg (by simp [hb])]

/-- A printed number, scanned up to the first byte that is no digit. -/
theorem scanNumber_print (n : ℕ) {b : UInt8} (hb : isDigit b = false) (rest : List UInt8) :
    scanNumber (print n ++ b :: rest) = some (false, n, b :: rest) := by
  obtain ⟨d, ds, hd⟩ := List.exists_cons_of_ne_nil (print_ne_nil n)
  obtain ⟨hsp, hminus, hplus⟩ := not_space_of_digit (print_digits n d (by simp [hd]))
  have hskip : skipSpace (print n ++ b :: rest) = print n ++ b :: rest := by
    rw [skipSpace, hd, List.cons_append, List.dropWhile_cons_of_neg (by simp [hsp])]
  have hhead : (print n ++ b :: rest).head? = some d := by rw [hd]; rfl
  simp only [scanNumber, hskip, hhead]
  simp [hminus, hplus, takeWhile_print n hb, dropWhile_print n hb, print_ne_nil, value_print]

theorem scanNumber_minus (n : ℕ) {b : UInt8} (hb : isDigit b = false) (rest : List UInt8) :
    scanNumber (0x2d :: (print n ++ b :: rest)) = some (true, n, b :: rest) := by
  have hskip : skipSpace (0x2d :: (print n ++ b :: rest)) = 0x2d :: (print n ++ b :: rest) := by
    rw [skipSpace, List.dropWhile_cons_of_neg (by decide)]
  simp only [scanNumber, hskip, List.head?_cons, List.tail_cons, beq_self_eq_true, Bool.true_or, if_true,
    takeWhile_print n hb, dropWhile_print n hb, print_ne_nil, if_false, value_print]

theorem scanUnsigned_print {n : ℕ} (hn : n < 2 ^ 64) {b : UInt8} (hb : isDigit b = false)
    (rest : List UInt8) :
    scanUnsigned (print n ++ b :: rest) = some (BitVec.ofNat 32 n, b :: rest) := by
  have hlt : ¬ 2 ^ 64 ≤ n := by omega
  rw [scanUnsigned, scanNumber_print n hb rest]
  simp only [Option.map_some, if_neg hlt, Bool.false_eq_true, if_false]
  rw [BitVec.setWidth_ofNat_of_le (by decide)]

theorem natAbs_toInt_lt (v : BitVec 32) : v.toInt.natAbs < 2 ^ 64 := by
  have h1 := v.toInt_lt
  have h2 := v.le_toInt
  omega

/-- `%u` takes a sign, and reads back what `%d` prints of the same bits. -/
theorem scanUnsigned_printInt (v : BitVec 32) {b : UInt8} (hb : isDigit b = false)
    (rest : List UInt8) :
    scanUnsigned (printInt v.toInt ++ b :: rest) = some (v, b :: rest) := by
  by_cases hneg : v.toInt < 0
  · have hcut : (-BitVec.ofNat 64 v.toInt.natAbs).setWidth 32 = v := by
      have habs : -(v.toInt.natAbs : ℤ) = v.toInt := by omega
      rw [BitVec.setWidth_neg_of_le (by decide), BitVec.setWidth_ofNat_of_le (by decide),
        BitVec.neg_ofNat_eq_ofInt_neg, habs, BitVec.ofInt_toInt]
    have hlt : ¬ 2 ^ 64 ≤ v.toInt.natAbs := Nat.not_le.2 (natAbs_toInt_lt v)
    rw [printInt, if_pos hneg, List.cons_append, scanUnsigned, scanNumber_minus _ hb]
    simp only [Option.map_some, if_neg hlt, if_true, hcut]
  · have hnat : BitVec.ofNat 32 v.toInt.natAbs = v := by
      have habs : (v.toInt.natAbs : ℤ) = v.toInt := by omega
      rw [← BitVec.ofInt_natCast, habs, BitVec.ofInt_toInt]
    rw [printInt, if_neg hneg, scanUnsigned_print (natAbs_toInt_lt v) hb, hnat]

theorem scanUnsigned_space {b : UInt8} (hb : isSpace b = true) (s : List UInt8) :
    scanUnsigned (b :: s) = scanUnsigned s := by
  have h : skipSpace (b :: s) = skipSpace s := List.dropWhile_cons_of_pos hb
  simp only [scanUnsigned, scanNumber, h]

end Decimal
