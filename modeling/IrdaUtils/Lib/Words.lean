import IrdaUtils.Lib.Decimal

/-! Lines of words, with a blank behind each word, and the numbers in them as `printf` prints
them: `%d`, `%x` and `%#x`. -/

namespace Words

def words (s : String) : List (List Char) := s.toList.splitOn ' '

/-- The words with a blank behind each, and the rest of the line. -/
def sentence (ws : List String) (rest : String) : String := ws.foldr (fun w t => w ++ " " ++ t) rest

theorem words_sentence {ws : List String} (h : ∀ w ∈ ws, ' ' ∉ w.toList) (rest : String) :
    words (sentence ws rest) = ws.map String.toList ++ words rest := by
  induction ws with
  | nil => rfl
  | cons w ws ih =>
    have hcons : (sentence (w :: ws) rest).toList = w.toList ++ ' ' :: (sentence ws rest).toList := by
      change (w ++ " " ++ sentence ws rest).toList = _
      rw [String.toList_append, String.toList_append, List.append_assoc]
      rfl
    rw [words, hcons, List.splitOn_append_cons_self_of_not_mem (h w (by simp))]
    exact congrArg (w.toList :: ·) (ih fun w' h' => h w' (by simp [h']))

theorem sentence_append (ws : List String) (rest t : String) :
    sentence ws rest ++ t = sentence ws (rest ++ t) := by
  induction ws with
  | nil => rfl
  | cons w ws ih =>
    change w ++ " " ++ sentence ws rest ++ t = w ++ " " ++ sentence ws (rest ++ t)
    rw [String.append_assoc, ih]

/-- What stands behind a label, in the first word that starts with it. -/
def after (label : String) (ws : List (List Char)) : Option (List Char) :=
  ws.findSome? fun w => if label.toList <+: w then some (w.drop label.toList.length) else none

/-! ### Numbers -/

def digit (c : Char) : Option ℕ := (List.range 16).find? fun d => Nat.digitChar d == c

theorem digit_digitChar {d : ℕ} (h : d < 16) : digit (Nat.digitChar d) = some d := by
  revert d
  decide

def pushDigit (b n : ℕ) (c : Char) : Option ℕ :=
  (digit c).bind fun d => if d < b then some (b * n + d) else none

def readNat (b : ℕ) (cs : List Char) : Option ℕ :=
  if cs = [] then none else cs.foldlM (pushDigit b) 0

def readDec (cs : List Char) : Option ℕ := readNat 10 cs

/-- With or without `0x`. -/
def readHex (cs : List Char) : Option ℕ := readNat 16 (if ['0', 'x'] <+: cs then cs.drop 2 else cs)

theorem pushDigit_digitChar {b d : ℕ} (hb : b ≤ 16) (hd : d < b) (n : ℕ) :
    pushDigit b n (Nat.digitChar d) = some (b * n + d) := by
  rw [pushDigit, digit_digitChar (by omega), Option.bind_some, if_pos hd]

theorem foldlM_toDigits {b : ℕ} (hb : 1 < b) (hb' : b ≤ 16) (n : ℕ) :
    (Nat.toDigits b n).foldlM (pushDigit b) 0 = some n := by
  induction n using Nat.strong_induction_on with
  | _ n ih =>
    rw [Nat.toDigits_eq_if hb]
    split_ifs with hn
    · simp [pushDigit_digitChar hb' hn]
    · have hdiv : n / b < n := Nat.div_lt_self (by omega) hb
      rw [List.foldlM_append, ih _ hdiv]
      simp [pushDigit_digitChar hb' (Nat.mod_lt n (by omega)), Nat.div_add_mod]

theorem foldlM_zeros {b : ℕ} (hb : 0 < b) (hb' : b ≤ 16) (k : ℕ) :
    (List.replicate k '0').foldlM (pushDigit b) 0 = some 0 := by
  induction k with
  | zero => rfl
  | succ k ih =>
    have hzero : pushDigit b 0 '0' = some 0 := pushDigit_digitChar hb' hb 0
    rw [List.replicate_succ, List.foldlM_cons, hzero]
    exact ih

/-- Leading zeros do not matter. -/
theorem readNat_toDigits {b : ℕ} (hb : 1 < b) (hb' : b ≤ 16) (k n : ℕ) :
    readNat b (List.replicate k '0' ++ Nat.toDigits b n) = some n := by
  rw [readNat, if_neg (by simp [Nat.toDigits_ne_nil]), List.foldlM_append,
    foldlM_zeros (by omega) hb']
  exact foldlM_toDigits hb hb' n

/-! ### Bytes of two digits -/

def hexByte (b : UInt8) : List Char := [Nat.digitChar (b.toNat / 16), Nat.digitChar (b.toNat % 16)]

/-- The bytes of a text of pairs of digits. -/
def readBytes : List Char → List UInt8
  | c :: c' :: cs =>
    UInt8.ofNat (16 * (digit c).getD 0 + (digit c').getD 0) :: readBytes cs
  | _ => []

theorem readBytes_hexByte (b : UInt8) (cs : List Char) :
    readBytes (hexByte b ++ cs) = b :: readBytes cs := by
  have hhigh : b.toNat / 16 < 16 := by
    have := b.toNat_lt
    omega
  change UInt8.ofNat (16 * (digit (Nat.digitChar (b.toNat / 16))).getD 0 +
    (digit (Nat.digitChar (b.toNat % 16))).getD 0) :: readBytes cs = _
  rw [digit_digitChar hhigh, digit_digitChar (Nat.mod_lt _ (by decide)), Option.getD_some,
    Option.getD_some, Nat.div_add_mod, UInt8.ofNat_toNat]

theorem readBytes_flatMap (bs : List UInt8) : readBytes (bs.flatMap hexByte) = bs := by
  induction bs with
  | nil => rfl
  | cons b bs ih => rw [List.flatMap_cons, readBytes_hexByte, ih]

end Words
