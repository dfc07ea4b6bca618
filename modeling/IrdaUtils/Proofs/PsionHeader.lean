import Mathlib.Data.List.TakeWhile
import IrdaUtils.Spec.Psion

/-! The header line, from `sendfile` to `handle_client`: sizes, modes and dates come back, and
so does a name unless it begins with white space, which the last directive of the `scanf`
format takes. -/

namespace Psion

open Decimal

/-! ### The header -/

/-- A number of the header with the space before it. -/
def field (n : ℕ) (rest : List UInt8) : List UInt8 := 0x20 :: (print n ++ rest)

/-- The size, printed with its sign. -/
def intField (v : BitVec 32) (rest : List UInt8) : List UInt8 := 0x20 :: (printInt v.toInt ++ rest)

theorem scan_field {n : ℕ} (hn : n < 2 ^ 64) {s : List UInt8} (hs : s.head? = some 0x20) :
    scanUnsigned (field n s) = some (BitVec.ofNat 32 n, s) := by
  obtain ⟨rest, rfl⟩ := List.head?_eq_some_iff.1 hs
  rw [field, scanUnsigned_space (by decide), scanUnsigned_print hn (by decide)]

theorem scan_intField (v : BitVec 32) {s : List UInt8} (hs : s.head? = some 0x20) :
    scanUnsigned (intField v s) = some (v, s) := by
  obtain ⟨rest, rfl⟩ := List.head?_eq_some_iff.1 hs
  rw [intField, scanUnsigned_space (by decide), scanUnsigned_printInt v (by decide)]

theorem scanFile_fields (v : BitVec 32) {b c d : ℕ} (hb : b < 2 ^ 64) (hc : c < 2 ^ 64)
    (hd : d < 2 ^ 64) (s : List UInt8) :
    scanFile (intField v (field b (field c (field d (0x20 :: s))))) =
      some ⟨v, BitVec.ofNat 32 b, BitVec.ofNat 32 c, BitVec.ofNat 32 d, skipSpace (0x20 :: s)⟩ := by
  have hhead : ∀ n s, (field n s).head? = some 0x20 := fun _ _ => rfl
  simp only [scanFile, scan_intField v (hhead _ _), scan_field hb (hhead _ _),
    scan_field hc (hhead _ _), scan_field hd (List.head?_cons ..), Option.bind_eq_bind,
    Option.bind_some]
  rfl

theorem header_eq (j : Job) :
    j.header = ascii "FILE" ++ intField (BitVec.ofNat 32 j.content.length)
      (field (32 ||| if j.writable then 0 else 1) (field (j.fdatell >>> 32).toNat
        (field (j.fdatell &&& 0x00000000FFFFFFFF).toNat (0x20 :: cstr j.filename)))) := by
  have hsp : ascii " " = [0x20] := by decide
  have hfile : ascii "FILE " = ascii "FILE" ++ [0x20] := by decide
  rw [Job.header, hsp, hfile]
  simp only [field, intField, List.append_assoc, List.cons_append, List.nil_append]

theorem digit_ne_zero {b : UInt8} (h : isDigit b = true) : b ≠ 0 := by
  rintro rfl
  exact absurd h (by decide)

theorem header_ne_zero (j : Job) : ∀ b ∈ j.header, b ≠ 0 := by
  have hname : ∀ b ∈ cstr j.filename, b ≠ 0 := by
    intro b hb
    simpa using List.mem_takeWhile_imp hb
  have hp : ∀ n, ∀ b ∈ print n, b ≠ 0 := fun n b hb => digit_ne_zero (print_digits n b hb)
  have hpi : ∀ z, ∀ b ∈ printInt z, b ≠ 0 := by
    intro z b hb
    unfold printInt at hb
    split_ifs at hb
    · rcases List.mem_cons.1 hb with rfl | hb
      · decide
      · exact hp _ b hb
    · exact hp _ b hb
  have hword : ∀ b ∈ ascii "FILE", b ≠ 0 := by decide +kernel
  intro b hb
  rw [header_eq j] at hb
  simp only [field, intField, List.mem_append, List.mem_cons] at hb
  rcases hb with h | rfl | h | rfl | h | rfl | h | rfl | h | rfl | h
  · exact hword b h
  · decide
  · exact hpi _ b h
  · decide
  · exact hp _ b h
  · decide
  · exact hp _ b h
  · decide
  · exact hp _ b h
  · decide
  · exact hname b h

/-- The header as the client understands it; white space before the name is lost. -/
def Job.announced (j : Job) : Header where
  fsize := BitVec.ofNat 32 j.content.length
  fmode := BitVec.ofNat 32 (32 ||| if j.writable then 0 else 1)
  fdate1 := BitVec.ofNat 32 (j.fdatell >>> 32).toNat
  fdate2 := BitVec.ofNat 32 (j.fdatell &&& 0x00000000FFFFFFFF).toNat
  fname := skipSpace (0x20 :: cstr j.filename)

theorem parseHeader_header (j : Job) :
    parseHeader j.header = some j.announced := by
  have hself : cstr j.header = j.header := by
    rw [cstr, List.takeWhile_eq_self_iff]
    intro b hb
    simpa using header_ne_zero j b hb
  have hm : (32 ||| if j.writable then 0 else 1 : ℕ) < 2 ^ 64 := by
    cases j.writable <;> decide
  have htake : ∀ v l, (ascii "FILE" ++ intField v l).take 5 = ascii "FILE " := by
    intro v l
    rfl
  have hdrop : ∀ v l, (ascii "FILE" ++ intField v l).drop 4 = intField v l := by
    intro v l
    rfl
  rw [parseHeader, hself, header_eq j]
  simp only [htake, hdrop, if_true]
  exact scanFile_fields _ hm (BitVec.isLt _) (BitVec.isLt _) _

/-! ### The fields -/

/-- The header comes back as it was meant: the size, the read-only and the modified bit of the
mode, and the name. -/
structure Header.Matches (h : Header) (j : Job) : Prop where
  fsize : h.fsize.toNat = j.content.length
  readOnly : h.fmode &&& 1 = if j.writable then 0 else 1
  modified : h.fmode &&& 32 = 32
  fname : h.fname = j.filename

theorem announced_fname (j : Job) (h0 : ∀ b ∈ j.filename, b ≠ 0) :
    j.announced.fname = skipSpace j.filename := by
  have hcstr : cstr j.filename = j.filename := by
    rw [cstr, List.takeWhile_eq_self_iff]
    intro b hb
    simpa using h0 b hb
  have hsp : skipSpace (0x20 :: j.filename) = skipSpace j.filename :=
    List.dropWhile_cons_of_pos (by decide)
  rw [← hsp, Job.announced, hcstr]

theorem skipSpace_eq_self_iff (s : List UInt8) :
    skipSpace s = s ↔ ∀ b ∈ s.head?, isSpace b = false := by
  cases s with
  | nil => simp [skipSpace]
  | cons b s =>
    by_cases hb : isSpace b = true
    · have hlen : (skipSpace (b :: s)).length ≤ s.length := by
        rw [skipSpace, List.dropWhile_cons_of_pos hb]
        exact (List.dropWhile_suffix _).length_le
      refine iff_of_false (fun e => ?_) (by simp [hb])
      rw [e, List.length_cons] at hlen
      omega
    · refine iff_of_true (List.dropWhile_cons_of_neg hb) (by simpa using hb)

/-- The header is read as it was meant exactly when the name does not begin with white space. -/
theorem header_read_back_iff (j : Job) (hn : j.content.length < 2 ^ 31)
    (h0 : ∀ b ∈ j.filename, b ≠ 0) :
    (∃ h, parseHeader j.header = some h ∧ h.Matches j) ↔
      ∀ b ∈ j.filename.head?, isSpace b = false := by
  rw [parseHeader_header, ← skipSpace_eq_self_iff, ← announced_fname j h0]
  constructor
  · rintro ⟨h, e, hm⟩
    obtain rfl := Option.some.inj e
    exact hm.fname
  · intro hname
    refine ⟨j.announced, rfl, ?_, ?_, ?_, hname⟩
    · rw [Job.announced, BitVec.toNat_ofNat, Nat.mod_eq_of_lt (by omega)]
    · cases hw : j.writable <;> simp [Job.announced, hw]
    · cases hw : j.writable <;> simp [Job.announced, hw]

/-- The file of a name with a space in the middle, and of one with a space in front. -/
def spacedJob : Job := ⟨ascii "my file 1", [1, 0, 2, 0, 3], false, 0x3A5C0000⟩
def indentedJob : Job := ⟨ascii " file", [1, 0, 2, 0, 3], true, 0x3A5C0000⟩

theorem header_read_back_spaced : ∃ h, parseHeader spacedJob.header = some h ∧ h.Matches spacedJob :=
  (header_read_back_iff spacedJob (by decide) (by decide +kernel)).2 (by decide +kernel)

theorem header_name_lost :
    ∃ h, parseHeader indentedJob.header = some h ∧ h.fname = ascii "file" ∧ ¬ h.Matches indentedJob := by
  refine ⟨indentedJob.announced, parseHeader_header indentedJob, by decide, ?_⟩
  intro h
  exact absurd h.fname (by decide)

/-! ### The date -/

section Date

variable (j : Job) (hm : j.mtime.toNat < 2 ^ 32)

include hm

theorem low_mtime : (j.mtime &&& 0x00000000FFFFFFFF).toNat = j.mtime.toNat := by
  rw [BitVec.toNat_and]
  exact (Nat.and_two_pow_sub_one_eq_mod _ 32).trans (Nat.mod_eq_of_lt hm)

theorem scaled_mtime :
    (1000000 * (j.mtime &&& 0x00000000FFFFFFFF) : BitVec 64).toNat = 1000000 * j.mtime.toNat := by
  rw [BitVec.toNat_mul, low_mtime j hm]
  exact Nat.mod_eq_of_lt (by simp; omega)

theorem fdatell_toNat : j.fdatell.toNat = 62168263200000000 + 1000000 * j.mtime.toNat := by
  rw [Job.fdatell, BitVec.toNat_add, scaled_mtime j hm]
  exact Nat.mod_eq_of_lt (by simp; omega)

end Date

theorem low_half (v : BitVec 64) : (v &&& 0x00000000FFFFFFFF).toNat = v.toNat % 2 ^ 32 := by
  rw [BitVec.toNat_and]
  exact Nat.and_two_pow_sub_one_eq_mod _ 32

theorem high_half (v : BitVec 64) : (v >>> 32).toNat = v.toNat / 2 ^ 32 := by
  rw [BitVec.toNat_ushiftRight, Nat.shiftRight_eq_div_pow]

/-- Two halves of 32 bits are put together without a carry. -/
theorem header_fdatell_toNat (h : Header) :
    h.fdatell.toNat = 2 ^ 32 * h.fdate1.toNat + h.fdate2.toNat := by
  have h1 := h.fdate1.isLt
  have h2 := h.fdate2.isLt
  have hs : (h.fdate1.setWidth 64 <<< 32).toNat = 2 ^ 32 * h.fdate1.toNat := by
    rw [BitVec.toNat_shiftLeft, BitVec.toNat_setWidth, Nat.mod_eq_of_lt (by omega), Nat.shiftLeft_eq,
      Nat.mul_comm, Nat.mod_eq_of_lt (by omega)]
  rw [Header.fdatell, BitVec.toNat_add, hs, BitVec.toNat_setWidth, Nat.mod_eq_of_lt (by omega : _ < 2 ^ 64),
    Nat.mod_eq_of_lt (by omega)]

theorem header_fdate_toNat {h : Header} {m : ℕ} (hm : m < 2 ^ 32)
    (e : h.fdatell.toNat = 62168263200000000 + 1000000 * m) :
    (h.fdatell - 62168263200000000).toNat = 1000000 * m ∧
      ((h.fdatell - 62168263200000000) / 1000000).toNat = m ∧ h.fdate.toNat = m := by
  have hsub : (h.fdatell - 62168263200000000).toNat = 1000000 * m := by
    rw [BitVec.toNat_sub_of_le (by rw [BitVec.le_def, e]; simp), e]
    exact Nat.add_sub_cancel_left _ _
  have hdiv : ((h.fdatell - 62168263200000000) / 1000000).toNat = m := by
    rw [BitVec.toNat_udiv, hsub]
    exact Nat.mul_div_cancel_left m (by decide)
  refine ⟨hsub, hdiv, ?_⟩
  rw [Header.fdate, BitVec.toNat_setWidth, hdiv, Nat.mod_eq_of_lt hm]

/-- The date of any file of the first 136 years goes over exactly: no operation on either side
leaves its 64 bits, both halves have 32, and the client gets the time that was sent. -/
theorem date_exact (j : Job) (hm : j.mtime.toNat < 2 ^ 32) :
    (1000000 * (j.mtime &&& 0x00000000FFFFFFFF) : BitVec 64).toNat = 1000000 * j.mtime.toNat ∧
    j.fdatell.toNat = 62168263200000000 + 1000000 * j.mtime.toNat ∧
    (j.fdatell >>> 32).toNat < 2 ^ 32 ∧ (j.fdatell &&& 0x00000000FFFFFFFF).toNat < 2 ^ 32 ∧
    ∃ h, parseHeader j.header = some h ∧ h.fdate1.toNat = (j.fdatell >>> 32).toNat ∧
      h.fdate2.toNat = (j.fdatell &&& 0x00000000FFFFFFFF).toNat ∧
      h.fdatell.toNat = 2 ^ 32 * h.fdate1.toNat + h.fdate2.toNat ∧ h.fdatell = j.fdatell ∧
      (h.fdatell - 62168263200000000).toNat = 1000000 * j.mtime.toNat ∧
      ((h.fdatell - 62168263200000000) / 1000000).toNat = j.mtime.toNat ∧
      h.fdate.toNat = j.mtime.toNat := by
  have hlo : (j.fdatell &&& 0x00000000FFFFFFFF).toNat < 2 ^ 32 := by
    rw [low_half]
    exact Nat.mod_lt _ (by decide)
  have hhi : (j.fdatell >>> 32).toNat < 2 ^ 32 := by
    have := j.fdatell.isLt
    rw [high_half]
    omega
  have hd1 : j.announced.fdate1.toNat = (j.fdatell >>> 32).toNat := by
    rw [Job.announced, BitVec.toNat_ofNat, Nat.mod_eq_of_lt hhi]
  have hd2 : j.announced.fdate2.toNat = (j.fdatell &&& 0x00000000FFFFFFFF).toNat := by
    rw [Job.announced, BitVec.toNat_ofNat, Nat.mod_eq_of_lt hlo]
  have hjoin : j.announced.fdatell = j.fdatell := by
    apply BitVec.eq_of_toNat_eq
    rw [header_fdatell_toNat, hd1, hd2, low_half, high_half]
    exact Nat.div_add_mod _ _
  have hdate := header_fdate_toNat hm (hjoin ▸ fdatell_toNat j hm)
  exact ⟨scaled_mtime j hm, fdatell_toNat j hm, hhi, hlo, j.announced, parseHeader_header j, hd1, hd2,
    header_fdatell_toNat _, hjoin, hdate⟩

/-- The last second that has 32 bits. -/
def lastJob : Job := ⟨ascii "last", [], true, 0xFFFFFFFF⟩

theorem date_exact_last : ∃ h, parseHeader lastJob.header = some h ∧ h.fdate.toNat = 0xFFFFFFFF := by
  obtain ⟨-, -, -, -, h, hp, -, -, -, -, -, -, hd⟩ := date_exact lastJob (by decide)
  exact ⟨h, hp, hd⟩

end Psion
