import Mathlib.Data.List.TakeWhile
import IrdaUtils.Proofs.ObexFraming

/-! What the header loop shows of well-formed headers. A header of one byte shows its
identifier instead of its value; `%d` and `%s` change a few values more. -/

namespace Irdadump
open Memory PrefixCode

namespace ObexHeader

/-- What the program shows of the value. -/
def printedValue : ObexHeader → String
  | unicode _ text _ _ _ => "\"" ++ chars (text.map Prod.snd) ++ "\" "
  | stream id bytes _ _ _ =>
    if (obexLabel id).2 then if bytes = [] then "" else "\"" ++ cString bytes ++ "\" "
    else s!"[{bytes.length} bytes] "
  | byte id _ _ => s!"{id.toNat} "
  | int _ value _ => s!"{fmtInt32 value.toNat} "

def printed (h : ObexHeader) : String := (obexLabel h.id).1 ++ h.printedValue

/-! ### The bytes of a header -/

theorem be16_length (n : ℕ) : (be16 n).length = 2 := rfl

theorem units_length (text : List (UInt8 × UInt8)) : (units text).length = 2 * text.length := by
  induction text with
  | nil => rfl
  | cons u text ih =>
    change (units text).length + 1 + 1 = _
    rw [ih, List.length_cons]
    omega

/-- The low byte of a unit of a Unicode text. -/
theorem units_low (text : List (UInt8 × UInt8)) (t : List UInt8) : ∀ j < text.length,
    (units text ++ t).getD (j * 2 + 1) 0 = (text.map Prod.snd).getD j 0 := by
  induction text with
  | nil => intro j hj; cases hj
  | cons u text ih =>
    intro j hj
    cases j with
    | zero => rfl
    | succ j =>
      have e : (j + 1) * 2 + 1 = j * 2 + 1 + 1 + 1 := by omega
      rw [e]
      exact ih j (by simpa using hj)

theorem be16_value {n : ℕ} (h : n < 2 ^ 16) :
    (UInt8.ofNat (n / 256)).toNat * 256 + (UInt8.ofNat n).toNat = n := by
  rw [UInt8.toNat_ofNat', UInt8.toNat_ofNat']
  omega

theorem id_encode (h : ObexHeader) : h.encode.getD 0 0 = h.id := by
  cases h <;> rfl

theorem encode_complete (h : ObexHeader) : CompleteHeader h.encode := by
  have hcls := hi_class h.id
  unfold CompleteHeader
  rw [id_encode]
  cases h with
  | unicode id text hid hlow hlen =>
    rw [if_pos (hcls.1.1 (.inl hid))]
    have hl : (unicode id text hid hlow hlen).encode.length = 3 + (2 * text.length + 2) := by
      simp only [encode, List.length_append, List.length_cons, units_length, be16_length,
        List.length_nil]
      omega
    rw [hl]
    exact ⟨by omega, be16_value (by omega)⟩
  | stream id bytes hid hlen htext =>
    rw [if_pos (hcls.1.1 (.inr hid))]
    have hl : (stream id bytes hid hlen htext).encode.length = 3 + bytes.length := by
      simp only [encode, List.length_append, List.length_cons, be16_length]
    rw [hl]
    exact ⟨by omega, be16_value (by omega)⟩
  | byte id value hid =>
    obtain ⟨h1, h2⟩ := hcls.2.1.1 hid
    rw [if_neg (UInt8.not_lt.2 h1), if_pos h2]
    rfl
  | int id value hid =>
    have h2 : 0xc0 ≤ id := hcls.2.2.1 hid
    have h1 : 0x80 ≤ id := UInt8.le_trans (by decide) h2
    exact (if_neg (UInt8.not_lt.2 h1)).mpr ((if_neg (UInt8.not_lt.2 h2)).mpr rfl)

/-! ### The text of a header -/

/-- The bytes of a header that the buffer starts with. -/
theorem byte_of_starts {s : St} {w : List UInt8} (hp : w <+: s.buf.bytes) {i : ℕ}
    (hi : i < w.length) : s.byte i = w.getD i 0 := by
  have hle : w.length ≤ s.buf.len := by simpa only [bytes_length] using hp.length_le
  have hb : s.buf.byte i = s.buf.bytes.getD i 0 := byte_of_bytes (by omega)
  exact hb.trans (getD_of_starts hp hi)

theorem copy_of_starts {s : St} {w v : List UInt8} (hp : w ++ v <+: s.buf.bytes) :
    s.copy w.length v.length = v := by
  have hle : w.length + v.length ≤ s.buf.len := by
    simpa only [bytes_length, List.length_append] using hp.length_le
  obtain ⟨t, ht⟩ := hp
  have hd : s.copy w.length v.length = (s.buf.bytes.drop w.length).take v.length := by
    rw [GNetBuf.bytes, load_drop, load_take _ _ _ _ (by omega)]
    rfl
  rw [hd, ← ht, List.append_assoc, List.drop_left, List.take_left]

/-- A length field that stands behind the identifier. -/
theorem stringLen_of_starts {s : St} {id : UInt8} {k : ℕ} {v : List UInt8} (hk : 3 + k < 2 ^ 16)
    (hp : id :: be16 (3 + k) ++ v <+: s.buf.bytes) : obexStringLen s = k := by
  have h1 : s.byte 1 = UInt8.ofNat ((3 + k) / 256) := byte_of_starts hp (by simp [be16])
  have h2 : s.byte 2 = UInt8.ofNat (3 + k) := byte_of_starts hp (by simp [be16])
  have hb : s.be16 1 = 3 + k := by
    rw [St.be16, h1, h2]
    exact be16_value hk
  rw [obexStringLen, hb]
  omega

/-- The string of an array that has `bs` and then a zero. -/
theorem cString_of_getD {l bs : List UInt8} (hl : bs.length < l.length)
    (hbs : ∀ j < bs.length, l.getD j 0 = bs.getD j 0) (hz : l.getD bs.length 0 = 0)
    (hne : 0 ∉ bs) : cString l = chars bs := by
  have e : l.takeWhile (· ≠ 0) = (bs ++ [0]).takeWhile (· ≠ 0) := by
    refine takeWhile_congr_of_zero hl (by simp) ?_ hz
    intro j hj
    rcases Nat.eq_or_lt_of_le hj with rfl | hj
    · rw [hz, List.getD_append_right _ _ _ _ (Nat.le_refl _), Nat.sub_self]
      rfl
    · rw [hbs j hj, List.getD_append _ _ _ _ hj]
  unfold cString
  rw [e, takeWhile_terminated hne]
  rfl

/-- The units of a text at the start of the array, and what `unicode_to_char` makes of them. -/
theorem narrowed_text {text : List (UInt8 × UInt8)} (hlow : ∀ u ∈ text, u.2 ≠ 0)
    (stack : List UInt8) :
    cString ((unicodeToChar (overwrite stack (units text ++ [0, 0]))).set
      (2 * text.length + 2) 0) = chars (text.map Prod.snd) := by
  have hul := units_length text
  generalize hv : units text ++ [0, 0] = v
  have hvl : v.length = 2 * text.length + 2 := by
    rw [← hv, List.length_append, hul]
    rfl
  have hat : ∀ i < 2 * text.length + 2, (overwrite stack v).getD i 0 = v.getD i 0 := fun i hi =>
    overwrite_getD stack v (by omega)
  have hunit : ∀ j < text.length, (overwrite stack v).getD (j * 2 + 1) 0 = (text.map Prod.snd).getD j 0 := by
    intro j hj
    rw [hat _ (by omega), ← hv, units_low text [0, 0] j hj]
  have hend : (overwrite stack v).getD (text.length * 2 + 1) 0 = 0 := by
    rw [hat _ (by omega), ← hv, List.getD_append_right _ _ _ _ (by omega), hul]
    have e : text.length * 2 + 1 - 2 * text.length = 1 := by omega
    rw [e]
    rfl
  have hzero : (0 : UInt8) ∉ text.map Prod.snd := by
    intro h
    obtain ⟨u, hu, e⟩ := List.mem_map.1 h
    exact hlow u hu e
  have hne : ∀ j < text.length, (overwrite stack v).getD (j * 2 + 1) 0 ≠ 0 := by
    intro j hj e
    rw [hunit j hj, List.getD_eq_getElem _ _ (by simpa using hj)] at e
    exact hzero (e ▸ List.getElem_mem _)
  have hroom : text.length * 2 + 1 < (overwrite stack v).length := by
    simp only [overwrite, List.length_append]
    omega
  have hinside : text.length < 2 * text.length + 2 := by omega
  obtain ⟨h1, h2⟩ := unicode_string hroom hinside hend hne
  refine cString_of_getD (by simpa using h1) ?_ ?_ hzero
  · intro j hj
    rw [List.length_map] at hj
    rw [h2 j (by omega), hunit j hj]
  · rw [List.length_map, h2 _ (Nat.le_refl _), hend]

theorem unicode_text {s : St} {id : UInt8} {text : List (UInt8 × UInt8)}
    (hlow : ∀ u ∈ text, u.2 ≠ 0) (hlen : 2 * text.length + 2 ≤ 254)
    (hp : id :: be16 (3 + (2 * text.length + 2)) ++ (units text ++ [0, 0])
      <+: s.buf.bytes) (stack : List UInt8) :
    obexUnicodeText stack s = "\"" ++ chars (text.map Prod.snd) ++ "\" " := by
  have hsl : obexStringLen s = 2 * text.length + 2 := stringLen_of_starts (by omega) hp
  have hcopy : s.copy 3 (2 * text.length + 2) = units text ++ [0, 0] := by
    have hl : (units text ++ [0, 0]).length = 2 * text.length + 2 := by
      rw [List.length_append, units_length]
      rfl
    rw [← hl]
    exact copy_of_starts hp
  unfold obexUnicodeText
  simp only
  rw [hsl, if_neg (by omega), hcopy, narrowed_text hlow]

theorem be32_value (v : BitVec 32) {s : St} {id : UInt8} (hp : id :: be32 v.toNat <+: s.buf.bytes) :
    s.be32 1 = v.toNat := by
  have hv := v.isLt
  have h1 : s.byte 1 = UInt8.ofNat (v.toNat / 65536 / 256) := byte_of_starts hp (by simp [be32, be16])
  have h2 : s.byte 2 = UInt8.ofNat (v.toNat / 65536) := byte_of_starts hp (by simp [be32, be16])
  have h3 : s.byte 3 = UInt8.ofNat (v.toNat / 256) := byte_of_starts hp (by simp [be32, be16])
  have h4 : s.byte 4 = UInt8.ofNat v.toNat := byte_of_starts hp (by simp [be32, be16])
  simp only [St.be32, St.be16, h1, h2, h3, h4, UInt8.toNat_ofNat']
  omega

/-- The header that the buffer starts with is printed. -/
theorem item_of_starts (env : Env) (h : ObexHeader) {s : St} (hp : h.encode <+: s.buf.bytes) :
    obexItem env s = h.printed := by
  have hid0 : s.byte 0 = h.id := by
    rw [byte_of_starts hp h.encode_complete.pos, id_encode]
  rw [obexItem_eq, printed, hid0]
  refine congrArg ((obexLabel h.id).1 ++ ·) ?_
  cases h with
  | unicode id text hid hlow hlen =>
    have h0 : s.byte 0 = id := hid0
    rw [obexValueText, h0, if_pos hid]
    exact unicode_text hlow hlen (by simpa only [encode, List.append_assoc] using hp) _
  | stream id bytes hid hlen htext =>
    have h0 : s.byte 0 = id := hid0
    have hk : obexStringLen s = bytes.length := stringLen_of_starts (by omega) hp
    have hcopy : s.copy 3 bytes.length = bytes := copy_of_starts hp
    rw [obexValueText, h0, if_neg fun e => absurd (hid.symm.trans e) (by decide), if_pos hid, hk,
      hcopy, printedValue]
    refine ite_congr rfl (fun _ => ?_) fun _ => rfl
    by_cases hn : bytes = []
    · rw [if_pos hn, hn]
      rfl
    · rw [if_neg hn, if_pos (by simpa using hn)]
  | byte id value hid =>
    have h0 : s.byte 0 = id := hid0
    rw [obexValueText, h0, if_neg fun e => absurd (hid.symm.trans e) (by decide),
      if_neg fun e => absurd (hid.symm.trans e) (by decide), if_pos hid]
    rfl
  | int id value hid =>
    have h0 : s.byte 0 = id := hid0
    rw [obexValueText, h0, if_neg fun e => absurd (hid.symm.trans e) (by decide),
      if_neg fun e => absurd (hid.symm.trans e) (by decide),
      if_neg fun e => absurd (hid.symm.trans e) (by decide), be32_value value hp]
    rfl

end ObexHeader

open ObexHeader

/-- The account of the loop over well-formed headers. -/
theorem log_of_headers (env : Env) (hs : List ObexHeader) : ∀ {s : St},
    s.buf.bytes = hs.flatMap encode → obexHeadersLog env s = (hs.map printed, false) := by
  induction hs with
  | nil =>
    intro s hb
    have hl : s.buf.len = 0 := by
      rw [← bytes_length, hb]
      rfl
    rw [obexHeadersLog_done (by omega)]
    rfl
  | cons h hs ih =>
    intro s hb
    have hp : h.encode <+: s.buf.bytes := by
      rw [hb, List.flatMap_cons]
      exact List.prefix_append _ _
    obtain ⟨hle, hlog⟩ := log_of_complete env h.encode_complete hp
    have hnext : (s.pull h.encode.length).buf.bytes = hs.flatMap encode := by
      rw [pull_bytes hle, hb, List.flatMap_cons, List.drop_left]
    rw [hlog, ih hnext, item_of_starts env h hp]
    rfl

theorem parseObexHeaders_printed (env : Env) {s : St} {off : ℕ} {hs : List ObexHeader}
    (h : (s.pull off).buf.bytes = hs.flatMap encode) :
    (parseObexHeaders env s off).str =
      s.str ++ obexHeadersPrefix s ++ String.join (hs.map printed) := by
  rw [parseObexHeaders_str, log_of_headers env hs h]
  simp

/-! ### What is printed and what should be -/

theorem digits_char {n : ℕ} {c : Char} (h : c ∈ Nat.toDigits 10 n) : c ≠ ' ' ∧ c ≠ '-' := by
  have hd := Nat.isDigit_of_mem_toDigits (by decide) (by decide) h
  constructor
  · rintro rfl
    exact absurd hd (by decide)
  · rintro rfl
    exact absurd hd (by decide)

/-- One text starts the other one. -/
def Meets (a b : String) : Prop := a.toList <+: b.toList ∨ b.toList <+: a.toList

theorem meets_append (l : String) {a b : String} (h : Meets (l ++ a) (l ++ b)) : Meets a b := by
  unfold Meets at h
  rw [String.toList_append, String.toList_append] at h
  exact h.imp (List.prefix_append_right_inj _).1 (List.prefix_append_right_inj _).1

theorem number_toList (k : ℕ) : (s!"{k} ").toList = Nat.toDigits 10 k ++ ' ' :: [] := by
  change (toString k ++ " ").toList = _
  rw [String.toList_append, Nat.toString_eq_repr, Nat.toList_repr]
  rfl

/-- Numbers are ended by a space. -/
theorem number_eq {m n : ℕ} (h : Meets s!"{m} " s!"{n} ") : m = n := by
  unfold Meets at h
  rw [number_toList, number_toList] at h
  have e := terminated_eq (fun hm => (digits_char hm).1 rfl) (fun hm => (digits_char hm).1 rfl) h
  have hv := congrArg (fun ds => Nat.ofDigitChars 10 ds 0) e
  simpa using hv

theorem fmtInt32_of_lt {n : ℕ} (h : n < 2 ^ 31) : fmtInt32 n = toString n := by
  have e : Int.bmod n (2 ^ 32) = n := Int.bmod_eq_of_le (by omega) (by omega)
  rw [fmtInt32, e]
  rfl

theorem minus_of_neg {z : ℤ} (h : z < 0) : ∃ t, (toString z).toList = '-' :: t := by
  rw [Int.toString_eq_repr, Int.repr_eq_if, if_neg (Int.not_le.2 h), String.toList_append]
  exact ⟨_, rfl⟩

theorem bmod_neg_of_ge {n : ℕ} (hlt : n < 2 ^ 32) (h : 2 ^ 31 ≤ n) : Int.bmod n (2 ^ 32) < 0 := by
  rw [Int.bmod_def]
  push_cast
  split_ifs <;> omega

theorem int_small {v : BitVec 32} (h : Meets s!"{fmtInt32 v.toNat} " s!"{v.toNat} ") :
    v.toNat < 2 ^ 31 := by
  by_contra hge
  obtain ⟨t, ht⟩ := minus_of_neg (bmod_neg_of_ge v.isLt (Nat.le_of_not_lt hge))
  change (fmtInt32 v.toNat).toList = _ at ht
  obtain ⟨d, ds, hd⟩ := List.exists_cons_of_ne_nil (Nat.toDigits_ne_nil (b := 10) (n := v.toNat))
  have h1 : (s!"{fmtInt32 v.toNat} ").toList = '-' :: (t ++ [' ']) := by
    change (fmtInt32 v.toNat ++ " ").toList = _
    rw [String.toList_append, ht]
    rfl
  have h2 : (s!"{v.toNat} ").toList = d :: (ds ++ [' ']) := by
    rw [number_toList, hd]
    rfl
  have hne : d ≠ '-' := (digits_char (n := v.toNat) (by rw [hd]; simp)).2
  unfold Meets at h
  rw [h1, h2] at h
  rcases h with h | h
  · exact hne (List.cons_prefix_cons.1 h).1.symm
  · exact hne (List.cons_prefix_cons.1 h).1

theorem cString_terminated {a : List UInt8} (ha : 0 ∉ a) (c : List UInt8) :
    cString (a ++ 0 :: c) = chars a := by
  unfold cString
  rw [takeWhile_terminated ha]
  rfl

/-- A zero byte inside a text ends it too early. -/
theorem text_whole {bytes : List UInt8}
    (h : Meets ("\"" ++ cString bytes ++ "\" ") ("\"" ++ chars (dropTerminator bytes) ++ "\" ")) :
    0 ∉ bytes.dropLast := by
  intro h0
  have hd : ∃ d t, dropTerminator bytes = d ∧ bytes = d ++ t ∧ 0 ∈ d := by
    unfold dropTerminator
    split_ifs
    · obtain ⟨t, ht⟩ := List.dropLast_prefix bytes
      exact ⟨bytes.dropLast, t, rfl, ht.symm, h0⟩
    · exact ⟨bytes, [], rfl, (List.append_nil _).symm, List.mem_of_mem_dropLast h0⟩
  obtain ⟨d, t, hdt, rfl, hmem⟩ := hd
  obtain ⟨a, c, rfl, ha⟩ := List.eq_append_cons_of_mem hmem
  rw [hdt, List.append_assoc, List.cons_append, cString_terminated ha, String.append_assoc,
    String.append_assoc] at h
  have h := meets_append _ h
  have hsplit : chars (a ++ 0 :: c) = chars a ++ chars (0 :: c) := by
    simp only [chars, List.map_append, String.ofList_append]
  rw [hsplit, String.append_assoc] at h
  have hquote : ("\" ").toList = '"' :: [' '] := rfl
  have hzero : (chars (0 :: c) ++ "\" ").toList = Char.ofNat 0 :: (chars c ++ "\" ").toList := by
    simp [chars]
  rcases meets_append _ h with h | h
  · rw [hquote, hzero] at h
    exact absurd (List.cons_prefix_cons.1 h).1 (by decide)
  · rw [hquote, hzero] at h
    exact absurd (List.cons_prefix_cons.1 h).1 (by decide)

theorem text_shown {bytes : List UInt8} (h : 0 ∉ bytes.dropLast) :
    cString bytes = chars (dropTerminator bytes) := by
  unfold dropTerminator
  split_ifs with hlast
  · have e := List.dropLast_append_getLast? 0 hlast
    conv_lhs => rw [← e]
    exact cString_terminated h []
  · have hall : 0 ∉ bytes := by
      intro hmem
      obtain ⟨l, b, rfl⟩ := List.eq_nil_or_concat' bytes |>.resolve_left (List.ne_nil_of_mem hmem)
      rw [List.dropLast_concat] at h
      rcases List.mem_append.1 hmem with hm | hm
      · exact h hm
      · rw [List.mem_singleton] at hm
        exact hlast (by rw [← hm]; simp)
    unfold cString
    rw [List.takeWhile_eq_self_iff.2 (by intro x hx; simpa using ne_of_mem_of_not_mem hx hall)]
    rfl

theorem plain_of_meets {h : ObexHeader} (hm : Meets h.printed h.item) : h.Plain := by
  have hv : Meets h.printedValue h.value := meets_append _ hm
  cases h with
  | unicode id text hid hlow hlen => trivial
  | stream id bytes hid hlen htext =>
    intro ht
    simp only [printedValue, value, if_pos ht] at hv
    by_cases hn : bytes = []
    · simp [hn]
    · rw [if_neg hn, if_neg hn] at hv
      exact text_whole hv
  | byte id value hid => exact (UInt8.toNat_inj.1 (number_eq hv)).symm
  | int id value hid => exact int_small hv

theorem printed_eq_item {h : ObexHeader} (hp : h.Plain) : h.printed = h.item := by
  refine congrArg ((obexLabel h.id).1 ++ ·) ?_
  cases h with
  | unicode id text hid hlow hlen => rfl
  | stream id bytes hid hlen htext =>
    refine ite_congr rfl (fun ht => ?_) fun _ => rfl
    rw [text_shown (hp ht)]
  | byte id value hid =>
    have e : value = id := hp
    rw [printedValue, ObexHeader.value, e]
  | int id value hid => rw [printedValue, ObexHeader.value, fmtInt32_of_lt hp]; rfl

theorem join_printed_iff (hs : List ObexHeader) :
    String.join (hs.map printed) = String.join (hs.map item) ↔ ∀ h ∈ hs, h.Plain := by
  have hwords : ∀ h ∈ hs, h.printed.toList <+: h.item.toList ∨ h.item.toList <+: h.printed.toList →
      h.printed.toList = h.item.toList := fun h _ hm => by rw [printed_eq_item (plain_of_meets hm)]
  rw [← String.toList_inj, String.toList_join, String.toList_join, List.flatMap_map,
    List.flatMap_map, flatMap_eq_iff hwords]
  refine forall₂_congr fun h _ => ⟨fun e => plain_of_meets (.inl ?_), fun hp => ?_⟩
  · rw [e]
  · rw [printed_eq_item hp]

/-- The line shows every header of the packet with its own value exactly if all of them are
plain. -/
theorem obex_values_shown_iff (env : Env) (s : St) (off : ℕ) (hs : List ObexHeader)
    (h : (s.pull off).buf.bytes = hs.flatMap encode) :
    (parseObexHeaders env s off).str =
        s.str ++ obexHeadersPrefix s ++ String.join (hs.map ObexHeader.item) ↔
      ∀ h ∈ hs, h.Plain := by
  rw [parseObexHeaders_printed env h, ← join_printed_iff]
  exact String.append_right_inj _

/-- A name, a length and a type. -/
def sampleHeaders : List ObexHeader :=
  [.unicode 0x01 [(0, 0x61), (0, 0x2e), (0, 0x76)] rfl (by simp) (by simp),
    .int 0xc3 1000 rfl, .stream 0x42 [0x74, 0x78, 0x00] rfl (by simp) (by simp)]

theorem obex_values_shown_sample :
    (parseObexHeaders (Frame.ofBytes 1 []).env
      (packet (0x02 :: 0x00 :: 0x19 :: sampleHeaders.flatMap encode)) 3).str =
      "" ++ obexHeadersPrefix (packet (0x02 :: 0x00 :: 0x19 :: sampleHeaders.flatMap encode)) ++
        String.join (sampleHeaders.map ObexHeader.item) := by
  refine (obex_values_shown_iff _ _ 3 sampleHeaders (by decide)).2 ?_
  intro h hh
  simp only [sampleHeaders, List.mem_cons, List.not_mem_nil, or_false] at hh
  rcases hh with rfl | rfl | rfl
  · trivial
  · exact (by decide : (1000 : BitVec 32).toNat < 2 ^ 31)
  · intro _
    decide

/-- A PUT with one header of one byte: 147 is printed, the identifier, and not 1. -/
theorem byte_header_shows_id :
    ¬ ∀ (env : Env) (s : St) (off : ℕ) (hs : List ObexHeader),
      (s.pull off).buf.bytes = hs.flatMap encode →
      (parseObexHeaders env s off).str =
        s.str ++ obexHeadersPrefix s ++ String.join (hs.map ObexHeader.item) := by
  intro h
  have hb : ((packet [0x02, 0x00, 0x05, 0x93, 0x01]).pull 3).buf.bytes =
      [ObexHeader.byte 0x93 0x01 (by decide)].flatMap encode := by decide
  have e := h (Frame.ofBytes 1 []).env _ 3 _ hb
  rw [parseObexHeaders_printed _ hb] at e
  have hp := (join_printed_iff _).1 ((String.append_right_inj _).1 e) _ (List.mem_singleton_self _)
  exact absurd hp (by decide : ¬ (0x01 : UInt8) = 0x93)

end Irdadump
