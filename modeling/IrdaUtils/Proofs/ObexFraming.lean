import IrdaUtils.Proofs.NetBuf
import IrdaUtils.Sanity.Table
import IrdaUtils.Sanity.Twin
import IrdaUtils.Spec.ObexWire

/-! The header loop cuts the rest of a packet into complete headers, as many as there are.
A length field that is cut off, or too small, makes a header longer than any packet, so what
stands behind the packet has no say in it. -/

namespace Irdadump
open Memory PrefixCode

/-! ### The account of the loop -/

/-- The text that `parse_obex_header` adds. -/
def obexValueText (env : Env) (s : St) (istext : Bool) : String :=
  if s.byte 0 &&& obexHiMask = obexUnicode then obexUnicodeText (env.stack s.buf.len) s
  else if s.byte 0 &&& obexHiMask = obexByteStream then
    if istext then
      if obexStringLen s ≠ 0 then "\"" ++ cString (s.copy 3 (obexStringLen s)) ++ "\" " else ""
    else s!"[{obexStringLen s} bytes] "
  else if s.byte 0 &&& obexHiMask = obexByte then s!"{(s.byte 0).toNat} "
  else s!"{fmtInt32 (s.be32 1)} "

theorem parseObexHeader_text (env : Env) (s : St) (istext : Bool) :
    (parseObexHeader env s istext).2 = s.append (obexValueText env s istext) := by
  unfold parseObexHeader obexValueText
  simp only
  split_ifs <;> rfl

theorem obexItem_eq (env : Env) (s : St) :
    obexItem env s = (obexLabel (s.byte 0)).1 ++ obexValueText env s (obexLabel (s.byte 0)).2 := by
  unfold obexItem obexHeaderStep
  rw [parseObexHeader_text]
  change "" ++ (obexLabel (s.byte 0)).1 ++ obexValueText env s (obexLabel (s.byte 0)).2 = _
  rw [String.empty_append]

theorem obexHeaderStep_text (env : Env) (s : St) :
    (obexHeaderStep env s).2 = s.append (obexItem env s) := by
  rw [obexItem_eq]
  unfold obexHeaderStep
  rw [parseObexHeader_text]
  simp only [St.append, String.append_assoc]
  rfl

theorem obexHeadersLog_next {env : Env} {s : St} (h0 : 0 < s.buf.len)
    (h : obexHeaderLen s.buf ≤ s.buf.len) :
    obexHeadersLog env s =
      (obexItem env s :: (obexHeadersLog env ((s.append (obexItem env s)).pull (obexHeaderLen s.buf))).1,
        (obexHeadersLog env ((s.append (obexItem env s)).pull (obexHeaderLen s.buf))).2) := by
  rw [obexHeadersLog, dif_pos h0]
  simp only [obexHeaderStep_len, obexHeaderStep_text]
  exact dif_neg (Nat.not_lt.2 h)

theorem obexHeadersLog_last {env : Env} {s : St} (h0 : 0 < s.buf.len)
    (h : s.buf.len < obexHeaderLen s.buf) : obexHeadersLog env s = ([obexItem env s], true) := by
  rw [obexHeadersLog, dif_pos h0]
  simp only [obexHeaderStep_buf, obexHeaderStep_len]
  rw [dif_pos h]

theorem obexHeadersLog_done {env : Env} {s : St} (h0 : ¬ 0 < s.buf.len) :
    obexHeadersLog env s = ([], false) := by
  rw [obexHeadersLog, dif_neg h0]

/-- What is on the line already is not looked at. -/
theorem obexHeadersLog_append (env : Env) : ∀ (n : ℕ) (s : St) (t : String), s.buf.len = n →
    obexHeadersLog env (s.append t) = obexHeadersLog env s := by
  intro n
  induction n using Nat.strong_induction_on with
  | _ n ih =>
    intro s t hn
    by_cases h0 : 0 < s.buf.len
    · rcases Nat.lt_or_ge s.buf.len (obexHeaderLen s.buf) with hl | hl
      · rw [obexHeadersLog_last h0 hl, obexHeadersLog_last (s := s.append t) h0 hl]
        rfl
      · have hlt : (s.pull (obexHeaderLen s.buf)).buf.len < n := by
          rw [← hn]
          exact len_pull_lt (Nat.lt_of_lt_of_le Nat.zero_lt_two (two_le_obexHeaderLen s.buf)) hl
        have e := fun t => ih _ hlt (s.pull (obexHeaderLen s.buf)) t rfl
        have h1 := e (obexItem env s)
        have h2 := (ih _ hlt ((s.pull (obexHeaderLen s.buf)).append t) (obexItem env s) rfl).trans (e t)
        rw [obexHeadersLog_next h0 hl, obexHeadersLog_next (s := s.append t) h0 hl]
        exact congrArg (fun r : List String × Bool => (obexItem env s :: r.1, r.2)) (h2.trans h1.symm)
    · rw [obexHeadersLog_done h0, obexHeadersLog_done (s := s.append t) h0]

/-- The loop prints what the account says. -/
theorem obexHeadersLoop_str (env : Env) (s : St) :
    (obexHeadersLoop env s).str = s.str ++ String.join (obexHeadersLog env s).1 ++
      if (obexHeadersLog env s).2 then "\x7bunterminated\x7d " else "" := by
  fun_induction obexHeadersLoop env s with
  | case1 s h0 r h =>
    have hl : s.buf.len < obexHeaderLen s.buf := by
      rwa [obexHeaderStep_buf, obexHeaderStep_len] at h
    rw [obexHeadersLog_last h0 hl]
    change (obexHeaderStep env s).2.str ++ _ = _
    rw [obexHeaderStep_text]
    simp [St.append]
  | case2 s h0 r h _ ih =>
    have hl : obexHeaderLen s.buf ≤ s.buf.len := by
      rw [obexHeaderStep_buf, obexHeaderStep_len] at h
      exact Nat.le_of_not_lt h
    have e : r.2.pull r.1 = (s.append (obexItem env s)).pull (obexHeaderLen s.buf) := by
      rw [obexHeaderStep_len, obexHeaderStep_text]
    rw [ih, e, obexHeadersLog_next h0 hl]
    simp only [String.join_cons, String.append_assoc, St.pull, St.append]
  | case3 s h0 =>
    rw [obexHeadersLog_done h0]
    simp

theorem parseObexHeaders_str (env : Env) (s : St) (off : ℕ) :
    (parseObexHeaders env s off).str = s.str ++ obexHeadersPrefix s ++
      String.join (obexHeadersLog env (s.pull off)).1 ++
      if (obexHeadersLog env (s.pull off)).2 then "\x7bunterminated\x7d " else "" := by
  unfold parseObexHeaders
  simp only
  rw [obexHeadersLoop_str, obexHeadersLog_append env _ _ _ rfl]
  rfl

/-! ### The length of a header -/

theorem byte_of_bytes {b : GNetBuf} {i : ℕ} (h : i < b.len) : b.byte i = b.bytes.getD i 0 := by
  rw [List.getD_eq_getElem _ _ (by rwa [bytes_length])]
  simp only [GNetBuf.bytes, load_getElem, GNetBuf.byte]

/-- The two high bits of an identifier, as ranges. -/
theorem hi_class (hi : UInt8) :
    (hi &&& obexHiMask = obexUnicode ∨ hi &&& obexHiMask = obexByteStream ↔ hi < 0x80) ∧
      (hi &&& obexHiMask = obexByte ↔ 0x80 ≤ hi ∧ hi < 0xc0) ∧
      (hi &&& obexHiMask = obexHiMask ↔ 0xc0 ≤ hi) := by
  have h : ∀ n : Fin 256, (UInt8.ofNat n &&& obexHiMask = obexUnicode ∨
      UInt8.ofNat n &&& obexHiMask = obexByteStream ↔ UInt8.ofNat n < 0x80) ∧
      (UInt8.ofNat n &&& obexHiMask = obexByte ↔ 0x80 ≤ UInt8.ofNat n ∧ UInt8.ofNat n < 0xc0) ∧
      (UInt8.ofNat n &&& obexHiMask = obexHiMask ↔ 0xc0 ≤ UInt8.ofNat n) := by
    decide +kernel
  have hv := h ⟨hi.toNat, hi.toNat_lt⟩
  rwa [UInt8.ofNat_toNat] at hv

theorem obexHeaderLen_eq (b : GNetBuf) : obexHeaderLen b =
    if b.byte 0 < 0x80 then 3 + obexValueLen b else if b.byte 0 < 0xc0 then 2 else 5 := by
  obtain ⟨hlow, hmid, -⟩ := hi_class (b.byte 0)
  unfold obexHeaderLen
  simp only
  by_cases h1 : b.byte 0 < 0x80
  · rw [if_pos h1]
    rcases hlow.2 h1 with h | h
    · rw [if_pos h]
    · rw [if_neg (by rw [h]; decide), if_pos h, Nat.add_comm]
  · have hn := fun h => h1 (hlow.1 h)
    rw [if_neg h1, if_neg fun h => hn (.inl h), if_neg fun h => hn (.inr h)]
    exact if_congr (hmid.trans (and_iff_right (UInt8.not_lt.1 h1))) rfl rfl

theorem be16_of_bytes {b : GNetBuf} (h : 3 ≤ b.len) :
    b.be16 1 = (b.bytes.getD 1 0).toNat * 256 + (b.bytes.getD 2 0).toNat := by
  rw [GNetBuf.be16, byte_of_bytes (by omega), byte_of_bytes (by omega)]

theorem be16_lt (b : GNetBuf) (n : ℕ) : b.be16 n < 2 ^ 16 := by
  have h := (b.byte n).toNat_lt
  have h' := (b.byte (n + 1)).toNat_lt
  unfold GNetBuf.be16
  omega

theorem getD_of_starts {w l : List UInt8} (h : w <+: l) {i : ℕ} (hi : i < w.length) :
    l.getD i 0 = w.getD i 0 := by
  obtain ⟨t, rfl⟩ := h
  exact List.getD_append _ _ _ _ hi

theorem CompleteHeader.pos {w : List UInt8} (hw : CompleteHeader w) : 0 < w.length := by
  unfold CompleteHeader at hw
  split_ifs at hw <;> omega

/-- A complete header in front of the buffer has the length that the program computes. -/
theorem CompleteHeader.len_eq {b : GNetBuf} {w : List UInt8} (hw : CompleteHeader w)
    (hp : w <+: b.bytes) : obexHeaderLen b = w.length := by
  have hle : w.length ≤ b.len := by simpa only [bytes_length] using hp.length_le
  have hpos := hw.pos
  have h0 : b.byte 0 = w.getD 0 0 := by
    rw [byte_of_bytes (by omega), getD_of_starts hp hpos]
  rw [obexHeaderLen_eq, h0]
  unfold CompleteHeader at hw
  by_cases h1 : w.getD 0 0 < 0x80
  · rw [if_pos h1] at hw ⊢
    obtain ⟨h3, hl⟩ := hw
    have hb := be16_of_bytes (b := b) (by omega)
    rw [getD_of_starts hp (by omega), getD_of_starts hp (by omega), hl] at hb
    have hlt := (w.getD 1 0).toNat_lt
    have hlt' := (w.getD 2 0).toNat_lt
    rw [obexValueLen, hb]
    omega
  · rw [if_neg h1] at hw ⊢
    split_ifs at hw ⊢
    · exact hw.symm
    · exact hw.symm

/-- A header that is not longer than the buffer is complete. -/
theorem complete_of_le {b : GNetBuf} (hL : b.len < 2 ^ 16) (hle : obexHeaderLen b ≤ b.len) :
    CompleteHeader (b.bytes.take (obexHeaderLen b)) := by
  have hlen : (b.bytes.take (obexHeaderLen b)).length = obexHeaderLen b := by
    rw [List.length_take, bytes_length, Nat.min_eq_left hle]
  have hpos := two_le_obexHeaderLen b
  have hget : ∀ i < obexHeaderLen b, (b.bytes.take (obexHeaderLen b)).getD i 0 = b.byte i := by
    intro i hi
    have hp : b.bytes.take (obexHeaderLen b) <+: b.bytes := List.take_prefix _ _
    rw [byte_of_bytes (by omega), getD_of_starts hp (by rwa [hlen])]
  have heq := obexHeaderLen_eq b
  unfold CompleteHeader
  rw [hlen, hget 0 (by omega)]
  by_cases h1 : b.byte 0 < 0x80
  · rw [if_pos h1] at heq ⊢
    rw [hget 1 (by omega), hget 2 (by omega)]
    change _ ∧ b.be16 1 = _
    -- a field below 3 has wrapped
    have hlt := be16_lt b 1
    rw [obexValueLen] at heq
    omega
  · rw [if_neg h1] at heq ⊢
    rw [heq]
    split_ifs
    · rfl
    · rfl

theorem completeHeader_prefixFree : PrefixFree CompleteHeader where
  ne_nil := fun w hw => List.ne_nil_of_length_pos hw.pos
  eq_of_starts := by
    intro w w' hw hw' hp
    refine hp.eq_of_length ?_
    have h0 := getD_of_starts hp hw.pos
    unfold CompleteHeader at hw hw'
    rw [h0] at hw'
    by_cases h1 : w.getD 0 0 < 0x80
    · rw [if_pos h1] at hw hw'
      rw [← hw.2, ← hw'.2, getD_of_starts hp (by omega), getD_of_starts hp (by omega)]
    · rw [if_neg h1] at hw hw'
      split_ifs at hw hw'
      · rw [hw, hw']
      · rw [hw, hw']

/-! ### All headers -/

/-- A complete header in front of the buffer is one turn of the loop. -/
theorem log_of_complete (env : Env) {s : St} {w : List UInt8} (hw : CompleteHeader w)
    (hp : w <+: s.buf.bytes) :
    w.length ≤ s.buf.len ∧
      obexHeadersLog env s = (obexItem env s :: (obexHeadersLog env (s.pull w.length)).1,
        (obexHeadersLog env (s.pull w.length)).2) := by
  have hlen := hw.len_eq hp
  have hle : w.length ≤ s.buf.len := by
    rw [← bytes_length]
    exact hp.length_le
  have h0 : 0 < s.buf.len := Nat.lt_of_lt_of_le hw.pos hle
  refine ⟨hle, ?_⟩
  rw [obexHeadersLog_next h0 (by rwa [hlen]), hlen]
  change (obexItem env s :: (obexHeadersLog env ((s.pull w.length).append (obexItem env s))).1,
    (obexHeadersLog env ((s.pull w.length).append (obexItem env s))).2) = _
  rw [obexHeadersLog_append env _ _ _ rfl]

/-- Without a complete header in front, the loop ends at once or with a header that is longer
than the buffer. -/
theorem log_of_none (env : Env) {s : St} (hL : s.buf.len < 2 ^ 16)
    (h : ∀ w, CompleteHeader w → ¬ w <+: s.buf.bytes) :
    (obexHeadersLog env s).1.length = (if s.buf.bytes = [] then 0 else 1) ∧
      (obexHeadersLog env s).2 = decide (s.buf.bytes ≠ []) := by
  have hnil : s.buf.bytes = [] ↔ ¬ 0 < s.buf.len := by
    rw [← List.length_eq_zero_iff, bytes_length]
    omega
  by_cases h0 : 0 < s.buf.len
  · have hne : s.buf.bytes ≠ [] := fun e => hnil.1 e h0
    have hlong : s.buf.len < obexHeaderLen s.buf :=
      Nat.lt_of_not_le fun hle => h _ (complete_of_le hL hle) (List.take_prefix _ _)
    rw [obexHeadersLog_last h0 hlong]
    simp [hne]
  · rw [obexHeadersLog_done h0]
    simp [hnil.2 h0]

/-- The account has one text for each complete header, and one for a header that follows. -/
theorem log_of_splits (env : Env) {hs : List (List UInt8)} {tail : List UInt8} : ∀ {s : St},
    Splits CompleteHeader s.buf.bytes hs tail → s.buf.len < 2 ^ 16 →
    (obexHeadersLog env s).1.length = hs.length + (if tail = [] then 0 else 1) ∧
      (obexHeadersLog env s).2 = decide (tail ≠ []) := by
  induction hs with
  | nil =>
    intro s h hL
    have hb : s.buf.bytes = tail := h.append
    have hnone := log_of_none env hL (by rw [hb]; exact h.stop)
    rw [hb] at hnone
    rwa [List.length_nil, Nat.zero_add]
  | cons w hs ih =>
    intro s h hL
    obtain ⟨hle, hlog⟩ := log_of_complete env (h.words w (by simp)) h.head_starts
    have hnext : Splits CompleteHeader (s.pull w.length).buf.bytes hs tail := by
      rw [pull_bytes hle]
      exact h.tail
    have hL' : (s.pull w.length).buf.len < 2 ^ 16 := by
      rw [St.len_pull hle]
      exact Nat.lt_of_le_of_lt (Nat.sub_le _ _) hL
    obtain ⟨h1, h2⟩ := ih hnext hL'
    rw [hlog]
    refine ⟨?_, h2⟩
    rw [List.length_cons, h1, List.length_cons]
    omega

/-- For every rest of a packet there are complete headers, as many as stand in front of it,
such that the loop visits one header for each, and one more if they are not all of the rest:
that one is unterminated. Nothing else in memory has a say in this. -/
theorem obex_headers_framed (rest : List UInt8) (hL : rest.length ≤ 2050) :
    ∃ hs tail, rest = hs.flatten ++ tail ∧ (∀ h ∈ hs, CompleteHeader h) ∧
      (∀ hs' : List (List UInt8), (∀ h ∈ hs', CompleteHeader h) → hs'.flatten <+: rest → hs' <+: hs) ∧
      (tail = [] ↔ ∃ hs' : List (List UInt8), (∀ h ∈ hs', CompleteHeader h) ∧ rest = hs'.flatten) ∧
      ∀ (env : Env) (s : St) (off : ℕ), (s.pull off).buf.bytes = rest →
        (obexHeadersLog env (s.pull off)).1.length = hs.length + (if tail = [] then 0 else 1) ∧
        (obexHeadersLog env (s.pull off)).2 = decide (tail ≠ []) ∧
        (parseObexHeaders env s off).str = s.str ++ obexHeadersPrefix s ++
          String.join (obexHeadersLog env (s.pull off)).1 ++
          (if tail = [] then "" else "\x7bunterminated\x7d ") := by
  obtain ⟨hs, tail, h⟩ := exists_splits completeHeader_prefixFree rest
  refine ⟨hs, tail, h.append, h.words, fun hs' hw hp => h.longest completeHeader_prefixFree hw hp,
    h.rest_eq_nil_iff completeHeader_prefixFree, ?_⟩
  rintro env s off rfl
  rw [bytes_length] at hL
  obtain ⟨h1, h2⟩ := log_of_splits env h (by omega)
  refine ⟨h1, h2, ?_⟩
  rw [parseObexHeaders_str, h2]
  congr 1
  by_cases ht : tail = []
  · simp [ht]
  · simp [ht]

/-- A PUT with a header of two bytes, and one that is cut in its length field. -/
theorem obex_headers_framed_cut : ∃ hs : List (List UInt8), ∃ tail : List UInt8,
    [0x93, 0x01, 0x46, 0x00] = hs.flatten ++ tail ∧ (∀ h ∈ hs, CompleteHeader h) ∧ ∀ env : Env,
      (obexHeadersLog env ((packet [0x02, 0x00, 0x07, 0x93, 0x01, 0x46, 0x00]).pull 3)).1.length =
        hs.length + (if tail = [] then 0 else 1) := by
  obtain ⟨hs, tail, h1, h2, -, -, h3⟩ := obex_headers_framed [0x93, 0x01, 0x46, 0x00] (by decide)
  refine ⟨hs, tail, h1, h2, fun env => ?_⟩
  exact (h3 env (packet [0x02, 0x00, 0x07, 0x93, 0x01, 0x46, 0x00]) 3 (by decide)).1

end Irdadump
