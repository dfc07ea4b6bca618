import IrdaUtils.Proofs.IrcommParams
import IrdaUtils.Proofs.ObexFraming
import IrdaUtils.Spec.Writes

/-! The copies of texts to arrays of 255 bytes. A text of 255 bytes fills such an array and
its zero byte is written behind it; the lengths come from the frame and are not looked
at. The logs are compared with what the decoders print. -/

namespace Irdadump
open Memory Stores

/-! ### The arrays hold what is printed -/

theorem cString_append_zero (bs rest : List UInt8) : cString (bs ++ 0 :: rest) = cString bs := by
  have h : (bs ++ 0 :: rest).takeWhile (· ≠ 0) = bs.takeWhile (· ≠ 0) := by
    induction bs with
    | nil => simp
    | cons b bs ih =>
      by_cases hb : b = 0
      · simp [hb]
      · rw [List.cons_append, List.takeWhile_cons_of_pos (by simpa using hb),
          List.takeWhile_cons_of_pos (by simpa using hb), ih]
  rw [cString, cString, h]

theorem cString_text (m : Mem) (bs : List UInt8) {k : ℕ} (h : bs.length < k) :
    cString (load (play m (text bs)) 0 k) = cString bs := by
  obtain ⟨j, rfl⟩ := Nat.exists_eq_add_of_lt h
  rw [show bs.length + j + 1 = bs.length + 1 + j by omega, load_add, load_text, List.append_assoc]
  exact cString_append_zero bs _

/-- A store to an array that reads as zero behind its end. -/
theorem getD_set (l : List UInt8) {n : ℕ} {v : UInt8} (h : n < l.length ∨ v = 0) :
    (fun i => (l.set n v).getD i 0) = Function.update (fun i => l.getD i 0) n v := by
  funext i
  by_cases hi : i = n
  · subst hi
    rw [Function.update_self]
    by_cases hl : i < l.length
    · exact getD_set_self l v hl
    · rw [List.getD_eq_default _ _ (by simpa using hl), h.resolve_left hl]
  · rw [Function.update_of_ne hi]
    exact getD_set_ne l v (Ne.symm hi)

theorem copy_lt (s : St) (a : ℕ) (n : UInt8) : (s.copy a n.toNat).length < 256 := by
  rw [St.copy, load_length]
  exact n.toNat_lt

theorem unicodeToCharLog_next {buf : List UInt8} {n : ℕ} (h : buf.getD (n * 2 + 1) 0 ≠ 0) :
    unicodeToCharLog buf n = (n, buf.getD (n * 2 + 1) 0) ::
      unicodeToCharLog (buf.set n (buf.getD (n * 2 + 1) 0)) (n + 1) := by
  rw [unicodeToCharLog, dif_pos h]

theorem unicodeToCharLog_last {buf : List UInt8} {n : ℕ} (h : buf.getD (n * 2 + 1) 0 = 0) :
    unicodeToCharLog buf n = [(n, 0)] := by
  rw [unicodeToCharLog, dif_neg (not_not.2 h)]

theorem unicodeToCharLoop_log (buf : List UInt8) (n : ℕ) :
    (fun i => (unicodeToCharLoop buf n).getD i 0) =
      play (fun i => buf.getD i 0) (unicodeToCharLog buf n) := by
  fun_induction unicodeToCharLoop buf n with
  | case1 buf n h hlt ih =>
    rw [ih, unicodeToCharLog_next h, getD_set buf (Or.inl (by omega))]
    rfl
  | case2 buf n h =>
    rw [unicodeToCharLog_last (not_not.1 h), getD_set buf (Or.inr rfl)]
    rfl

theorem overwrite_log (stack bs : List UInt8) :
    (fun i => (overwrite stack bs).getD i 0) = play (fun i => stack.getD i 0) (copyTo 0 bs) := by
  rw [play_copyTo]
  funext i
  unfold overwrite
  rcases Nat.lt_or_ge i bs.length with h | h
  · rw [List.getD_append _ _ _ _ h, List.getD_eq_getElem _ _ h]
    simpa using (store_inside (m := fun i => stack.getD i 0) (a := 0) h).symm
  · rw [List.getD_append_right _ _ _ _ h, store_outside (Or.inr (by omega))]
    simp only [List.getD_eq_getElem?_getD, List.getElem?_drop]
    rw [Nat.add_sub_cancel' h]

theorem obexValue_length (b : GNetBuf) : (obexValue b).length = obexValueLen b := load_length _ _ _

theorem obexStringLen_eq (s : St) : obexStringLen s = obexValueLen s.buf := by
  unfold obexStringLen obexValueLen
  rfl

def unicodeString (stack : List UInt8) (b : GNetBuf) : List UInt8 :=
  (if obexValueLen b = 0 then stack
    else unicodeToChar (overwrite stack (obexValue b))).set (obexValueLen b) 0

theorem obexUnicodeText_eq (stack : List UInt8) (s : St) :
    obexUnicodeText stack s = "\"" ++ cString (unicodeString stack s.buf) ++ "\" " := by
  have hcopy : s.copy 3 (obexValueLen s.buf) = obexValue s.buf := rfl
  unfold obexUnicodeText unicodeString
  simp only [obexStringLen_eq, hcopy]

theorem obexHeaderLog_unicode (stack : List UInt8) {b : GNetBuf}
    (hhi : b.byte 0 &&& obexHiMask = obexUnicode) :
    obexHeaderLog stack b =
      (if obexValueLen b = 0 then [] else copyTo 0 (obexValue b) ++
        unicodeToCharLog (overwrite stack (obexValue b)) 0) ++ [(obexValueLen b, 0)] := by
  rw [obexHeaderLog, if_pos hhi]

theorem unicodeString_log (stack : List UInt8) (b : GNetBuf)
    (hhi : b.byte 0 &&& obexHiMask = obexUnicode) :
    (fun i => (unicodeString stack b).getD i 0) =
      play (fun i => stack.getD i 0) (obexHeaderLog stack b) := by
  have hlast : ∀ (m : Mem) (n : ℕ), play m [(n, 0)] = Function.update m n 0 := fun _ _ => rfl
  rw [unicodeString, getD_set _ (Or.inr rfl), obexHeaderLog_unicode stack hhi, play_append, hlast]
  by_cases h0 : obexValueLen b = 0
  · rw [if_pos h0, if_pos h0]
    rfl
  · rw [if_neg h0, if_neg h0, unicodeToChar, unicodeToCharLoop_log, overwrite_log, play_append]

theorem obexVisits_next {b : GNetBuf} (h0 : 0 < b.len) (h : obexHeaderLen b ≤ b.len) :
    obexVisits b = b :: obexVisits (b.pull (obexHeaderLen b)) := by
  rw [obexVisits, if_pos h0, dif_pos h]

theorem obexVisits_last {b : GNetBuf} (h0 : 0 < b.len) (h : ¬ obexHeaderLen b ≤ b.len) :
    obexVisits b = [b] := by
  rw [obexVisits, if_pos h0, dif_neg h]

theorem obexVisits_done {b : GNetBuf} (h0 : ¬ 0 < b.len) : obexVisits b = [] := by
  rw [obexVisits, if_neg h0]

theorem obexVisits_printed (env : Env) : ∀ (n : ℕ) (s : St), s.buf.len = n →
    (obexHeadersLog env s).1 = (obexVisits s.buf).map fun b => obexItem env { s with buf := b } := by
  intro n
  induction n using Nat.strong_induction_on with
  | _ n ih =>
    intro s hn
    by_cases h0 : 0 < s.buf.len
    · by_cases hle : obexHeaderLen s.buf ≤ s.buf.len
      · have hlt : (s.pull (obexHeaderLen s.buf)).buf.len < n := by
          rw [← hn]
          exact len_pull_lt (Nat.lt_of_lt_of_le Nat.zero_lt_two (two_le_obexHeaderLen s.buf)) hle
        rw [obexHeadersLog_next h0 hle, obexVisits_next h0 hle, List.map_cons]
        refine congrArg (obexItem env s :: ·) ?_
        refine Eq.trans (congrArg Prod.fst (obexHeadersLog_append env _
          (s.pull (obexHeaderLen s.buf)) (obexItem env s) rfl)) (ih _ hlt _ rfl)
      · rw [obexHeadersLog_last h0 (by omega), obexVisits_last h0 hle]
        rfl
    · rw [obexHeadersLog_done h0, obexVisits_done h0]
      rfl

theorem obexFrameVisits_of_offset {cmd lastCommand : UInt8} {b : GNetBuf} {off : ℕ} (h0 : b.len ≠ 0)
    (ho : obexOffset cmd lastCommand (b.byte 0 &&& ~~~0x80) = some off) :
    obexFrameVisits cmd lastCommand b = obexVisits (b.pull off) := by
  rw [obexFrameVisits, if_neg h0, ho]

/-- The line of a frame with headers has the text of every header that is reached. -/
theorem parseObex_printed (env : Env) (s : St) (cmd : UInt8) {off : ℕ} (h0 : s.buf.len ≠ 0)
    (ho : obexOffset cmd s.dec.lastCommand (s.byte 0 &&& ~~~0x80) = some off) :
    ∃ (s' : St) (front back : String), (parseObex env s cmd).str = front ++ String.join
      ((obexFrameVisits cmd s.dec.lastCommand s.buf).map fun b => obexItem env { s' with buf := b }) ++
        back := by
  have hbehind := behind_parseObex env cmd h0
  rw [ho] at hbehind
  obtain ⟨s', hparse, hbuf⟩ := hbehind
  have hvisits : obexFrameVisits cmd s.dec.lastCommand s.buf = obexVisits (s'.pull off).buf := by
    rw [obexFrameVisits_of_offset h0 ho, ← hbuf]
    rfl
  refine ⟨s'.pull off, s'.str ++ obexHeadersPrefix s',
    if (obexHeadersLog env (s'.pull off)).2 then "\x7bunterminated\x7d " else "", ?_⟩
  rw [hparse, parseObexHeaders_str, obexVisits_printed env _ _ rfl, hvisits]

theorem obexStream_array (env : Env) (m : Mem) (s : St)
    (hs : s.byte 0 &&& obexHiMask = obexByteStream) (hl : (obexLabel (s.byte 0)).2 = true)
    (h0 : obexValueLen s.buf ≠ 0) (stack : List UInt8) :
    (parseObexHeader env s true).2.str = s.str ++
      ("\"" ++ cString (load (play m (obexHeaderLog stack s.buf)) 0 (2 ^ 16)) ++ "\" ") := by
  have hu : ¬ s.byte 0 &&& obexHiMask = obexUnicode := by
    rw [hs]
    decide
  have hlog : obexHeaderLog stack s.buf = text (obexValue s.buf) := by
    rw [obexHeaderLog]
    exact (if_neg hu).trans ((if_pos hs).trans ((if_pos hl).trans (if_pos h0)))
  have hlt : (obexValue s.buf).length < 2 ^ 16 := by
    rw [obexValue_length, obexValueLen]
    exact Nat.mod_lt _ (by omega)
  have hcopy : s.copy 3 (obexValueLen s.buf) = obexValue s.buf := rfl
  rw [hlog, cString_text m _ hlt, parseObexHeader]
  simp only [hs, if_true, obexStringLen_eq, hcopy, h0, ne_eq, not_false_eq_true]
  rfl

theorem parseIriapCommand_arrays (m m' : Mem) (s : St)
    (hop : s.byte 0 &&& ~~~0x80 = getInfoBase ∨ s.byte 0 &&& ~~~0x80 = getValueByClass) :
    ∃ name attr, iriapCommandLogs s = [name, attr] ∧
      (parseIriapCommand s).str = s.str ++ ("GET_VALUE_BY_CLASS: \"" ++
        cString (load (play m name) 0 256) ++ "\" \"" ++ cString (load (play m' attr) 0 256) ++ "\" ") := by
  refine ⟨text (s.copy 2 (s.byte 1).toNat),
    text (s.copy (3 + (s.byte 1).toNat) (s.byte (2 + (s.byte 1).toNat)).toNat), if_pos hop, ?_⟩
  rw [cString_text m _ (copy_lt s 2 _), cString_text m' _ (copy_lt s _ _), parseIriapCommand]
  exact congrArg St.str (if_pos hop)

theorem parseIriasValue_array (m : Mem) (s : St) (ht : s.byte 4 = iasString) :
    ∃ string, iriasValueLogs s = [string] ∧
      (parseIriasValue s).str = s.str ++ ("String: " ++ cString (load (play m string) 0 256) ++ " ") := by
  have hi : ¬ s.byte 4 = iasInteger := by
    rw [ht]
    decide
  refine ⟨text (s.copy 7 (s.byte 6).toNat), ?_, ?_⟩
  · rw [iriasValueLogs]
    exact (if_neg hi).trans (if_pos ht)
  · rw [cString_text m _ (copy_lt s 7 _), parseIriasValue]
    exact congrArg St.str ((if_neg hi).trans (if_pos ht))

/-! ### The copies fit -/

theorem fits_unicodeToCharLog {N : ℕ} (buf : List UInt8) (n : ℕ) :
    Fits N (unicodeToCharLog buf n) ↔ ∃ k, n ≤ k ∧ k < N ∧ buf.getD (k * 2 + 1) 0 = 0 := by
  fun_induction unicodeToCharLog buf n with
  | case1 buf n h hlt ih =>
    -- the stores are behind what is still to be read
    have hget : ∀ k, n + 1 ≤ k → (buf.set n (buf.getD (n * 2 + 1) 0)).getD (k * 2 + 1) 0 =
        buf.getD (k * 2 + 1) 0 := by
      intro k hk
      exact getD_set_ne _ _ (by omega)
    rw [fits_cons, ih]
    constructor
    · rintro ⟨-, k, hk, hkN, hz⟩
      exact ⟨k, by omega, hkN, by rwa [hget k hk] at hz⟩
    · rintro ⟨k, hk, hkN, hz⟩
      have hne : k ≠ n := by
        rintro rfl
        exact h hz
      exact ⟨by simp only; omega, k, by omega, hkN, by rwa [hget k (by omega)]⟩
  | case2 buf n h =>
    rw [fits_cons]
    constructor
    · rintro ⟨hn, -⟩
      exact ⟨n, le_rfl, hn, not_not.1 h⟩
    · rintro ⟨k, hk, hkN, -⟩
      exact ⟨by simp only; omega, fits_nil N⟩

theorem obexHeader_fits_iff (stack : List UInt8) (b : GNetBuf) :
    Fits sizeofText (obexHeaderLog stack b) ↔ ObexTextShort stack b := by
  have hne : obexUnicode ≠ obexByteStream := by decide
  have hlen : (obexValue b).length = obexValueLen b := obexValue_length b
  unfold obexHeaderLog ObexTextShort sizeofText
  generalize obexValueLen b = stringLen at hlen ⊢
  simp only
  by_cases hu : b.byte 0 &&& obexHiMask = obexUnicode
  · simp only [hu, if_true, true_implies, hne, false_implies, and_true, fits_append, fits_cons,
      fits_nil]
    by_cases h0 : stringLen = 0
    · simp [h0, fits_nil]
    · rw [if_neg h0, fits_append, fits_unicodeToCharLog]
      constructor
      · rintro ⟨⟨-, n, -, hn, hz⟩, hlt⟩
        exact ⟨by omega, fun _ => ⟨n, hn, hz⟩⟩
      · rintro ⟨hle, hz⟩
        obtain ⟨n, hn, hz⟩ := hz h0
        exact ⟨⟨fits_copyTo _ (by omega), n, n.zero_le, hn, hz⟩, by omega⟩
  · simp only [hu, if_false, false_implies, true_and]
    by_cases hs : b.byte 0 &&& obexHiMask = obexByteStream
    · by_cases ht : (obexLabel (b.byte 0)).2 = true
      · simp only [hs, ht, if_true, true_implies]
        by_cases h0 : stringLen = 0
        · simp [h0, fits_nil]
        · rw [if_pos h0, fits_text, hlen]
          omega
      · simp [hs, ht, fits_nil]
    · simp [hs, fits_nil]

/-- In a frame that is handed to `parse_obex`, all stores for the headers are below 255
exactly when every header that is reached has a short text. -/
theorem obex_texts_fit_iff (env : Env) (s : St) (cmd : UInt8) :
    (∀ v ∈ obexFrameVisits cmd s.dec.lastCommand s.buf,
      Fits sizeofText (obexHeaderLog (env.stack v.len) v)) ↔
    ∀ v ∈ obexFrameVisits cmd s.dec.lastCommand s.buf, ObexTextShort (env.stack v.len) v :=
  forall₂_congr fun v _ => obexHeader_fits_iff (env.stack v.len) v

def longType : St := packet ([0x02, 0x01, 0x05, 0x42, 0x01, 0x02] ++ List.replicate 255 0x41)

/-- The zero byte behind the type is written at 255. -/
theorem long_type_overruns : ¬ ∀ (env : Env) (s : St) (cmd : UInt8),
    ∀ v ∈ obexFrameVisits cmd s.dec.lastCommand s.buf,
      Fits sizeofText (obexHeaderLog (env.stack v.len) v) := by
  intro h
  have hreached : longType.buf.pull 3 ∈ obexFrameVisits 1 longType.dec.lastCommand longType.buf := by
    have hoff : obexOffset 1 longType.dec.lastCommand (longType.buf.byte 0 &&& ~~~0x80) = some 3 := by
      decide +kernel
    rw [obexFrameVisits_of_offset (by decide +kernel) hoff, obexVisits, if_pos (by decide +kernel)]
    exact List.mem_cons_self
  have hshort := (obexHeader_fits_iff _ _).1 (h (Frame.ofBytes 1 []).env longType 1 _ hreached)
  exact absurd (hshort.2 (by decide +kernel) (by decide +kernel)) (by decide +kernel)

/-! ### IAS -/

theorem text_fits_iff (s : St) (a : ℕ) (n : UInt8) :
    Fits sizeofText (text (s.copy a n.toNat)) ↔ n ≠ 255 := by
  rw [fits_text, St.copy, load_length, sizeofText]
  constructor
  · rintro h rfl
    exact absurd h (by decide)
  · intro h
    have hn : n.toNat ≠ 255 := fun e => h (UInt8.toNat_inj.1 e)
    have := n.toNat_lt
    omega

theorem iriapCommandLogs_fit_iff (s : St) :
    (∀ log ∈ iriapCommandLogs s, Fits sizeofText log) ↔
      (s.byte 0 &&& ~~~0x80 = getInfoBase ∨ s.byte 0 &&& ~~~0x80 = getValueByClass →
        s.byte 1 ≠ 255 ∧ s.byte (2 + (s.byte 1).toNat) ≠ 255) := by
  unfold iriapCommandLogs
  simp only
  by_cases hop : s.byte 0 &&& ~~~0x80 = getInfoBase ∨ s.byte 0 &&& ~~~0x80 = getValueByClass
  · simp only [hop, if_true, true_implies, List.forall_mem_cons, text_fits_iff, List.not_mem_nil,
      false_implies, implies_true, and_true, ne_eq]
  · simp only [hop, if_false, false_implies, List.not_mem_nil, implies_true]

theorem iriapResponseLogs_fit_iff (s : St) :
    (∀ log ∈ iriapResponseLogs s, Fits sizeofText log) ↔
      (s.byte 1 = iasSuccess → (s.pull 2).byte 4 = iasString → (s.pull 2).byte 6 ≠ 255) := by
  unfold iriapResponseLogs iriasValueLogs
  by_cases hr : s.byte 1 = iasSuccess
  · simp only [hr, if_true, true_implies]
    by_cases ht : (s.pull 2).byte 4 = iasString
    · have hi : iasString ≠ iasInteger := by decide
      simp [ht, hi, text_fits_iff]
    · by_cases hi : (s.pull 2).byte 4 = iasInteger
      · have hne : iasInteger ≠ iasString := by decide
        simp [hi, hne]
      · simp [ht, hi]
  · simp [hr]

theorem IasTextsShort.fit {s : St} {slsapSel dlsapSel : UInt8} (h : IasTextsShort s slsapSel dlsapSel) :
    ∀ log ∈ iasLogs s slsapSel dlsapSel, Fits sizeofText log := by
  unfold iasLogs
  split_ifs with hd hs
  · exact (iriapCommandLogs_fit_iff s).2 (h.1 hd)
  · exact (iriapResponseLogs_fit_iff s).2 (h.2 hd hs)
  · exact List.forall_mem_nil _

/-- All stores for a data frame to or from LSAP 0 are below 255 exactly when no length
byte of a text that is copied is 255. -/
theorem ias_texts_fit_iff (s : St) (slsapSel dlsapSel : UInt8) :
    (∀ log ∈ iasLogs s slsapSel dlsapSel, Fits sizeofText log) ↔
      IasTextsShort s slsapSel dlsapSel := by
  refine ⟨fun h => ⟨fun hd => ?_, fun hd hs => ?_⟩, IasTextsShort.fit⟩
  · rw [iasLogs, if_pos hd] at h
    exact (iriapCommandLogs_fit_iff s).1 h
  · rw [iasLogs, if_neg hd, if_pos hs] at h
    exact (iriapResponseLogs_fit_iff s).1 h

def longQuery : St := packet ([0x84, 0xff] ++ List.replicate 255 0x41 ++ [0x00])

theorem long_name_overruns : ¬ ∀ (s : St) (slsapSel dlsapSel : UInt8),
    ∀ log ∈ iasLogs s slsapSel dlsapSel, Fits sizeofText log := by
  intro h
  have hshort := (ias_texts_fit_iff longQuery 0x10 0x00).1 (h longQuery 0x10 0x00)
  exact (hshort.1 rfl (by decide +kernel)).1 (by decide +kernel)

/-! ### All texts of a frame -/

theorem TextSite.Short.fit {t : TextSite} (h : t.Short) : ∀ log ∈ t.logs, Fits sizeofText log := by
  cases t with
  | ias s slsapSel dlsapSel => exact IasTextsShort.fit h
  | obex stack b => exact List.forall_mem_singleton.2 ((obexHeader_fits_iff stack b).2 h)

theorem TextsShort.fit {env : Env} {type : ℤ} {s : St} (h : TextsShort env type s) :
    TextsFit env type s := fun t ht => (h t ht).fit

end Irdadump
