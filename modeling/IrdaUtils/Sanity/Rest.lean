import IrdaUtils.Sanity.Twin

/-! What a parser leaves to the next one: the buffer from its new start on, and the
variables it does not write. -/

namespace Irdadump

theorem buf_parseIrttp (s : St) : (parseIrttp s).buf = s.buf.pull 1 := by
  unfold parseIrttp
  simp only
  split_ifs <;> rfl

theorem buf_parseIrttpConnect (s : St) : (parseIrttpConnect s).buf = ttpConnectRest s.buf := by
  unfold parseIrttpConnect ttpConnectRest
  change (St.pull (if s.byte 0 &&& 0x80 ≠ 0 then _ else _) 1).buf =
    (if s.byte 0 &&& 0x80 ≠ 0 then _ else _ : GNetBuf).pull 1
  split_ifs <;> rfl

theorem buf_parseIriapCommand (s : St) : (parseIriapCommand s).buf = s.buf := by
  unfold parseIriapCommand
  simp only
  split_ifs <;> rfl

theorem buf_ircommParamsLoop (clen : ℕ) (s : St) (n : ℕ) :
    (ircommParamsLoop clen s n).buf = s.buf := by
  fun_induction ircommParamsLoop clen s n with
  | case1 s n hn ih => exact ih
  | case2 s n hn => rfl

theorem buf_parseIrcommParams (clen : UInt8) (s : St) :
    (parseIrcommParams clen s).buf = s.buf.pull clen.toNat := by
  change (ircommParamsLoop clen.toNat s 0).buf.pull clen.toNat = _
  rw [buf_ircommParamsLoop]

/-! A `rfl` about `parse_irias_value` would have the kernel look into the texts. -/

theorem buf_setIas (s : St) (q : IasQuery) : (s.setIas q).buf = s.buf := rfl

theorem command_setIas (s : St) (q : IasQuery) :
    (s.setIas q).dec.lastCommand = s.dec.lastCommand := rfl

theorem buf_append (s : St) (t : String) : (s.append t).buf = s.buf := rfl

theorem dec_append (s : St) (t : String) : (s.append t).dec = s.dec := rfl

theorem buf_parseIriasValue (s : St) :
    (parseIriasValue s).buf =
      if s.byte 4 = iasOctSeq then
        if s.dec.lastIas.ircomm then (s.buf.pull 7).pull (s.byte 6).toNat else s.buf.pull 7
      else s.buf := by
  unfold parseIriasValue
  simp only
  by_cases h1 : s.byte 4 = iasInteger
  · rw [if_pos h1, if_neg (by rw [h1]; decide), buf_setIas, buf_append]
  by_cases h2 : s.byte 4 = iasString
  · rw [if_neg h1, if_pos h2, if_neg (by rw [h2]; decide)]
    rfl
  by_cases h3 : s.byte 4 = iasOctSeq
  · rw [if_neg h1, if_neg h2, if_pos h3, if_pos h3]
    by_cases hi : s.dec.lastIas.ircomm = true
    · rw [if_pos hi, ofNat_be16]
      change (if s.dec.lastIas.ircomm = true then _ else _ : St).buf = _
      rw [if_pos hi, buf_parseIrcommParams]
      rfl
    · rw [if_neg hi]
      change (if s.dec.lastIas.ircomm = true then _ else _ : St).buf = _
      rw [if_neg hi]
      rfl
  · rw [if_neg h1, if_neg h2, if_neg h3, if_neg h3]
    rfl

theorem buf_parseIriapResponse (s : St) :
    (parseIriapResponse s).buf = responseRest s.dec.lastIas.ircomm s.buf := by
  have e : parseIriapResponse s =
      if s.byte 1 = iasSuccess then parseIriasValue ((iriapOpened s).append "Success ")
      else if s.byte 1 = iasClassUnknown then (iriapOpened s).append "No such class "
      else if s.byte 1 = iasAttribUnknown then (iriapOpened s).append "No such attribute "
      else (iriapOpened s).append "Unknown response code " := rfl
  have hbuf := iriapOpened_buf s
  have hdec := iriapOpened_dec s
  rw [e]
  unfold responseRest
  by_cases h1 : s.byte 1 = iasSuccess
  · have hb : ∀ n, ((iriapOpened s).append "Success ").byte n = (s.buf.pull 2).byte n := by
      intro n
      rw [byte_append]
      unfold St.byte
      rw [hbuf]
      rfl
    have h1' : s.buf.byte 1 = iasSuccess := h1
    rw [if_pos h1, buf_parseIriasValue, hb, hb]
    change (if _ then if (iriapOpened s).dec.lastIas.ircomm = true then
      ((iriapOpened s).buf.pull 7).pull _ else (iriapOpened s).buf.pull 7 else (iriapOpened s).buf) = _
    rw [hbuf, hdec]
    by_cases h4 : (s.buf.pull 2).byte 4 = iasOctSeq
    · rw [if_pos h4, if_pos (show s.buf.byte 1 = iasSuccess ∧ _ from ⟨h1', h4⟩)]
    · rw [if_neg h4, if_neg (show ¬ (s.buf.byte 1 = iasSuccess ∧ _) from fun h => h4 h.2)]
  · rw [if_neg h1, if_neg (show ¬ (s.buf.byte 1 = iasSuccess ∧ _) from fun h => h1 h.1)]
    split_ifs <;> exact hbuf

theorem buf_obexHeadersLoop (env : Env) : ∀ (n : ℕ) (s : St), s.buf.len = n →
    (obexHeadersLoop env s).buf = obexHeadersRest s.buf := by
  intro n
  induction n using Nat.strong_induction_on with
  | _ n ih =>
    intro s hn
    rw [obexHeadersRest]
    by_cases h0 : 0 < s.buf.len
    · rw [if_pos h0]
      by_cases hle : obexHeaderLen s.buf ≤ s.buf.len
      · have hlt := len_pull_lt (Nat.lt_of_lt_of_le Nat.zero_lt_two (two_le_obexHeaderLen s.buf)) hle
        have hbuf := obexHeaderStep_pull env s
        rw [dif_pos hle, obexHeadersLoop_next h0 hle, ih _ (by rw [← hn]; exact hlt) _ (by rw [hbuf]),
          hbuf]
      · rw [dif_neg hle, obexHeadersLoop_last h0 (Nat.lt_of_not_le hle)]
        exact obexHeaderStep_buf env s
    · rw [if_neg h0, obexHeadersLoop_done h0]

theorem buf_parseObexHeaders (env : Env) (s : St) (off : ℕ) :
    (parseObexHeaders env s off).buf = obexHeadersRest (s.buf.pull off) :=
  buf_obexHeadersLoop env _ _ rfl

/-- The buffer behind the headers, if the frame has some. -/
def headersRest (b : GNetBuf) : Option ℕ → GNetBuf
  | some off => obexHeadersRest (b.pull off)
  | none => b

/-- The headers in `b` have been parsed, from the offset on, if the frame has some. -/
def BehindHeaders (env : Env) (b : GNetBuf) (s' : St) : Option ℕ → Prop
  | some off => ∃ s, s' = parseObexHeaders env s off ∧ s.buf = b
  | none => s'.buf = b

theorem BehindHeaders.buf {env : Env} {b : GNetBuf} {s' : St} {off : Option ℕ}
    (h : BehindHeaders env b s' off) : s'.buf = headersRest b off := by
  cases off with
  | none => exact h
  | some off =>
    obtain ⟨s, rfl, rfl⟩ := h
    exact buf_parseObexHeaders env s off

theorem behind_parseObexResponse (env : Env) (s : St) (opcode : UInt8) :
    BehindHeaders env s.buf (parseObexResponse env s opcode)
      (obexOffset 0 s.dec.lastCommand opcode) := by
  unfold parseObexResponse obexOffset
  rw [if_pos rfl]
  by_cases h1 : opcode = obexContinue
  · rw [if_pos h1, if_pos h1]
    exact ⟨_, rfl, rfl⟩
  rw [if_neg h1, if_neg h1]
  by_cases h2 : opcode = obexSwitchPro
  · rw [if_pos h2, if_neg (by rw [h2]; decide)]
    rfl
  rw [if_neg h2]
  by_cases h3 : opcode = obexSuccess
  · rw [if_pos h3, if_pos h3]
    unfold parseObexSuccess
    split_ifs
    · exact ⟨_, rfl, rfl⟩
    · exact ⟨_, rfl, rfl⟩
  · rw [if_neg h3, if_neg h3]
    split_ifs <;> rfl

theorem behind_parseObexCommand (env : Env) (s : St) {cmd : UInt8} (hc : cmd ≠ 0) (opcode : UInt8) :
    BehindHeaders env s.buf (parseObexCommand env s opcode)
      (obexOffset cmd s.dec.lastCommand opcode) := by
  unfold parseObexCommand obexOffset
  simp only
  rw [if_neg hc]
  by_cases h1 : opcode = obexConnect
  · subst h1
    rw [if_pos rfl, if_neg (by decide), if_neg (by decide)]
    unfold parseObexConnect
    simp only
    split_ifs <;> rfl
  rw [if_neg h1]
  by_cases h2 : opcode = obexPut
  · rw [if_pos h2, if_pos (Or.inl h2)]
    exact ⟨_, rfl, rfl⟩
  rw [if_neg h2]
  by_cases h3 : opcode = obexGet
  · rw [if_pos h3, if_pos (Or.inr h3)]
    exact ⟨_, rfl, rfl⟩
  have h23 : ¬ (opcode = obexPut ∨ opcode = obexGet) := fun h => h.elim h2 h3
  rw [if_neg h3, if_neg h23]
  by_cases h4 : opcode = obexSetpath
  · subst h4
    exact ⟨_, rfl, rfl⟩
  · rw [if_neg h4]
    split_ifs <;> rfl

theorem behind_parseObex (env : Env) {s : St} (cmd : UInt8) (hl : s.buf.len ≠ 0) :
    BehindHeaders env s.buf (parseObex env s cmd)
      (obexOffset cmd s.dec.lastCommand (s.byte 0 &&& ~~~0x80)) := by
  unfold parseObex
  simp only
  rw [if_neg (show ¬ ((s.enter .obex).append "\n\tOBEX ").buf.len = 0 from hl)]
  by_cases hc : cmd = 0
  · subst hc
    rw [if_pos rfl]
    exact behind_parseObexResponse env ((s.enter .obex).append "\n\tOBEX ") (s.byte 0 &&& ~~~0x80)
  · rw [if_neg hc]
    exact behind_parseObexCommand env ((s.enter .obex).append "\n\tOBEX ") hc (s.byte 0 &&& ~~~0x80)

theorem buf_parseObex (env : Env) (s : St) (cmd : UInt8) :
    (parseObex env s cmd).buf = obexRest cmd s.dec.lastCommand s.buf := by
  have hrest : obexRest cmd s.dec.lastCommand s.buf =
      if s.buf.len = 0 then s.buf
      else headersRest s.buf (obexOffset cmd s.dec.lastCommand (s.byte 0 &&& ~~~0x80)) := by
    unfold obexRest headersRest
    rfl
  rw [hrest]
  by_cases hl : s.buf.len = 0
  · have hempty : parseObex env s cmd = (s.enter .obex).append "\n\tOBEX " := by
      unfold parseObex
      exact if_pos hl
    rw [hempty, if_pos hl]
    rfl
  · rw [if_neg hl]
    exact (behind_parseObex env cmd hl).buf

theorem dec_parseIrttp (s : St) : (parseIrttp s).dec = s.dec := by
  unfold parseIrttp
  simp only
  split_ifs <;> rfl

theorem dec_ircommParamsLoop (clen : ℕ) (s : St) (n : ℕ) :
    (ircommParamsLoop clen s n).dec = s.dec := by
  fun_induction ircommParamsLoop clen s n with
  | case1 s n hn ih => exact ih
  | case2 s n hn => rfl

theorem command_parseIriasValue (s : St) :
    (parseIriasValue s).dec.lastCommand = s.dec.lastCommand := by
  unfold parseIriasValue
  simp only
  split_ifs
  · rw [command_setIas, dec_append]
  · rfl
  · exact congrArg Decoder.lastCommand (dec_ircommParamsLoop _ _ _)
  · rfl
  · rfl

end Irdadump
