import IrdaUtils.Sanity.Tracking
import IrdaUtils.Spec.Fits

/-! Two runs of the decoders side by side. The parsers above LMP look at the buffer, at
`last_ias` and at `last_command`, so two states that agree on these stay together
(`Twin`). If `whole` holds, the buffers agree everywhere; otherwise they agree on the
frame, and the frame has to fit. If `text` holds, the lines are the same as well. -/

namespace Irdadump
open Memory

/-- The states agree on what the upper parsers look at. -/
structure Twin (whole text : Prop) (s s' : St) : Prop where
  len : s'.buf.len = s.buf.len
  bytes : ∀ n, (whole ∨ n < s.buf.len) → s'.byte n = s.byte n
  ias : s'.dec.lastIas = s.dec.lastIas
  command : s'.dec.lastCommand = s.dec.lastCommand
  calls : s'.calls = s.calls
  str : text → s'.str = s.str
  msgs : text → s'.msgs = s.msgs

theorem ite_rel {α : Type} (R : α → α → Prop) {p p' : Prop} [Decidable p] [Decidable p']
    {a b a' b' : α} (hp : p' = p) (h1 : p → R a a') (h2 : ¬ p → R b b') :
    R (if p then a else b) (if p' then a' else b') := by
  subst hp
  by_cases h : p'
  · rw [if_pos h, if_pos h]
    exact h1 h
  · rw [if_neg h, if_neg h]
    exact h2 h

section
variable {whole text : Prop} {s s' : St}

/-! ### Steps -/

theorem Twin.append (h : Twin whole text s s') {t t' : String} (ht : text → t' = t) :
    Twin whole text (s.append t) (s'.append t') :=
  ⟨h.len, h.bytes, h.ias, h.command, h.calls,
    fun hx => by simp only [St.append, h.str hx, ht hx], h.msgs⟩

theorem Twin.print (h : Twin whole text s s') (t : String) :
    Twin whole text (s.print t) (s'.print t) :=
  ⟨h.len, h.bytes, h.ias, h.command, h.calls, h.str,
    fun hx => by simp only [St.print, h.msgs hx]⟩

theorem Twin.pull (h : Twin whole text s s') (k : ℕ) :
    Twin whole text (s.pull k) (s'.pull k) := by
  rcases Nat.lt_or_ge s.buf.len k with hk | hk
  · rw [St.pull_short hk, St.pull_short (by rw [h.len]; exact hk)]
    exact h
  · have hk' : k ≤ s'.buf.len := by rw [h.len]; exact hk
    refine ⟨?_, ?_, h.ias, h.command, h.calls, h.str, h.msgs⟩
    · rw [St.len_pull hk, St.len_pull hk', h.len]
    · intro n hn
      rw [St.byte_pull hk, St.byte_pull hk']
      rw [St.len_pull hk] at hn
      exact h.bytes _ (hn.imp_right fun hn => by omega)

theorem Twin.pullEq (h : Twin whole text s s') {k k' : ℕ} (hk : k' = k) :
    Twin whole text (s.pull k) (s'.pull k') := by
  rw [hk]
  exact h.pull k

theorem Twin.copy (h : Twin whole text s s') {n k : ℕ} (hn : whole ∨ n + k ≤ s.buf.len) :
    s'.copy n k = s.copy n k := by
  refine load_congr fun i hi => ?_
  have e := h.bytes (n + i) (hn.imp_right fun hn => by omega)
  simpa only [St.byte, Nat.add_assoc] using e

theorem Twin.contents (h : Twin whole text s s') : s'.buf.bytes = s.buf.bytes := by
  have e := h.copy (n := 0) (k := s.buf.len) (Or.inr (by omega))
  simpa only [GNetBuf.bytes, h.len, St.copy, Nat.add_zero] using e

theorem Twin.enter (h : Twin whole text s s') (p : Parser) :
    Twin whole text (s.enter p) (s'.enter p) :=
  ⟨h.len, h.bytes, h.ias, h.command, by simp only [St.enter, h.calls, h.contents], h.str, h.msgs⟩

theorem Twin.setIas (h : Twin whole text s s') {q q' : IasQuery} (hq : q' = q) :
    Twin whole text (s.setIas q) (s'.setIas q') :=
  ⟨h.len, h.bytes, hq, h.command, h.calls, h.str, h.msgs⟩

theorem Twin.setCommand (h : Twin whole text s s') (c : UInt8) :
    Twin whole text (s.setCommand c) (s'.setCommand c) :=
  ⟨h.len, h.bytes, h.ias, rfl, h.calls, h.str, h.msgs⟩

/-- A branch on which the two states agree. -/
theorem Twin.ite {p p' : Prop} [Decidable p] [Decidable p'] {a b a' b' : St} (hp : p' = p)
    (h1 : p → Twin whole text a a') (h2 : ¬ p → Twin whole text b b') :
    Twin whole text (if p then a else b) (if p' then a' else b') := ite_rel _ hp h1 h2

/-! ### Reading -/

theorem Twin.be16 (h : Twin whole text s s') {n : ℕ} (hn : whole ∨ n + 2 ≤ s.buf.len) :
    s'.be16 n = s.be16 n := by
  unfold St.be16
  rw [h.bytes n (hn.imp_right fun hn => by omega),
    h.bytes (n + 1) (hn.imp_right fun hn => by omega)]

theorem Twin.be32 (h : Twin whole text s s') {n : ℕ} (hn : whole ∨ n + 4 ≤ s.buf.len) :
    s'.be32 n = s.be32 n := by
  unfold St.be32
  rw [h.be16 (hn.imp_right fun hn => by omega), h.be16 (hn.imp_right fun hn => by omega)]

theorem Twin.le32 (h : Twin whole text s s') {n : ℕ} (hn : whole ∨ n + 4 ≤ s.buf.len) :
    s'.le32 n = s.le32 n := by
  unfold St.le32
  rw [h.copy hn]

/-- Lists that agree up to and with a zero byte have the same string. -/
theorem takeWhile_congr_of_zero : ∀ {l l' : List UInt8} {i : ℕ}, i < l.length → i < l'.length →
    (∀ j ≤ i, l.getD j 0 = l'.getD j 0) → l.getD i 0 = 0 →
    l.takeWhile (· ≠ 0) = l'.takeWhile (· ≠ 0) := by
  intro l
  induction l with
  | nil => intro l' i hi; cases hi
  | cons a l ih =>
    intro l' i hi hi' heq hz
    cases l' with
    | nil => cases hi'
    | cons a' l' =>
      obtain rfl : a = a' := by simpa using heq 0 (Nat.zero_le _)
      by_cases ha : a = 0
      · simp [ha]
      · cases i with
        | zero => exact absurd (by simpa using hz) ha
        | succ i =>
          rw [List.takeWhile_cons_of_pos (by simpa using ha),
            List.takeWhile_cons_of_pos (by simpa using ha)]
          refine congrArg _ (ih (by simpa using hi) (by simpa using hi') ?_ (by simpa using hz))
          intro j hj
          simpa using heq (j + 1) (by omega)

theorem copy_getD (s : St) (n k i : ℕ) (h : i < k) : (s.copy n k).getD i 0 = s.byte (n + i) := by
  rw [List.getD_eq_getElem _ _ (by simpa [St.copy] using h)]
  simp only [St.copy, load_getElem, St.byte, Nat.add_assoc]

theorem Twin.takeWhile (h : Twin whole text s s') {n k : ℕ} (hn : whole ∨ StringFits s.buf n k) :
    (s'.copy n k).takeWhile (· ≠ 0) = (s.copy n k).takeWhile (· ≠ 0) := by
  rcases hn with hw | hn | ⟨i, hi, hlt, hz⟩
  · rw [h.copy (Or.inl hw)]
  · rw [h.copy (Or.inr hn)]
  · refine (takeWhile_congr_of_zero (i := i) (by simpa [St.copy] using hi)
      (by simpa [St.copy] using hi) ?_ ?_).symm
    · intro j hj
      rw [copy_getD _ _ _ _ (by omega), copy_getD _ _ _ _ (by omega), h.bytes _ (Or.inr (by omega))]
    · rw [copy_getD _ _ _ _ hi]
      exact hz

theorem Twin.cString (h : Twin whole text s s') {n k : ℕ} (hn : whole ∨ StringFits s.buf n k) :
    cString (s'.copy n k) = cString (s.copy n k) := by
  unfold Irdadump.cString
  rw [h.takeWhile hn]

/-! ### TinyTP and IrNET -/

theorem twin_parseIrnet (h : Twin whole text s s') :
    Twin whole text (parseIrnet s) (parseIrnet s') := (h.enter .irnet).append fun _ => rfl

theorem twin_parseIrttp (h : Twin whole text s s') (hf : whole ∨ TtpFits s.buf) :
    Twin whole text (parseIrttp s) (parseIrttp s') := by
  have h0 : s'.byte 0 = s.byte 0 := h.bytes 0 hf
  have h1 := (h.enter .irttp).append
    (fun _ => congrArg (fun b : UInt8 => s!"TTP credits={(b &&& 0x7f).toNat} ") h0)
  exact (Twin.ite (congrArg (fun b : UInt8 => b &&& 0x80 ≠ 0) h0)
    (fun _ => h1.append fun _ => rfl) (fun _ => h1)).pull 1

theorem twin_parseIrttpConnect (h : Twin whole text s s') (hf : whole ∨ TtpConnectFits s.buf) :
    Twin whole text (parseIrttpConnect s) (parseIrttpConnect s') := by
  have h0 : s'.byte 0 = s.byte 0 := h.bytes 0 (hf.imp_right And.left)
  have h1 := (h.enter .irttpConnect).append
    (fun _ => congrArg (fun b : UInt8 => s!"TTP credits={(b &&& 0x7f).toNat} ") h0)
  refine (Twin.ite (congrArg (fun b : UInt8 => b &&& 0x80 ≠ 0) h0) (fun hb => ?_)
    (fun _ => h1)).pull 1
  have h6 : whole ∨ 6 ≤ s.buf.len := hf.imp_right fun hf => hf.2 hb
  have hp : s'.byte 1 = s.byte 1 := h.bytes 1 (h6.imp_right fun h6 => by omega)
  have ht : s'.be16 4 = s.be16 4 := h.be16 h6
  exact (h1.pullEq (congrArg UInt8.toNat hp)).append
    (fun _ => congrArg (fun n : ℕ => s!"MaxSduSize={n} ") ht)

/-! ### IrCOMM -/

theorem one_le_ircommParamSize (pi : ℕ) : 1 ≤ ircommParamSize pi := by
  unfold ircommParamSize
  split_ifs <;> omega

theorem ircommParamText_congr (h : Twin whole text s s') {n : ℕ}
    (hn : whole ∨ n + ircommParamSize (s.byte n &&& 0x7f).toNat ≤ s.buf.len) :
    ircommParamText s' n = ircommParamText s n := by
  have hpi := one_le_ircommParamSize (s.byte n &&& 0x7f).toNat
  have h0 : s'.byte n = s.byte n := h.bytes n (hn.imp_right fun hn => by omega)
  -- the bytes of a known value
  have hv : ∀ k, ircommParamSize (s.byte n &&& 0x7f).toNat = k →
      ∀ i < k, s'.byte (n + i) = s.byte (n + i) := by
    intro k hk i hi
    exact h.bytes _ (hn.imp_right fun hn => by omega)
  have hw : ircommParamSize (s.byte n &&& 0x7f).toNat = 6 → s'.be32 (n + 2) = s.be32 (n + 2) :=
    fun hk => h.be32 (hn.imp_right fun hn => by omega)
  unfold ircommParamText
  rw [h0]
  generalize (s.byte n &&& 0x7f).toNat = pi at hv hw
  simp only
  by_cases h1 : pi = serviceTypePi
  · rw [if_pos h1, if_pos h1, hv 3 (by simp [ircommParamSize, h1]) 2 (by omega)]
  rw [if_neg h1, if_neg h1]
  by_cases h2 : pi = portTypePi
  · rw [if_pos h2, if_pos h2, hv 3 (by simp [ircommParamSize, h2]) 2 (by omega)]
  rw [if_neg h2, if_neg h2]
  by_cases h3 : pi = dataRatePi
  · rw [if_pos h3, if_pos h3, hw (by rw [h3]; decide)]
  rw [if_neg h3, if_neg h3]
  by_cases h4 : pi = dataFormatPi
  · rw [if_pos h4, if_pos h4, hv 3 (by simp [ircommParamSize, h4]) 2 (by omega)]
  rw [if_neg h4, if_neg h4]
  by_cases h5 : pi = flowControlPi
  · rw [if_pos h5, if_pos h5, hv 3 (by simp [ircommParamSize, h5]) 2 (by omega)]
  rw [if_neg h5, if_neg h5]
  by_cases h6 : pi = xonXoffCharPi
  · rw [if_pos h6, if_pos h6, hv 4 (by rw [h6]; decide) 2 (by omega),
      hv 4 (by rw [h6]; decide) 3 (by omega)]
  rw [if_neg h6, if_neg h6]
  by_cases h7 : pi = dtelineStatePi
  · rw [if_pos h7, if_pos h7, hv 3 (by simp [ircommParamSize, h7]) 2 (by omega)]
  rw [if_neg h7, if_neg h7]

theorem ircommParamsFit_step {clen n : ℕ} {b : GNetBuf} (hf : IrcommParamsFit clen b n)
    (hn : n < clen) :
    n + ircommParamSize (b.byte n &&& 0x7f).toNat ≤ b.len ∧ (n + 2 < clen → n + 2 ≤ b.len) ∧
      IrcommParamsFit clen b (n + ((b.byte (n + 1)).toNat + 2)) := by
  rw [IrcommParamsFit, if_pos hn] at hf
  exact hf

theorem ircommParamsLoop_done {clen n : ℕ} (s : St) (hn : clen ≤ n) :
    ircommParamsLoop clen s n = s := by
  rw [ircommParamsLoop, if_neg (Nat.not_lt.2 hn)]

theorem twin_ircommParamsLoop (clen : ℕ) (s : St) (n : ℕ) : ∀ s' : St, Twin whole text s s' →
    (whole ∨ IrcommParamsFit clen s.buf n) →
    Twin whole text (ircommParamsLoop clen s n) (ircommParamsLoop clen s' n) := by
  fun_induction ircommParamsLoop clen s n with
  | case1 s n hn ih =>
    intro s' h hf
    have hstep := hf.imp_right fun hf => ircommParamsFit_step hf hn
    have e : ircommParamsLoop clen s' n = ircommParamsLoop clen (s'.append (ircommParamText s' n))
        (n + ((s'.byte (n + 1)).toNat + 2)) := by
      rw [ircommParamsLoop, if_pos hn]
    have h1 := h.append fun _ => ircommParamText_congr h (hstep.imp_right And.left)
    rw [e]
    by_cases h2 : n + 2 < clen
    · have hp : s'.byte (n + 1) = s.byte (n + 1) :=
        h.bytes _ (hstep.imp_right fun hs => by have := hs.2.1 h2; omega)
      rw [hp]
      exact ih _ h1 (hstep.imp_right fun hs => hs.2.2)
    · rw [ircommParamsLoop_done _ (by omega), ircommParamsLoop_done _ (by omega)]
      exact h1
  | case2 s n hn =>
    intro s' h _
    rw [ircommParamsLoop_done _ (Nat.not_lt.1 hn)]
    exact h

theorem twin_parseIrcommParams (h : Twin whole text s s') {clen clen' : UInt8} (hc : clen' = clen)
    (hf : whole ∨ IrcommParamsFit clen.toNat s.buf 0) :
    Twin whole text (parseIrcommParams clen s) (parseIrcommParams clen' s') := by
  subst hc
  exact (twin_ircommParamsLoop _ _ _ _ h hf).pull _

theorem twin_parseIrcommTtp (h : Twin whole text s s') (hf : whole ∨ IrcommTtpFits s.buf) :
    Twin whole text (parseIrcommTtp s) (parseIrcommTtp s') := by
  have he := h.enter .ircommTtp
  refine Twin.ite (congrArg (· = 0) h.len) (fun _ => he) fun hl => ?_
  have h0 : s'.byte 0 = s.byte 0 := h.bytes 0 (Or.inr (Nat.pos_of_ne_zero hl))
  refine Twin.ite (congrArg (· ≠ 0) h0) (fun _ => ?_) (fun _ => (he.pull 1).append fun _ => rfl)
  exact twin_parseIrcommParams ((he.pull 1).append fun _ => rfl) h0
    (hf.imp_right fun hf => hf hl)

theorem twin_parseIrcommConnect (h : Twin whole text s s') (hf : whole ∨ IrcommTtpFits s.buf) :
    Twin whole text (parseIrcommConnect s) (parseIrcommConnect s') :=
  twin_parseIrcommTtp (h.enter .ircommConnect) hf

theorem twin_parseIrcommLmp (h : Twin whole text s s') :
    Twin whole text (parseIrcommLmp s) (parseIrcommLmp s') :=
  (h.enter .ircommLmp).append fun _ => rfl

/-! ### IAS -/

theorem byte_enter (s : St) (p : Parser) (n : ℕ) : (s.enter p).byte n = s.byte n := rfl

theorem copy_enter (s : St) (p : Parser) (n k : ℕ) : (s.enter p).copy n k = s.copy n k := rfl

theorem strstr_congr {hay hay' : List UInt8}
    (h : hay'.takeWhile (· ≠ 0) = hay.takeWhile (· ≠ 0)) (needle : String) :
    strstr hay' needle = strstr hay needle := by
  unfold strstr
  rw [h]

theorem ofNat_be16 (s : St) (n : ℕ) : UInt8.ofNat (s.be16 n) = s.byte (n + 1) := by
  apply UInt8.toNat_inj.1
  have := (s.byte (n + 1)).toNat_lt
  simp only [St.be16, UInt8.toNat_ofNat']
  omega

theorem twin_parseIriapCommand (h : Twin whole text s s') (hf : whole ∨ QueryFits s.buf) :
    Twin whole text (parseIriapCommand s) (parseIriapCommand s') := by
  have he := h.enter .iriapCommand
  have h0 : s'.byte 0 = s.byte 0 := h.bytes 0 (hf.imp_right And.left)
  refine Twin.ite (congrArg (fun b : UInt8 => b &&& ~~~0x80 = getInfoBase ∨
    b &&& ~~~0x80 = getValueByClass) h0) (fun hop => ?_) (fun _ => he)
  have hq : whole ∨ 2 ≤ s.buf.len ∧ 2 + (s.byte 1).toNat < s.buf.len ∧
      StringFits s.buf (3 + (s.byte 1).toNat) (s.byte (2 + (s.byte 1).toNat)).toNat :=
    hf.imp_right fun hf => hf.2 hop
  have h1 : s'.byte 1 = s.byte 1 := h.bytes 1 (hq.imp_right And.left)
  have h2 : s'.byte (2 + (s.byte 1).toNat) = s.byte (2 + (s.byte 1).toNat) :=
    h.bytes _ (hq.imp_right fun hq => hq.2.1)
  have hname : s'.copy 2 (s.byte 1).toNat = s.copy 2 (s.byte 1).toNat :=
    h.copy (hq.imp_right fun hq => Nat.le_of_lt hq.2.1)
  have hattr := hq.imp_right fun hq => hq.2.2
  refine (he.append fun _ => ?_).setIas ?_
  · simp only [byte_enter, copy_enter, h1, h2, hname, h.cString hattr]
  · simp only [byte_enter, copy_enter, h1, h2, hname, iasLookup, strstr_congr (h.takeWhile hattr)]

theorem twin_parseIriasValue (h : Twin whole text s s')
    (hf : whole ∨ ValueFits s.dec.lastIas.ircomm s.buf) :
    Twin whole text (parseIriasValue s) (parseIriasValue s') := by
  have h4 : s'.byte 4 = s.byte 4 := h.bytes 4 (hf.imp_right And.left)
  refine Twin.ite (congrArg (· = iasInteger) h4) (fun hi => ?_) fun _ =>
    Twin.ite (congrArg (· = iasString) h4) (fun hs => ?_) fun _ =>
    Twin.ite (congrArg (· = iasOctSeq) h4) (fun ho => ?_) fun _ => h.print _
  · have hv : s'.be32 5 = s.be32 5 := h.be32 (hf.imp_right fun hf => hf.2.1 hi)
    refine (h.append (fun _ => congrArg (fun n : ℕ => s!"Integer: {fmtX 2 n} ") hv)).setIas ?_
    change ({ s'.dec.lastIas with lsapSel := UInt8.ofNat (s'.be32 5) } : IasQuery) =
      { s.dec.lastIas with lsapSel := UInt8.ofNat (s.be32 5) }
    rw [hv, h.ias]
  · have h7 : whole ∨ 7 ≤ s.buf.len ∧ StringFits s.buf 7 (s.byte 6).toNat :=
      hf.imp_right fun hf => hf.2.2.1 hs
    have h6 : s'.byte 6 = s.byte 6 := h.bytes 6 (h7.imp_right And.left)
    refine h.append fun _ => ?_
    rw [h6, h.cString (h7.imp_right And.right)]
  · refine Twin.ite (congrArg (fun q : IasQuery => q.ircomm = true) h.ias) (fun hc => ?_)
      fun _ => (h.pull 7).append fun _ => rfl
    have h7 := hf.imp_right fun hf => hf.2.2.2 ho hc
    have h6 : s'.byte 6 = s.byte 6 := h.bytes 6 (h7.imp_right And.left)
    refine twin_parseIrcommParams (((h.pull 7).append fun _ => rfl).enter _) ?_ ?_
    · rw [ofNat_be16, ofNat_be16, h6]
    · rw [ofNat_be16]
      exact h7.imp_right And.right

/-- A response behind the message for its opcode. -/
def iriapOpened (s : St) : St :=
  if s.byte 0 &&& ~~~0x80 = getInfoBase then
    ((s.enter .iriapResponse).pull 2).print
      "parse_iriap_response() Sorry, GET_INFO_BASE not implemented!\n"
  else if s.byte 0 &&& ~~~0x80 = getValueByClass then
    ((s.enter .iriapResponse).pull 2).append "GET_VALUE_BY_CLASS: "
  else ((s.enter .iriapResponse).pull 2).print "parse_iriap_response() Sorry, not implemented!\n"

theorem iriapOpened_buf (s : St) : (iriapOpened s).buf = s.buf.pull 2 := by
  unfold iriapOpened
  split_ifs <;> rfl

theorem iriapOpened_dec (s : St) : (iriapOpened s).dec = s.dec := by
  unfold iriapOpened
  split_ifs <;> rfl

theorem twin_iriapOpened (h : Twin whole text s s') (h0 : s'.byte 0 = s.byte 0) :
    Twin whole text (iriapOpened s) (iriapOpened s') := by
  have he := (h.enter .iriapResponse).pull 2
  exact Twin.ite (congrArg (fun b : UInt8 => b &&& ~~~0x80 = getInfoBase) h0)
    (fun _ => he.print _) fun _ =>
    Twin.ite (congrArg (fun b : UInt8 => b &&& ~~~0x80 = getValueByClass) h0)
      (fun _ => he.append fun _ => rfl) (fun _ => he.print _)

theorem twin_parseIriapResponse (h : Twin whole text s s')
    (hf : whole ∨ ResponseFits s.dec.lastIas.ircomm s.buf) :
    Twin whole text (parseIriapResponse s) (parseIriapResponse s') := by
  have h0 : s'.byte 0 = s.byte 0 :=
    h.bytes 0 (hf.imp_right fun hf => Nat.lt_of_lt_of_le Nat.two_pos hf.1)
  have h1 : s'.byte 1 = s.byte 1 := h.bytes 1 (hf.imp_right And.left)
  have hm := twin_iriapOpened h h0
  refine Twin.ite (congrArg (· = iasSuccess) h1) (fun hs => ?_) fun _ =>
    Twin.ite (congrArg (· = iasClassUnknown) h1) (fun _ => hm.append fun _ => rfl) fun _ =>
    Twin.ite (congrArg (· = iasAttribUnknown) h1) (fun _ => hm.append fun _ => rfl) fun _ =>
      hm.append fun _ => rfl
  refine twin_parseIriasValue (hm.append fun _ => rfl) (hf.imp_right fun hf => ?_)
  change ValueFits (iriapOpened s).dec.lastIas.ircomm (iriapOpened s).buf
  rw [iriapOpened_buf, iriapOpened_dec]
  exact hf.2 hs

/-! ### OBEX -/

theorem getD_set_ne (l : List UInt8) {i j : ℕ} (b : UInt8) (h : i ≠ j) :
    (l.set i b).getD j 0 = l.getD j 0 := by
  simp only [List.getD_eq_getElem?_getD, List.getElem?_set_ne h]

theorem getD_set_self (l : List UInt8) {i : ℕ} (b : UInt8) (h : i < l.length) :
    (l.set i b).getD i 0 = b := by
  simp [List.getD_eq_getElem?_getD, h]

/-- The narrowing moves the low bytes from index `n` to the zero at index `k` forward. -/
theorem unicodeToCharLoop_spec (buf : List UInt8) (n : ℕ) : ∀ k, n ≤ k → k * 2 + 1 < buf.length →
    buf.getD (k * 2 + 1) 0 = 0 → (∀ j, n ≤ j → j < k → buf.getD (j * 2 + 1) 0 ≠ 0) →
    (unicodeToCharLoop buf n).length = buf.length ∧
      (∀ i < n, (unicodeToCharLoop buf n).getD i 0 = buf.getD i 0) ∧
      ∀ i, n ≤ i → i ≤ k → (unicodeToCharLoop buf n).getD i 0 = buf.getD (i * 2 + 1) 0 := by
  fun_induction unicodeToCharLoop buf n with
  | case1 buf n hne hlt ih =>
    intro k hnk hk hz hmin
    have hlt' : n < k := by
      refine Nat.lt_of_le_of_ne hnk fun e => hne ?_
      rw [e]
      exact hz
    obtain ⟨h1, h2, h3⟩ := ih k hlt' (by simpa using hk) (by rw [getD_set_ne _ _ (by omega)]; exact hz)
      (fun j hj hjk => by rw [getD_set_ne _ _ (by omega)]; exact hmin j (by omega) hjk)
    refine ⟨by simpa using h1, ?_, ?_⟩
    · intro i hi
      rw [h2 i (by omega), getD_set_ne _ _ (by omega)]
    · intro i hni hik
      rcases Nat.eq_or_lt_of_le hni with e | hlt''
      · rw [← e, h2 n (Nat.lt_succ_self n), getD_set_self _ _ (by omega)]
      · rw [h3 i hlt'' hik, getD_set_ne _ _ (by omega)]
  | case2 buf n hz' =>
    intro k hnk hk hz hmin
    have e : n = k := by
      refine Nat.le_antisymm hnk (Nat.le_of_not_lt fun hlt => ?_)
      exact hz' (hmin n (Nat.le_refl n) hlt)
    subst e
    refine ⟨by simp, ?_, ?_⟩
    · intro i hi
      exact getD_set_ne _ _ (by omega)
    · intro i hni hin
      obtain rfl : i = n := by omega
      rw [getD_set_self _ _ (by omega), hz]

theorem overwrite_getD (array bs : List UInt8) {i : ℕ} (h : i < bs.length) :
    (overwrite array bs).getD i 0 = bs.getD i 0 := by
  simp [overwrite, List.getD_eq_getElem?_getD, List.getElem?_append_left h]

/-- The string of a Unicode value that ends at its `k`-th character. -/
theorem unicode_string {a : List UInt8} {k len : ℕ} (hk : k * 2 + 1 < a.length) (hlen : k < len)
    (hz : a.getD (k * 2 + 1) 0 = 0) (hmin : ∀ j < k, a.getD (j * 2 + 1) 0 ≠ 0) :
    k < ((unicodeToChar a).set len 0).length ∧
      ∀ j ≤ k, ((unicodeToChar a).set len 0).getD j 0 = a.getD (j * 2 + 1) 0 := by
  obtain ⟨h1, -, h3⟩ := unicodeToCharLoop_spec a 0 k (Nat.zero_le k) hk hz
    (fun j _ hj => hmin j hj)
  refine ⟨?_, ?_⟩
  · rw [List.length_set, unicodeToChar, h1]
    omega
  · intro j hj
    rw [← h3 j (Nat.zero_le j) hj, unicodeToChar]
    exact getD_set_ne _ _ (by omega)

theorem obexStringLen_congr (h : Twin whole text s s') (hf : whole ∨ 3 ≤ s.buf.len) :
    obexStringLen s' = obexStringLen s := by
  unfold obexStringLen
  rw [h.be16 hf]

theorem cString_set_zero (l : List UInt8) : cString (l.set 0 0) = "" := by
  cases l <;> rfl

theorem obexUnicodeText_congr (h : Twin whole text s s') (hf : 3 ≤ s.buf.len ∧ UnicodeFits s.buf)
    (stack stack' : List UInt8) : obexUnicodeText stack' s' = obexUnicodeText stack s := by
  have hlen : obexStringLen s' = obexStringLen s := obexStringLen_congr h (Or.inr hf.1)
  unfold obexUnicodeText
  simp only [hlen]
  by_cases h0 : obexStringLen s = 0
  · rw [if_pos h0, if_pos h0, h0, cString_set_zero, cString_set_zero]
  rw [if_neg h0, if_neg h0]
  have hex := hf.2 h0
  classical
  obtain ⟨hk, hin, hz⟩ := Nat.find_spec hex
  have hmin := fun j (hj : j < Nat.find hex) => Nat.find_min hex hj
  generalize Nat.find hex = k at hk hin hz hmin
  change k * 2 + 1 < obexStringLen s at hk
  -- the copied part of both arrays is the value, up to the character that ends it
  have hcopy : ∀ (u : St) (array : List UInt8) (i : ℕ), i < obexStringLen s →
      (overwrite array (u.copy 3 (obexStringLen s))).getD i 0 = u.byte (3 + i) := by
    intro u array i hi
    rw [overwrite_getD _ _ (by simpa [St.copy] using hi), copy_getD _ _ _ _ hi]
  have hlong : ∀ (u : St) (array : List UInt8),
      k * 2 + 1 < (overwrite array (u.copy 3 (obexStringLen s))).length := by
    intro u array
    simp only [overwrite, List.length_append, St.copy, load_length]
    omega
  have hb : ∀ j ≤ k, s'.byte (3 + (j * 2 + 1)) = s.byte (3 + (j * 2 + 1)) := fun j hj =>
    h.bytes _ (Or.inr (by omega))
  have hne : ∀ j < k, s.byte (3 + (j * 2 + 1)) ≠ 0 := fun j hj e =>
    hmin j hj ⟨by change j * 2 + 1 < obexStringLen s; omega, by omega, e⟩
  obtain ⟨h1, h2⟩ := unicode_string (hlong s stack) (show k < obexStringLen s by omega)
    (by rw [hcopy s stack _ hk]; exact hz)
    (fun j hj => by rw [hcopy s stack _ (by omega)]; exact hne j hj)
  obtain ⟨h1', h2'⟩ := unicode_string (hlong s' stack') (show k < obexStringLen s by omega)
    (by rw [hcopy s' stack' _ hk, hb k (Nat.le_refl k)]; exact hz)
    (fun j hj => by rw [hcopy s' stack' _ (by omega), hb j (Nat.le_of_lt hj)]; exact hne j hj)
  have e : cString ((unicodeToChar (overwrite stack' (s'.copy 3 (obexStringLen s)))).set
      (obexStringLen s) 0) = cString ((unicodeToChar (overwrite stack (s.copy 3
      (obexStringLen s)))).set (obexStringLen s) 0) := by
    unfold cString
    rw [takeWhile_congr_of_zero h1' h1]
    · intro j hj
      rw [h2' j hj, h2 j hj, hcopy s' stack' _ (by omega), hcopy s stack _ (by omega), hb j hj]
    · rw [h2' k (Nat.le_refl k), hcopy s' stack' _ hk, hb k (Nat.le_refl k)]
      exact hz
  rw [e]

/-- Two headers of the same length, with the states behind them. -/
def HeaderTwin (whole text : Prop) (r r' : ℕ × St) : Prop :=
  r'.1 = r.1 ∧ Twin whole text r.2 r'.2

theorem obexHeaderStep_len (env : Env) (s : St) :
    (obexHeaderStep env s).1 = obexHeaderLen s.buf := by
  unfold obexHeaderStep parseObexHeader obexHeaderLen
  simp only
  change (if s.byte 0 &&& obexHiMask = obexUnicode then _ else if s.byte 0 &&& obexHiMask =
    obexByteStream then _ else if s.byte 0 &&& obexHiMask = obexByte then _ else _ : ℕ × St).1 = _
  change _ = if s.byte 0 &&& obexHiMask = obexUnicode then _ else if s.byte 0 &&& obexHiMask =
    obexByteStream then _ else if s.byte 0 &&& obexHiMask = obexByte then _ else _
  split_ifs <;> rfl

theorem twin_obexHeaderStep (hwt : whole → ¬ text) (env env' : Env) (h : Twin whole text s s')
    (hl : 0 < s.buf.len) (hf : whole ∨ ObexHeaderFits s.buf) :
    HeaderTwin whole text (obexHeaderStep env s) (obexHeaderStep env' s') := by
  have h0 : s'.byte 0 = s.byte 0 := h.bytes 0 (Or.inr hl)
  have h1 : Twin whole text (s.append (obexLabel (s.byte 0)).1) (s'.append (obexLabel (s'.byte 0)).1) :=
    h.append fun _ => by rw [h0]
  have hlab : (obexLabel (s'.byte 0)).2 = (obexLabel (s.byte 0)).2 := by rw [h0]
  unfold ObexHeaderFits at hf
  simp only at hf
  change whole ∨ (if s.byte 0 &&& obexHiMask = obexUnicode then _ else if s.byte 0 &&& obexHiMask =
    obexByteStream then _ else if s.byte 0 &&& obexHiMask = obexByte then _ else _) at hf
  refine ite_rel _ (congrArg (fun b : UInt8 => b &&& obexHiMask = obexUnicode) h0) (fun hi => ?_)
    fun hn => ite_rel _ (congrArg (fun b : UInt8 => b &&& obexHiMask = obexByteStream) h0)
    (fun hi => ?_) fun hn' => ite_rel _
    (congrArg (fun b : UInt8 => b &&& obexHiMask = obexByte) h0) (fun _ => ?_) fun hn'' => ?_
  · rw [byte_append] at hi
    rw [if_pos hi] at hf
    refine ⟨congrArg (3 + ·) (obexStringLen_congr h1 (hf.imp_right And.left)), h1.append fun ht => ?_⟩
    -- the stack is not in the text: the value ends inside the frame
    exact obexUnicodeText_congr h1 (hf.resolve_left fun hw => hwt hw ht) _ _
  · rw [byte_append] at hn hi
    rw [if_neg hn, if_pos hi] at hf
    have hlen := obexStringLen_congr h (hf.imp_right And.left)
    refine ⟨congrArg (· + 3) hlen, h1.append fun ht => ?_⟩
    refine ite_rel (fun a b => b = a) (congrArg (· = true) hlab) (fun htext => ?_)
      fun _ => congrArg (fun n : ℕ => s!"[{n} bytes] ") hlen
    refine ite_rel (fun a b => b = a) (congrArg (· ≠ 0) hlen) (fun _ => ?_) fun _ => rfl
    have hc := h.cString (hf.imp_right fun hf => hf.2 htext)
    change "\"" ++ cString (s'.copy 3 (obexStringLen s')) ++ "\" " =
      "\"" ++ cString (s.copy 3 (obexStringLen s)) ++ "\" "
    rw [hlen]
    exact congrArg (fun t => "\"" ++ t ++ "\" ") hc
  · exact ⟨rfl, h1.append fun _ => congrArg (fun b : UInt8 => s!"{b.toNat} ") h0⟩
  · rw [byte_append] at hn hn' hn''
    rw [if_neg hn, if_neg hn', if_neg hn''] at hf
    exact ⟨rfl, h1.append fun _ => congrArg (fun n : ℕ => s!"{fmtInt32 n} ") (h.be32 hf)⟩

theorem obexHeaderStep_pull (env : Env) (s : St) :
    ((obexHeaderStep env s).2.pull (obexHeaderLen s.buf)).buf = s.buf.pull (obexHeaderLen s.buf) := by
  simp only [St.pull, obexHeaderStep_buf]
  rfl

theorem obexHeadersLoop_next {env : Env} {s : St} (h0 : 0 < s.buf.len)
    (h : obexHeaderLen s.buf ≤ s.buf.len) :
    obexHeadersLoop env s =
      obexHeadersLoop env ((obexHeaderStep env s).2.pull (obexHeaderLen s.buf)) := by
  rw [obexHeadersLoop, dif_pos h0]
  simp only [obexHeaderStep_buf, obexHeaderStep_len]
  rw [dif_neg (Nat.not_lt.2 h)]

theorem obexHeadersLoop_last {env : Env} {s : St} (h0 : 0 < s.buf.len)
    (h : s.buf.len < obexHeaderLen s.buf) :
    obexHeadersLoop env s = (obexHeaderStep env s).2.append "\x7bunterminated\x7d " := by
  rw [obexHeadersLoop, dif_pos h0]
  simp only [obexHeaderStep_buf, obexHeaderStep_len]
  rw [dif_pos h]

theorem obexHeadersLoop_done {env : Env} {s : St} (h0 : ¬ 0 < s.buf.len) :
    obexHeadersLoop env s = s := by
  rw [obexHeadersLoop, dif_neg h0]

theorem obexHeadersFit_step {b : GNetBuf} (hf : ObexHeadersFit b) (h0 : 0 < b.len) :
    ObexHeaderFits b ∧ (obexHeaderLen b ≤ b.len → ObexHeadersFit (b.pull (obexHeaderLen b))) := by
  rw [ObexHeadersFit, if_pos h0] at hf
  refine ⟨hf.1, fun h => ?_⟩
  have := hf.2
  rw [dif_pos h] at this
  exact this

theorem twin_obexHeadersLoop (hwt : whole → ¬ text) (env env' : Env) : ∀ (n : ℕ) (s s' : St),
    s.buf.len = n → Twin whole text s s' → (whole ∨ ObexHeadersFit s.buf) →
    Twin whole text (obexHeadersLoop env s) (obexHeadersLoop env' s') := by
  intro n
  induction n using Nat.strong_induction_on with
  | _ n ih =>
    intro s s' hn h hf
    by_cases h0 : 0 < s.buf.len
    · have hstep := hf.imp_right fun hf => obexHeadersFit_step hf h0
      have h0' : 0 < s'.buf.len := by rw [h.len]; exact h0
      obtain ⟨hlen, h1⟩ := twin_obexHeaderStep hwt env env' h h0
        (hstep.imp_right And.left)
      rw [obexHeaderStep_len, obexHeaderStep_len] at hlen
      by_cases hle : obexHeaderLen s.buf ≤ s.buf.len
      · rw [obexHeadersLoop_next h0 hle, obexHeadersLoop_next h0' (by rw [hlen, h.len]; exact hle), hlen]
        have hlt := len_pull_lt (Nat.lt_of_lt_of_le Nat.zero_lt_two (two_le_obexHeaderLen s.buf)) hle
        have hbuf := obexHeaderStep_pull env s
        refine ih _ (by rw [← hn]; exact hlt) _ _ (by rw [hbuf]) (h1.pull _) ?_
        rw [hbuf]
        exact hstep.imp_right fun hs => hs.2 hle
      · rw [obexHeadersLoop_last h0 (Nat.lt_of_not_le hle),
          obexHeadersLoop_last h0' (by rw [hlen, h.len]; exact Nat.lt_of_not_le hle)]
        exact h1.append fun _ => rfl
    · rw [obexHeadersLoop_done h0, obexHeadersLoop_done (by rw [h.len]; exact h0)]
      exact h

theorem twin_parseObexHeaders (hwt : whole → ¬ text) (env env' : Env) (h : Twin whole text s s')
    {off : ℕ} (h3 : 3 ≤ off) (hf : whole ∨ off ≤ s.buf.len ∧ ObexHeadersFit (s.buf.pull off)) :
    Twin whole text (parseObexHeaders env s off) (parseObexHeaders env' s' off) := by
  have h0 : s'.byte 0 = s.byte 0 := h.bytes 0 (hf.imp_right fun hf => by have := hf.1; omega)
  have h1 : s'.be16 1 = s.be16 1 := h.be16 (hf.imp_right fun hf => by have := hf.1; omega)
  refine twin_obexHeadersLoop hwt env env' _ _ _ rfl ((h.pull off).append fun _ => ?_)
    (hf.imp_right And.right)
  rw [h0, h1]

theorem twin_parseObexConnect (h : Twin whole text s s')
    (hf : whole ∨ 3 ≤ s.buf.len ∧ (s.be16 1 = 7 → 7 ≤ s.buf.len)) :
    Twin whole text (parseObexConnect s) (parseObexConnect s') := by
  have h1 : s'.be16 1 = s.be16 1 := h.be16 (hf.imp_right And.left)
  refine Twin.ite (congrArg (· = 7) h1) (fun h7 => h.append fun _ => ?_) fun _ =>
    h.append fun _ => congrArg (fun n : ℕ => s!"CONNECT len={n} ") h1
  have hl := hf.imp_right fun hf => hf.2 h7
  have h3 : s'.byte 3 = s.byte 3 := h.bytes 3 (hl.imp_right fun hl => by omega)
  have h4 : s'.byte 4 = s.byte 4 := h.bytes 4 (hl.imp_right fun hl => by omega)
  have h5 : s'.be16 5 = s.be16 5 := h.be16 hl
  rw [h1, h3, h4, h5]

/-- The headers of a frame, wherever they start. -/
def HeadersAt (s : St) (o : Option ℕ) : Prop :=
  ∀ off, o = some off → off ≤ s.buf.len ∧ ObexHeadersFit (s.buf.pull off)

theorem twin_parseObexSuccess (hwt : whole → ¬ text) (env env' : Env) (h : Twin whole text s s')
    (lastCmd : UInt8)
    (hf : whole ∨ HeadersAt s (if lastCmd = obexConnect then some sizeofObexConnectFrame
      else some sizeofObexMinimalFrame)) :
    Twin whole text (parseObexSuccess env s lastCmd) (parseObexSuccess env' s' lastCmd) := by
  refine Twin.ite rfl (fun hc => ?_) fun hc => ?_
  · have hf := hf.imp_right fun hf => hf 7 (if_pos hc)
    have h1 : s'.be16 1 = s.be16 1 := h.be16 (hf.imp_right fun hf => by have := hf.1; omega)
    have h3 : s'.byte 3 = s.byte 3 := h.bytes 3 (hf.imp_right fun hf => by have := hf.1; omega)
    have h4 : s'.byte 4 = s.byte 4 := h.bytes 4 (hf.imp_right fun hf => by have := hf.1; omega)
    have h5 : s'.be16 5 = s.be16 5 := h.be16 (hf.imp_right And.left)
    refine twin_parseObexHeaders hwt env env' (h.append fun _ => ?_) (by decide) hf
    rw [h1, h3, h4, h5]
  · exact twin_parseObexHeaders hwt env env' (h.append fun _ => rfl) (by decide)
      (hf.imp_right fun hf => hf 3 (if_neg hc))

theorem twin_parseObexResponse (hwt : whole → ¬ text) (env env' : Env) (h : Twin whole text s s')
    (opcode : UInt8) (hf : whole ∨ HeadersAt s (obexOffset 0 s.dec.lastCommand opcode)) :
    Twin whole text (parseObexResponse env s opcode) (parseObexResponse env' s' opcode) := by
  have ha : ∀ t, Twin whole text (s.append t) (s'.append t) := fun t => h.append fun _ => rfl
  unfold parseObexResponse
  by_cases h1 : opcode = obexContinue
  · subst h1
    rw [if_pos rfl, if_pos rfl]
    exact twin_parseObexHeaders hwt env env' (ha _) (by decide) (hf.imp_right fun hf => hf 3 rfl)
  rw [if_neg h1, if_neg h1]
  by_cases h2 : opcode = obexSwitchPro
  · rw [if_pos h2, if_pos h2]
    exact ha _
  rw [if_neg h2, if_neg h2]
  by_cases h3 : opcode = obexSuccess
  · subst h3
    rw [if_pos rfl, if_pos rfl, h.command]
    exact twin_parseObexSuccess hwt env env' h _ hf
  rw [if_neg h3, if_neg h3]
  split_ifs <;> exact ha _

theorem twin_parseObexCommand (hwt : whole → ¬ text) (env env' : Env) (h : Twin whole text s s')
    {cmd : UInt8} (hcmd : cmd ≠ 0) (opcode : UInt8)
    (hf : whole ∨ HeadersAt s (obexOffset cmd s.dec.lastCommand opcode) ∧
      (opcode = obexConnect → 3 ≤ s.buf.len ∧ (s.be16 1 = 7 → 7 ≤ s.buf.len))) :
    Twin whole text (parseObexCommand env s opcode) (parseObexCommand env' s' opcode) := by
  have hs := h.setCommand opcode
  have ha : ∀ t, Twin whole text ((s.setCommand opcode).append t) ((s'.setCommand opcode).append t) :=
    fun t => hs.append fun _ => rfl
  have hoff : ∀ off, (opcode = obexPut ∨ opcode = obexGet → off = 3) →
      (¬ (opcode = obexPut ∨ opcode = obexGet) → opcode = obexSetpath ∧ off = 5) →
      whole ∨ off ≤ s.buf.len ∧ ObexHeadersFit (s.buf.pull off) := by
    intro off h1 h2
    refine hf.imp_right fun hf => hf.1 off ?_
    unfold obexOffset
    rw [if_neg hcmd]
    by_cases hp : opcode = obexPut ∨ opcode = obexGet
    · rw [if_pos hp, h1 hp]
      rfl
    · rw [if_neg hp, if_pos (h2 hp).1, (h2 hp).2]
      rfl
  unfold parseObexCommand
  simp only
  by_cases h1 : opcode = obexConnect
  · rw [if_pos h1, if_pos h1]
    exact twin_parseObexConnect hs (hf.imp_right fun hf => hf.2 h1)
  rw [if_neg h1, if_neg h1]
  by_cases h2 : opcode = obexPut
  · rw [if_pos h2, if_pos h2]
    exact twin_parseObexHeaders hwt env env' (ha _) (by decide)
      (hoff 3 (fun _ => rfl) fun hn => absurd (Or.inl h2) hn)
  rw [if_neg h2, if_neg h2]
  by_cases h3 : opcode = obexGet
  · rw [if_pos h3, if_pos h3]
    exact twin_parseObexHeaders hwt env env' (ha _) (by decide)
      (hoff 3 (fun _ => rfl) fun hn => absurd (Or.inr h3) hn)
  rw [if_neg h3, if_neg h3]
  by_cases h4 : opcode = obexSetpath
  · subst h4
    have h5 := hoff 5 (fun hp => absurd hp (by decide)) fun _ => ⟨rfl, rfl⟩
    have hb3 : s'.byte 3 = s.byte 3 := h.bytes 3 (h5.imp_right fun hf => by have := hf.1; omega)
    have hb4 : s'.byte 4 = s.byte 4 := h.bytes 4 (h5.imp_right fun hf => by have := hf.1; omega)
    refine twin_parseObexHeaders hwt env env' (hs.append fun _ => ?_) (by decide) h5
    exact congrArg₂ (fun a b : UInt8 => s!"SETPATH flags=0x{fmtX 0 a.toNat} constants={b.toNat} ")
      hb3 hb4
  rw [if_neg h4, if_neg h4]
  split_ifs <;> exact ha _

theorem twin_parseObex (hwt : whole → ¬ text) (env env' : Env) (h : Twin whole text s s')
    (cmd : UInt8) (hf : whole ∨ ObexFits cmd s.dec.lastCommand s.buf) :
    Twin whole text (parseObex env s cmd) (parseObex env' s' cmd) := by
  have he : Twin whole text ((s.enter .obex).append "\n\tOBEX ") ((s'.enter .obex).append "\n\tOBEX ") :=
    (h.enter .obex).append fun _ => rfl
  refine Twin.ite (congrArg (· = 0) h.len) (fun _ => he) fun hl => ?_
  have h0 : s'.byte 0 = s.byte 0 := h.bytes 0 (Or.inr (Nat.pos_of_ne_zero hl))
  have hop : ((s'.enter .obex).append "\n\tOBEX ").byte 0 &&& ~~~0x80 = s.byte 0 &&& ~~~0x80 :=
    congrArg (· &&& ~~~0x80) h0
  have hf := hf.imp_right fun hf => hf hl
  refine Twin.ite rfl (fun hc => ?_) fun hc => ?_
  · subst hc
    rw [hop]
    exact twin_parseObexResponse hwt env env' he _ (hf.imp_right And.left)
  · rw [hop]
    exact twin_parseObexCommand hwt env env' he hc _ (hf.imp_right fun hf => ⟨hf.1, hf.2 hc⟩)

end

end Irdadump
