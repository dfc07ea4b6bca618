import IrdaUtils.Proofs.TextCopies
import IrdaUtils.Sanity.SideLap
import IrdaUtils.Sanity.Table

/-! What a frame is decoded from. The buffer of an earlier frame is used again, so behind
the last byte of a frame stands what earlier frames have left there. A frame that has
every byte that is used is decoded from its own bytes, and its texts have room whatever
stands behind it; a truncated one is not: see `cut_query_reads_on`. -/

namespace Irdadump
open Memory Stores

/-! ### The texts -/

section
variable {s s' : St} {env env' : Env}

theorem obexValueLen_congr (h : Twin False True s s') (h3 : 3 ≤ s.buf.len) :
    obexValueLen s'.buf = obexValueLen s.buf := by
  rw [← obexStringLen_eq, ← obexStringLen_eq]
  exact obexStringLen_congr h (Or.inr h3)

theorem obexTextShort_congr (h : Twin False True s s') (h0 : 0 < s.buf.len)
    (hf : ObexHeaderFits s.buf) {stack stack' : List UInt8} (ht : ObexTextShort stack s.buf) :
    ObexTextShort stack' s'.buf := by
  have hb : s'.buf.byte 0 = s.buf.byte 0 := h.bytes 0 (Or.inr h0)
  unfold ObexHeaderFits at hf
  simp only at hf
  constructor
  · intro hu
    rw [hb] at hu
    rw [if_pos hu] at hf
    obtain ⟨hle, -⟩ := ht.1 hu
    rw [obexValueLen_congr h hf.1]
    refine ⟨hle, fun hne => ?_⟩
    -- the character that ends the value is in the frame
    obtain ⟨k, hk, hin, hz⟩ := hf.2 hne
    have hlen : k * 2 + 1 < (obexValue s'.buf).length := by
      rw [obexValue_length, obexValueLen_congr h hf.1]
      exact hk
    refine ⟨k, by omega, ?_⟩
    rw [overwrite_getD _ _ hlen]
    change (s'.copy 3 (obexValueLen s'.buf)).getD (k * 2 + 1) 0 = 0
    rw [copy_getD _ _ _ _ (by rwa [obexValue_length] at hlen), h.bytes _ (Or.inr hin)]
    exact hz
  · intro hs hl
    rw [hb] at hs hl
    have hu : ¬ s.buf.byte 0 &&& obexHiMask = obexUnicode := by
      rw [hs]
      decide
    rw [if_neg hu, if_pos hs] at hf
    rw [obexValueLen_congr h hf.1]
    exact ht.2 hs hl

/-- Each text of the second frame is short if its counterpart in the first one is. -/
def Covers : List TextSite → List TextSite → Prop := List.Forall₂ fun t t' => t.Short → t'.Short

theorem Covers.short {ts ts' : List TextSite} (h : Covers ts ts') (hts : ∀ t ∈ ts, t.Short) :
    ∀ t ∈ ts', t.Short := by
  induction h with
  | nil => exact hts
  | cons hhead _ ih =>
    obtain ⟨ht, hts⟩ := List.forall_mem_cons.1 hts
    exact List.forall_mem_cons.2 ⟨hhead ht, ih hts⟩

theorem covers_obexVisits (env env' : Env) : ∀ (n : ℕ) (s s' : St), s.buf.len = n →
    Twin False True s s' → ObexHeadersFit s.buf →
    Covers ((obexVisits s.buf).map fun b => .obex (env.stack b.len) b)
      ((obexVisits s'.buf).map fun b => .obex (env'.stack b.len) b) := by
  intro n
  induction n using Nat.strong_induction_on with
  | _ n ih =>
    intro s s' hn h hf
    by_cases h0 : 0 < s.buf.len
    · have h0' : 0 < s'.buf.len := by rwa [h.len]
      obtain ⟨hhead, hrest⟩ := obexHeadersFit_step hf h0
      have hlen := (twin_obexHeaderStep False.elim env env h h0 (Or.inr hhead)).1
      rw [obexHeaderStep_len, obexHeaderStep_len] at hlen
      have htext : ObexTextShort (env.stack s.buf.len) s.buf →
          ObexTextShort (env'.stack s'.buf.len) s'.buf := obexTextShort_congr h h0 hhead
      by_cases hle : obexHeaderLen s.buf ≤ s.buf.len
      · have hlt := len_pull_lt (Nat.lt_of_lt_of_le Nat.zero_lt_two (two_le_obexHeaderLen s.buf)) hle
        rw [obexVisits_next h0 hle, obexVisits_next h0' (by rwa [hlen, h.len]), hlen]
        exact .cons htext (ih _ (hn ▸ hlt) (s.pull _) (s'.pull _) rfl (h.pull _) (hrest hle))
      · rw [obexVisits_last h0 hle, obexVisits_last h0' (by rwa [hlen, h.len])]
        exact .cons htext .nil
    · rw [obexVisits_done h0, obexVisits_done (by rwa [h.len])]
      exact .nil

theorem covers_obexTexts (h : Twin False True s s') {cmd : UInt8}
    (hf : ObexFits cmd s.dec.lastCommand s.buf) :
    Covers (obexTexts env s cmd) (obexTexts env' s' cmd) := by
  unfold obexTexts obexFrameVisits
  rw [h.len, h.command]
  by_cases hl : s.buf.len = 0
  · rw [if_pos hl, if_pos hl]
    exact .nil
  have h0 : s'.buf.byte 0 = s.buf.byte 0 := h.bytes 0 (Or.inr (Nat.pos_of_ne_zero hl))
  rw [if_neg hl, if_neg hl, h0]
  cases ho : obexOffset cmd s.dec.lastCommand (s.buf.byte 0 &&& ~~~0x80) with
  | none => exact .nil
  | some off =>
    exact covers_obexVisits env env' _ (s.pull off) (s'.pull off) rfl (h.pull off)
      ((hf hl).1 off ho).2

theorem covers_dataTexts (h : Twin False True s s') {c : LsapState} {cmd : UInt8}
    (hf : DataFits c cmd s.dec.lastCommand s.buf) :
    Covers (dataTexts env c cmd s) (dataTexts env' c cmd s') := by
  unfold dataTexts
  by_cases hv : c.valid = true ∧ c.obex = true
  · obtain ⟨http, hobex, -⟩ := hf hv.1
    have hfit := hobex hv.2
    simp only [hv, true_and, and_self, if_true]
    by_cases ht : c.ttp = true
    · rw [if_pos ht] at hfit
      rw [if_pos ht, if_pos ht]
      refine covers_obexTexts (twin_parseIrttp h (Or.inr (http ht))) ?_
      rw [dec_parseIrttp, buf_parseIrttp]
      exact hfit
    · rw [if_neg ht] at hfit
      rw [if_neg ht, if_neg ht]
      exact covers_obexTexts h hfit
  · simp only [if_neg hv]
    exact .nil

theorem iasTextsShort_congr (h : Twin False True s s') {slsapSel dlsapSel : UInt8}
    (hf : if dlsapSel = 0 then QueryFits s.buf
      else if slsapSel = 0 then ResponseFits s.dec.lastIas.ircomm s.buf else True)
    (ht : IasTextsShort s slsapSel dlsapSel) : IasTextsShort s' slsapSel dlsapSel := by
  refine ⟨fun hd => ?_, fun hd hs hok hstr => ?_⟩
  · rw [if_pos hd] at hf
    rw [h.bytes 0 (Or.inr hf.1)]
    intro hop
    obtain ⟨h2, hlen, -⟩ := hf.2 hop
    have hattr : s'.byte (2 + (s.byte 1).toNat) = s.byte (2 + (s.byte 1).toNat) :=
      h.bytes _ (Or.inr hlen)
    rw [h.bytes 1 (Or.inr h2), hattr]
    exact ht.1 hd hop
  · rw [if_neg hd, if_pos hs] at hf
    rw [h.bytes 1 (Or.inr hf.1)] at hok
    obtain ⟨h5, -, hstring, -⟩ := hf.2 hok
    rw [(h.pull 2).bytes 4 (Or.inr h5)] at hstr
    rw [(h.pull 2).bytes 6 (Or.inr (hstring hstr).1)]
    exact ht.2 hd hs hok hstr

theorem lmDataTexts_eq (env : Env) (s : St) (cmd : UInt8) (hd : LmHead) :
    lmDataTexts env s hd.type cmd hd.slsapSel hd.dlsapSel =
      .ias s hd.slsapSel hd.dlsapSel ::
        match (iasParsed s hd).dec.tracker.find hd.pair with
        | some i => dataTexts env ((iasParsed s hd).dec.conn i) cmd ((iasParsed s hd).found hd)
        | none => [] := by
  have e : (if hd.dlsapSel = 0x00 then parseIriapCommand s
      else if hd.slsapSel = 0x00 then parseIriapResponse s else s) = iasParsed s hd := rfl
  unfold lmDataTexts
  simp only [e, find_eq]
  cases (iasParsed s hd).dec.tracker.find hd.pair <;> rfl

theorem covers_lmDataTexts (h : Side false False True s s') (hd : LmHead) {cmd : UInt8} {cfg : Config}
    (hf : LmDataFits cfg s.dec cmd hd s.buf) :
    Covers (lmDataTexts env s hd.type cmd hd.slsapSel hd.dlsapSel)
      (lmDataTexts env' s' hd.type cmd hd.slsapSel hd.dlsapSel) := by
  have hface : Facing false hd.type hd.type := Iff.rfl
  have h1 := side_iasParsed hd h (Or.inr hf.1) hd.type
  have hs := h1.found hface
  have hfind := h1.find_eq hface
  rw [lmDataTexts_eq, lmDataTexts_eq]
  refine .cons (iasTextsShort_congr h.toTwin hf.1) ?_
  have hf := hf.2
  simp only [← buf_iasParsed, ← command_iasParsed s hd, ← (iasParsed_calm s hd).conn,
    ← iasParsed_find s hd] at hf
  change (iasParsed s' hd).dec.tracker.find hd.pair = _ at hfind
  rw [hfind]
  cases hi : (iasParsed s hd).dec.tracker.find hd.pair with
  | none => exact .nil
  | some i =>
    rw [hi] at hf
    have hconn : (iasParsed s' hd).dec.conn i = (iasParsed s hd).dec.conn i := by
      rw [h1.dec]
      rfl
    simp only [hconn]
    exact covers_dataTexts hs.toTwin hf

theorem Side.front (h : Side false False True s s') (hlen : 1 < s.buf.len) :
    s'.byte 0 = s.byte 0 ∧ s'.byte 1 = s.byte 1 :=
  ⟨h.bytes 0 (Or.inr (Nat.lt_trans Nat.one_pos hlen)), h.bytes 1 (Or.inr hlen)⟩

theorem covers_irlmpTexts (h : Side false False True s s') {type : ℤ} {caddr cmd : UInt8} {cfg : Config}
    (hf : LmFits cfg s.dec caddr type cmd s.buf) :
    Covers (irlmpTexts env s type cmd) (irlmpTexts env' s' type cmd) := by
  obtain ⟨h0, h1⟩ := h.front hf.1
  have hf := hf.2
  unfold irlmpTexts
  rw [h0, h1]
  by_cases hc : s.byte 0 &&& controlBit ≠ 0
  · rw [if_pos hc, if_pos hc]
    exact .nil
  · rw [if_neg (show ¬ (s.buf.byte 0 &&& controlBit ≠ 0) from hc)] at hf
    rw [if_neg hc, if_neg hc]
    exact covers_lmDataTexts (h.pull 2) ⟨caddr, type, s.byte 1, s.byte 0 &&& lsapMask⟩ hf

theorem covers_uiIrlmpTexts (h : Side false False True s s') (hf : UiFits s.dec s.buf) :
    Covers (uiIrlmpTexts env s) (uiIrlmpTexts env' s') := by
  obtain ⟨h0, h1⟩ := h.front hf.1
  unfold uiIrlmpTexts
  rw [h0, h1]
  by_cases hx : s.byte 1 = 0x70 ∧ s.byte 0 &&& lsapMask = 0x70
  · obtain ⟨h3, hobex⟩ := hf.2 hx
    have hu : (s'.pull 2).byte 0 = (s.pull 2).byte 0 := (h.pull 2).bytes 0 (Or.inr h3)
    simp only [if_pos hx, hu]
    by_cases hp : (s.pull 2).byte 0 &&& 0x7f = 0x01
    · rw [if_pos hp, if_pos hp]
      exact covers_obexTexts (((h.pull 2).pull 1).pull 1).toTwin (hobex hp)
    · rw [if_neg hp, if_neg hp]
      exact .nil
  · simp only [if_neg hx]
    exact .nil

theorem covers_irlapTexts (hcfg : env'.cfg = env.cfg) (h : Side false False True s s') {type : ℤ}
    (hf : FrameFits env.cfg s.dec type s.buf) :
    Covers (irlapTexts env type s) (irlapTexts env' type s') := by
  obtain ⟨h0, h1⟩ := h.front hf.1
  have hf := hf.2
  simp only at hf
  unfold irlapTexts
  simp only [h0, h1, hcfg]
  by_cases hp : env.cfg.printIrlmp = false
  · rw [if_pos hp, if_pos hp]
    exact .nil
  have hp' : env.cfg.printIrlmp = true := Bool.not_eq_false _ ▸ hp
  rw [if_neg hp, if_neg hp]
  by_cases hi : s.byte 1 &&& ~~~pfBit &&& 0x01 = 0
  · rw [if_pos (show s.buf.byte 1 &&& ~~~pfBit &&& 0x01 = 0 from hi)] at hf
    rw [if_pos hi, if_pos hi]
    exact covers_irlmpTexts (h.pull 2) (hf hp')
  rw [if_neg (show ¬ (s.buf.byte 1 &&& ~~~pfBit &&& 0x01 = 0) from hi)] at hf
  rw [if_neg hi, if_neg hi]
  by_cases hs : s.byte 1 &&& ~~~pfBit &&& 0x02 = 0
  · rw [if_pos hs, if_pos hs]
    exact .nil
  rw [if_neg (show ¬ (s.buf.byte 1 &&& ~~~pfBit &&& 0x02 = 0) from hs)] at hf
  rw [if_neg hs, if_neg hs]
  by_cases hu : s.byte 1 &&& ~~~pfBit = uiFrame
  · have hui : UiFits s.dec (s.buf.pull 2) := by
      change UFrameFits env.cfg s.dec _ (s.byte 1 &&& ~~~pfBit) s.buf at hf
      rw [hu] at hf
      exact hf hp'
    rw [if_pos hu, if_pos hu]
    exact covers_uiIrlmpTexts (h.pull 2) hui
  · rw [if_neg hu, if_neg hu]
    exact .nil

end

/-! ### The frame -/

/-- The same frame in two memories: the bytes behind it and the stack may differ. -/
structure Frame.SameBytes (f f' : Frame) : Prop where
  type : f'.type = f.type
  len : f'.buf.len = f.buf.len
  bytes : ∀ n < f.buf.len, f'.byte n = f.byte n
  beyond : f'.env.beyond = f.env.beyond
  inHeap : InHeap f.env f.buf ∧ InHeap f'.env f'.buf

def Frame.DecodedAlike (cfg : Config) (d : Decoder) (f f' : Frame) : Prop :=
  (parseFrame cfg d f').str = (parseFrame cfg d f).str ∧ decode cfg d f' = decode cfg d f

def Frame.TextsFit (cfg : Config) (d : Decoder) (f : Frame) : Prop :=
  Irdadump.TextsFit { f.env with cfg := cfg } f.type (f.start d)

/-- A frame that fits, without a text that is too long, is decoded from its own bytes only; no
text overruns its array, whatever stands behind the frame. -/
theorem fitting_frame_own_bytes (cfg : Config) (d : Decoder) (f f' : Frame) (h : f.SameBytes f')
    (hf : FrameFits cfg d f.type f.buf)
    (ht : TextsShort { f.env with cfg := cfg } f.type (f.start d)) :
    f.DecodedAlike cfg d f' ∧ f.TextsFit cfg d ∧ f'.TextsFit cfg d := by
  have hp : Paired false False True { f.env with cfg := cfg } { f'.env with cfg := cfg } :=
    ⟨False.elim, fun hm => absurd hm Bool.false_ne_true, rfl, fun _ => h.beyond⟩
  have hs : Side false False True (f.start d) (f'.start d) := by
    refine ⟨⟨h.len, fun n hn => ?_, rfl, rfl, rfl, fun _ => rfl, fun _ => rfl⟩, rfl⟩
    exact h.bytes n (hn.resolve_left id)
  have hface : Facing false f.type f'.type := by
    rw [h.type]
    exact Iff.rfl
  have hr := side_irlapFrame hp hface hs (fun _ => h.inHeap) (Or.inr hf)
  have hcovers : Covers (irlapTexts { f.env with cfg := cfg } f.type (f.start d))
      (irlapTexts { f'.env with cfg := cfg } f'.type (f'.start d)) := by
    rw [h.type]
    have hcfg : ({ f'.env with cfg := cfg } : Env).cfg = ({ f.env with cfg := cfg } : Env).cfg := rfl
    exact covers_irlapTexts hcfg hs hf
  have ht' : TextsShort { f'.env with cfg := cfg } f'.type (f'.start d) := hcovers.short ht
  exact ⟨⟨hr.str trivial, hr.dec⟩, ht.fit, ht'.fit⟩

def Frame.over (f : Frame) (old : List UInt8) : Frame :=
  { f with buf := { f.buf with mem := fun n => if n < f.buf.len then f.buf.mem n else old.getD n 0 } }

def wholeQuery : List UInt8 :=
  [0x03, 0x10, 0x00, 0x10, 0x84, 0x00, 6, 0x54, 0x69, 0x6e, 0x79, 0x54, 0x50]

def queryFrame : Frame := .ofBytes 1 wholeQuery

theorem queryFrame_fits : FrameFits {} Decoder.init queryFrame.type queryFrame.buf := by
  refine ⟨by decide, fun _ => ⟨by decide, ⟨by decide, fun _ => ?_⟩, ?_⟩⟩
  · exact ⟨by decide, by decide, .inl (by decide)⟩
  · have hnone : Decoder.init.tracker.find (0x10, 0x00) = none := by decide
    exact hnone ▸ fun h => absurd rfl h.1

theorem queryFrame_short : TextsShort queryFrame.env queryFrame.type (queryFrame.start Decoder.init) := by
  have e : irlapTexts queryFrame.env queryFrame.type (queryFrame.start Decoder.init) =
      [.ias _ 0x10 0x00] := rfl
  rw [TextsShort, e]
  refine List.forall_mem_singleton.2 ⟨fun _ _ => ?_, fun h => absurd rfl h⟩
  decide

theorem fitting_frame_own_bytes_query :
    queryFrame.DecodedAlike {} Decoder.init (queryFrame.over (List.replicate 20 0xff)) ∧
      queryFrame.TextsFit {} Decoder.init ∧
      (queryFrame.over (List.replicate 20 0xff)).TextsFit {} Decoder.init :=
  fitting_frame_own_bytes {} Decoder.init queryFrame (queryFrame.over (List.replicate 20 0xff))
    ⟨rfl, rfl, by decide, rfl, ⟨Nat.le_refl _, Nat.le_refl _⟩⟩ queryFrame_fits queryFrame_short

def cutQuery : Frame := .ofBytes 1 [0x03, 0x10, 0x00, 0x10, 0x84, 0x00]

/-- The cut query asks for TinyTP if it comes after the whole one. -/
theorem cut_query_reads_on :
    ¬ ∀ (cfg : Config) (d : Decoder) (f f' : Frame), f.SameBytes f' → f.DecodedAlike cfg d f' := by
  intro h
  have hd := (h {} Decoder.init cutQuery (cutQuery.over wholeQuery)
    ⟨rfl, rfl, by decide, rfl, ⟨Nat.le_refl _, Nat.le_refl _⟩⟩).2
  have e := congrArg (fun d : Decoder => d.tracker.lastIas.ttp) hd
  simp only [tracker_decode] at e
  revert e
  decide

end Irdadump
