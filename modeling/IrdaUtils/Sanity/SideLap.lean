import IrdaUtils.Sanity.Side

/-! LAP frames side by side. `Paired` has what the two runs share; a frame keeps them
together if the buffers agree everywhere, or if the frame has every byte that is used. -/

namespace Irdadump
open Memory

/-- The memories that two runs are decoded in. The text is compared only in runs of the
same direction, and `parse_obex_header` reads the stack into it. -/
structure Paired (m : Bool) (whole text : Prop) (env env' : Env) : Prop where
  frame : whole → ¬ text
  turned : m = true → ¬ text
  cfg : env'.cfg = env.cfg
  beyond : text → env'.beyond = env.beyond

section
variable {m : Bool} {whole text : Prop} {s s' : St} {env env' : Env} {type type' : ℤ}

/-! ### Text that shows the direction -/

theorem Paired.same (hp : Paired m whole text env env') (ht : text) : m = false :=
  Bool.eq_false_iff.2 fun hm => hp.turned hm ht

theorem Paired.dirText (hp : Paired m whole text env env') (hface : Facing m type type')
    (ht : text) : dirText type' = dirText type := dirText_facing hface (hp.same ht)

/-- A line that is written one way or the other. -/
theorem Paired.line (hp : Paired m whole text env env') (hface : Facing m type type')
    (h : Side m whole text s s') {a b a' b' : String} (ha : text → a' = a) (hb : text → b' = b) :
    Side m whole text (if type ≠ 0 then s.append a else s.append b)
      (if type' ≠ 0 then s'.append a' else s'.append b') := by
  rw [← apply_ite s.append, ← apply_ite s'.append]
  refine h.append fun ht => ?_
  have hm := hp.same ht
  subst hm
  rw [ha ht, hb ht]
  exact if_congr hface rfl rfl

theorem buf_line (s : St) (p : Prop) [Decidable p] (a b : String) :
    (if p then s.append a else s.append b).buf = s.buf := by
  split_ifs <;> rfl

/-! ### Sequence numbers -/

theorem Twin.setDec (h : Twin whole text s s') (m : Bool) {d d' : Decoder} (hd : d' = d.seen m) :
    Side m whole text { s with dec := d } { s' with dec := d' } := by
  subst hd
  refine ⟨⟨h.len, h.bytes, ?_, ?_, h.calls, h.str, h.msgs⟩, rfl⟩
  · cases m <;> rfl
  · cases m <;> rfl

/-- The notes of `parse_i_frame`, the second one of them on a condition. -/
theorem twin_notes {t t' r r' : String} {c : Prop} [Decidable c] (h : Twin whole text s s')
    (ht : text → t' = t) (hr : text → r' = r) :
    Twin whole text (if c then (s.append t).append r else s.append t)
      (if c then (s'.append t').append r' else s'.append t') :=
  Twin.ite rfl (fun _ => (h.append ht).append hr) fun _ => h.append ht

theorem side_trackI (hp : Paired m whole text env env') (hface : Facing m type type')
    (h : Side m whole text s s') (nr ns : ℤ) :
    Side m whole text (trackI type nr ns s) (trackI type' nr ns s') := by
  unfold Facing at hface
  unfold trackI
  cases m with
  | false =>
    have hdec : s'.dec = s.dec := h.dec
    simp only [hdec]
    refine ite_rel _ (propext hface) (fun _ => ?_) fun _ => ?_
    · exact (twin_notes h.toTwin (fun _ => rfl) fun _ => rfl).setDec false rfl
    · exact (twin_notes h.toTwin (fun _ => rfl) fun _ => rfl).setDec false rfl
  | true =>
    -- the counters of the two ends have changed places
    have hdec : s'.dec = s.dec.mirror := h.dec
    have hx : text → False := hp.turned rfl
    simp only [hdec]
    by_cases ht : type = 0
    · rw [if_neg (not_not.2 ht), if_pos (hface.2 ht)]
      exact (twin_notes h.toTwin (fun hx' => (hx hx').elim) fun hx' => (hx hx').elim).setDec true rfl
    · rw [if_pos ht, if_neg fun ht' => ht (hface.1 ht')]
      exact (twin_notes h.toTwin (fun hx' => (hx hx').elim) fun hx' => (hx hx').elim).setDec true rfl

theorem side_trackRr (hp : Paired m whole text env env') (hface : Facing m type type')
    (h : Side m whole text s s') (nr : ℤ) :
    Side m whole text (trackRr type nr s) (trackRr type' nr s') := by
  unfold Facing at hface
  unfold trackRr
  cases m with
  | false =>
    have hdec : s'.dec = s.dec := h.dec
    simp only [hdec]
    exact ite_rel _ (propext hface) (fun _ => (h.toTwin.append fun _ => rfl).setDec false rfl)
      fun _ => (h.toTwin.append fun _ => rfl).setDec false rfl
  | true =>
    have hdec : s'.dec = s.dec.mirror := h.dec
    have hx : text → False := hp.turned rfl
    simp only [hdec]
    by_cases ht : type = 0
    · rw [if_neg (not_not.2 ht), if_pos (hface.2 ht)]
      exact (h.toTwin.append fun hx' => (hx hx').elim).setDec true rfl
    · rw [if_pos ht, if_neg fun ht' => ht (hface.1 ht')]
      exact (h.toTwin.append fun hx' => (hx hx').elim).setDec true rfl

/-! ### I and S frames -/

theorem side_iFrame (hp : Paired m whole text env env') (hface : Facing m type type')
    (h : Side m whole text s s') (h1 : s'.byte 1 = s.byte 1) (caddr cmd pf : UInt8)
    (hf : whole ∨ (env.cfg.printIrlmp = true → LmFits env.cfg s.dec caddr type cmd (s.buf.pull 2))) :
    Side m whole text (parseIFrame env caddr cmd pf type s)
      (parseIFrame env' caddr cmd pf type' s') := by
  unfold parseIFrame
  rw [h1, hp.cfg]
  have ht := (h.pull 2).append (fun hx => congrArg (fun d : String =>
    s!"i:{cmdText cmd}  {d} ca={fmtX 2 caddr.toNat} pf={pf.toNat} " ++
    s!"nr={(s.byte 1 >>> 5).toNat} ns={((s.byte 1 >>> 1) &&& 0x07).toNat} ") (hp.dirText hface hx))
  have hl := Side.ite (p := env.cfg.printIrlmp = true) rfl
    (fun hi => side_irlmp hp.frame hp.cfg ht hface caddr cmd (hf.imp_right fun hf => hf hi))
    fun _ => ht
  exact Side.ite rfl (fun _ => side_trackI hp hface hl _ _) fun _ => hl

theorem side_appendSFrame (hp : Paired m whole text env env') (hface : Facing m type type')
    (h : Side m whole text s s') (h1 : s'.byte 1 = s.byte 1) (name : String) (caddr cmd pf : UInt8) :
    Side m whole text (appendSFrame name caddr cmd pf type s)
      (appendSFrame name caddr cmd pf type' s') := by
  refine h.append fun hx => ?_
  rw [h1, hp.dirText hface hx]

theorem side_sFrame (hp : Paired m whole text env env') (hface : Facing m type type')
    (h : Side m whole text s s') (h1 : s'.byte 1 = s.byte 1) (caddr cmd pf ctrl : UInt8) :
    Side m whole text (parseSFrame env caddr cmd pf ctrl type s)
      (parseSFrame env' caddr cmd pf ctrl type' s') := by
  have ha := fun name => side_appendSFrame hp hface h h1 name caddr cmd pf
  refine Side.ite rfl (fun _ => ?_) fun _ => Side.ite rfl (fun _ => ha _) fun _ =>
    Side.ite rfl (fun _ => ha _) fun _ => Side.ite rfl (fun _ => ha _) fun _ => h.append fun _ => rfl
  unfold parseRrFrame
  rw [h1, hp.cfg]
  exact Side.ite rfl (fun _ => side_trackRr hp hface (ha _) _) fun _ => ha _

/-! ### Discovery -/

theorem byte_poke (s : St) (k n : ℕ) (b : UInt8) :
    (s.poke k b).byte n = if n = k then b else s.byte n := by
  by_cases hn : n = k
  · subst hn
    simp [St.poke, St.byte, store]
  · rw [if_neg hn]
    change store s.buf.mem (s.buf.data + k) [b] (s.buf.data + n) = s.byte n
    exact store_outside (by simp only [List.length_singleton]; omega)

theorem Side.poke (h : Side m whole text s s') (b : UInt8) :
    Side m whole text (s.poke s.buf.len b) (s'.poke s'.buf.len b) := by
  refine ⟨⟨h.len, ?_, h.ias, h.command, h.calls, h.str, h.msgs⟩, h.dec⟩
  intro n hn
  rw [byte_poke, byte_poke, h.len]
  exact ite_rel (fun a b => b = a) rfl (fun _ => rfl) fun _ => h.bytes n hn

theorem takeWhile_append_zero (l r : List UInt8) (hr : r.head?.getD 0 = 0) :
    (l ++ r).takeWhile (· ≠ 0) = l.takeWhile (· ≠ 0) := by
  induction l with
  | nil =>
    cases r with
    | nil => rfl
    | cons b r => simp_all
  | cons a l ih =>
    by_cases ha : a = 0
    · simp [ha]
    · simp only [List.cons_append]
      rw [List.takeWhile_cons_of_pos (by simpa using ha),
        List.takeWhile_cons_of_pos (by simpa using ha), ih]

/-- The frame lies in the heap. -/
def InHeap (env : Env) (b : GNetBuf) : Prop := b.data + b.len ≤ env.heapTop

/-- A string that is ended at the end of the frame. -/
theorem stringAt_ended (env : Env) {s : St} {n : ℕ} (hz : s.byte s.buf.len = 0)
    (hn : n ≤ s.buf.len) (hin : InHeap env s.buf) :
    s.stringAt env n = cString (s.copy n (s.buf.len - n)) := by
  have e : env.heapTop - (s.buf.data + n) =
      (s.buf.len - n) + (env.heapTop - (s.buf.data + s.buf.len)) := by
    unfold InHeap at hin
    omega
  unfold St.stringAt cString St.copy
  rw [e, load_add, takeWhile_append_zero]
  rw [show s.buf.data + n + (s.buf.len - n) = s.buf.data + s.buf.len by omega]
  cases env.heapTop - (s.buf.data + s.buf.len) with
  | zero => rfl
  | succ k => simpa [load, List.range_succ_eq_map, St.byte] using hz

theorem side_xidInfo (h : Side m whole text s s') (hwt : whole → ¬ text)
    (hin : text → InHeap env s.buf ∧ InHeap env' s'.buf)
    (hf : whole ∨ 15 ≤ s.buf.len ∧ (if s.byte 14 &&& 0x80 ≠ 0 then 17 else 16) ≤ s.buf.len) :
    Side m whole text (parseXidInfo env s).1 (parseXidInfo env' s').1 ∧
      (text → (parseXidInfo env' s').2 = (parseXidInfo env s).2) := by
  refine ⟨h.poke 0, fun ht => ?_⟩
  obtain ⟨h15, hinfo⟩ := hf.resolve_left fun hw => hwt hw ht
  obtain ⟨hi, hi'⟩ := hin ht
  have h14 : s'.byte 14 = s.byte 14 := h.bytes 14 (Or.inr h15)
  have hpk := h.poke 0
  have hz : ∀ u : St, (u.poke u.buf.len 0).byte (u.poke u.buf.len 0).buf.len = 0 := by
    intro u
    rw [byte_poke]
    exact if_pos rfl
  -- the string is in the frame, whichever byte it starts at
  have hstr : ∀ n ≤ s.buf.len, (s'.poke s'.buf.len 0).stringAt env' n =
      (s.poke s.buf.len 0).stringAt env n := by
    intro n hn
    rw [stringAt_ended env (hz s) hn hi, stringAt_ended env' (hz s') (by rw [hpk.len]; exact hn) hi',
      hpk.len, hpk.copy (Or.inr (by change n + (s.buf.len - n) ≤ s.buf.len; omega))]
  unfold parseXidInfo
  simp only [h14]
  by_cases hx : s.byte 14 &&& 0x80 ≠ 0
  · rw [if_pos hx] at hinfo
    simp only [if_pos hx]
    rw [hstr 17 hinfo, h.bytes 15 (Or.inr (by omega))]
  · rw [if_neg hx] at hinfo
    simp only [if_neg hx]
    rw [hstr 16 hinfo]

theorem side_xidFrame (hp : Paired m whole text env env') (hface : Facing m type type')
    (h : Side m whole text s s') (hin : text → InHeap env s.buf ∧ InHeap env' s'.buf) (cmd : UInt8)
    (hf : whole ∨ XidFits cmd s.buf) :
    Side m whole text (parseXidFrame env cmd type s) (parseXidFrame env' cmd type' s') := by
  have h13 := hf.imp_right And.left
  have hs : s'.le32 3 = s.le32 3 := h.le32 (h13.imp_right fun hl => by omega)
  have hd : s'.le32 7 = s.le32 7 := h.le32 (h13.imp_right fun hl => by omega)
  have h11 : s'.byte 11 = s.byte 11 := h.bytes 11 (h13.imp_right fun hl => by omega)
  have h12 : s'.byte 12 = s.byte 12 := h.bytes 12 h13
  have hinfo : Side m whole text
        (if xidHasInfo cmd (s.byte 12) then parseXidInfo env s else (s, "")).1
        (if xidHasInfo cmd (s.byte 12) then parseXidInfo env' s' else (s', "")).1 ∧
      (text → (if xidHasInfo cmd (s.byte 12) then parseXidInfo env' s' else (s', "")).2 =
        (if xidHasInfo cmd (s.byte 12) then parseXidInfo env s else (s, "")).2) := by
    by_cases hx : xidHasInfo cmd (s.byte 12) = true
    · rw [if_pos hx, if_pos hx]
      exact side_xidInfo h hp.frame hin (hf.imp_right fun hf => hf.2 hx)
    · rw [if_neg hx, if_neg hx]
      exact ⟨h, fun _ => rfl⟩
  obtain ⟨h1, ht⟩ := hinfo
  unfold parseXidFrame
  simp only [hs, hd, h11, h12]
  have h2 := hp.line hface h1
    (a := s!"xid:{cmdText cmd} {fmtX 8 (s.le32 3)} > {fmtX 8 (s.le32 7)} S={xidSlots (s.byte 11)} ")
    (b := s!"xid:{cmdText cmd} {fmtX 8 (s.le32 7)} < {fmtX 8 (s.le32 3)} S={xidSlots (s.byte 11)} ")
    (fun _ => rfl) (fun _ => rfl)
  exact (Side.ite rfl (fun _ => h2.append fun _ => rfl) fun _ => h2.append fun _ => rfl).append ht

/-! ### Other U frames -/

theorem side_parseIField (hp : Paired m whole text env env') (h : Side m whole text s s') (n : ℕ)
    (hf : whole ∨ IFieldFits n s.buf) :
    Side m whole text (parseIField env n s) (parseIField env' n s') :=
  h.calm (twin_parseIField hp.beyond h.toTwin n (hf.imp_right And.right))
    (upper_parseIField env n s).toCalm (upper_parseIField env' n s').toCalm

theorem side_uaFrame (hp : Paired m whole text env env') (hface : Facing m type type')
    (h : Side m whole text s s') (caddr cmd pf : UInt8) (hf : whole ∨ IFieldFits 10 s.buf) :
    Side m whole text (parseUaFrame env caddr cmd pf type s)
      (parseUaFrame env' caddr cmd pf type' s') := by
  have hs : s'.le32 2 = s.le32 2 := h.le32 (hf.imp_right fun hf => by have := hf.1; omega)
  have hd : s'.le32 6 = s.le32 6 := h.le32 (hf.imp_right And.left)
  have h1 := hp.line hface h
    (a := s!"ua:{cmdText cmd} ca={fmtX 2 caddr.toNat} pf={pf.toNat} " ++
      s!"{fmtX 8 (s.le32 2)} > {fmtX 8 (s.le32 6)} ")
    (b := s!"ua:{cmdText cmd} ca={fmtX 2 caddr.toNat} pf={pf.toNat} " ++
      s!"{fmtX 8 (s.le32 6)} < {fmtX 8 (s.le32 2)} ") (fun _ => rfl) (fun _ => rfl)
  unfold parseUaFrame
  rw [hs, hd]
  refine side_parseIField hp h1 10 ?_
  rw [buf_line]
  exact hf

theorem side_snrmFrame (hp : Paired m whole text env env') (hface : Facing m type type')
    (h : Side m whole text s s') (caddr cmd pf : UInt8) (hf : whole ∨ IFieldFits 11 s.buf) :
    Side m whole text (parseSnrmFrame env caddr cmd pf type s)
      (parseSnrmFrame env' caddr cmd pf type' s') := by
  have hs : s'.le32 2 = s.le32 2 := h.le32 (hf.imp_right fun hf => by have := hf.1; omega)
  have hd : s'.le32 6 = s.le32 6 := h.le32 (hf.imp_right fun hf => by have := hf.1; omega)
  have hca : s'.byte 10 = s.byte 10 := h.bytes 10 (hf.imp_right And.left)
  have h1 := hp.line hface h
    (a := s!"snrm:{cmdText cmd} ca={fmtX 2 caddr.toNat} pf={pf.toNat} " ++
      s!"{fmtX 8 (s.le32 2)} > {fmtX 8 (s.le32 6)} new-ca={fmtX 2 (s.byte 10).toNat} ")
    (b := s!"snrm:{cmdText cmd} ca={fmtX 2 caddr.toNat} pf={pf.toNat} " ++
      s!"{fmtX 8 (s.le32 6)} < {fmtX 8 (s.le32 2)} new-ca={fmtX 2 (s.byte 10).toNat} ")
    (fun _ => rfl) (fun _ => rfl)
  unfold parseSnrmFrame
  rw [hs, hd, hca]
  refine side_parseIField hp h1 11 ?_
  rw [buf_line]
  exact hf

theorem side_discFrame (hp : Paired m whole text env env') (hface : Facing m type type')
    (h : Side m whole text s s') (caddr cmd pf : UInt8) :
    Side m whole text (parseDiscFrame caddr cmd pf type s)
      (parseDiscFrame caddr cmd pf type' s') := by
  have h1 : Side m whole text (appendUFrame "disc" caddr cmd pf type s)
      (appendUFrame "disc" caddr cmd pf type' s') :=
    h.append fun hx => by rw [hp.dirText hface hx]
  refine h1.table ?_
  rw [h1.dec, seen_conn, garbage_seen]

theorem side_uFrame (hp : Paired m whole text env env') (hface : Facing m type type')
    (h : Side m whole text s s') (h1 : s'.byte 1 = s.byte 1)
    (hin : text → InHeap env s.buf ∧ InHeap env' s'.buf) (caddr cmd pf ctrl : UInt8)
    (hf : whole ∨ UFrameFits env.cfg s.dec cmd ctrl s.buf) :
    Side m whole text (parseUFrame env caddr cmd pf ctrl type s)
      (parseUFrame env' caddr cmd pf ctrl type' s') := by
  have hu : ∀ name, Side m whole text (appendUFrame name caddr cmd pf type s)
      (appendUFrame name caddr cmd pf type' s') := fun name =>
    h.append fun hx => by rw [hp.dirText hface hx]
  -- the two addresses of a frame with a fixed part
  have haddr : (whole ∨ 10 ≤ s.buf.len) → s'.le32 2 = s.le32 2 ∧ s'.le32 6 = s.le32 6 := fun hl =>
    ⟨h.le32 (hl.imp_right fun hl => by omega), h.le32 hl⟩
  unfold UFrameFits at hf
  refine Side.ite rfl (fun hx => ?_) fun hx => ?_
  · rw [if_pos hx] at hf
    exact side_xidFrame hp hface h hin cmd hf
  rw [if_neg hx] at hf
  refine Side.ite rfl (fun hx => ?_) fun hx => ?_
  · rw [if_pos hx] at hf
    refine Side.ite rfl (fun hc => ?_) fun hc => ?_
    · rw [if_pos hc] at hf
      exact side_snrmFrame hp hface h caddr cmd pf hf
    · rw [if_neg hc] at hf
      obtain ⟨hs, hd⟩ := haddr hf
      exact h.append fun hx => by rw [hs, hd, hp.dirText hface hx]
  rw [if_neg hx] at hf
  refine Side.ite rfl (fun _ => hu _) fun _ => Side.ite rfl (fun _ => ?_) fun _ => ?_
  · exact Side.ite rfl (fun _ => side_discFrame hp hface h caddr cmd pf) fun _ => hu _
  refine Side.ite rfl (fun hx => ?_) fun hx => ?_
  · rw [if_pos hx] at hf
    obtain ⟨hs, hd⟩ := haddr hf
    exact h.append fun hx => by rw [hs, hd, hp.dirText hface hx]
  rw [if_neg hx] at hf
  refine Side.ite rfl (fun hx => ?_) fun hx => ?_
  · rw [if_pos hx] at hf
    exact side_uaFrame hp hface h caddr cmd pf hf
  rw [if_neg hx] at hf
  refine Side.ite rfl (fun hx => ?_) fun hx => ?_
  · rw [if_pos hx] at hf
    have h2 : s'.byte 2 = s.byte 2 := h.bytes 2 hf
    exact h.append fun hx => by rw [h1, h2, hp.dirText hface hx]
  rw [if_neg hx] at hf
  refine Side.ite rfl (fun hx => ?_) fun _ => h.append fun _ => rfl
  rw [if_pos hx] at hf
  unfold parseUiFrame
  rw [hp.cfg]
  have ht := (h.pull 2).append (fun hx => congrArg (fun d : String =>
    s!"ui:{cmdText cmd} {d} ca={fmtX 2 caddr.toNat} pf={pf.toNat}  ") (hp.dirText hface hx))
  exact Side.ite rfl (fun hi => side_uiIrlmp hp.frame ht (hf.imp_right fun hf => hf hi)) fun _ => ht

/-- Whatever the frame, the two runs stay together. -/
theorem side_irlapFrame (hp : Paired m whole text env env') (hface : Facing m type type')
    (h : Side m whole text s s') (hin : text → InHeap env s.buf ∧ InHeap env' s'.buf)
    (hf : whole ∨ FrameFits env.cfg s.dec type s.buf) :
    Side m whole text (parseIrlapFrame env type s) (parseIrlapFrame env' type' s') := by
  have h0 : s'.byte 0 = s.byte 0 := h.bytes 0 (hf.imp_right fun hf => Nat.lt_of_lt_of_le Nat.two_pos hf.1)
  have h1 : s'.byte 1 = s.byte 1 := h.bytes 1 (hf.imp_right And.left)
  have hf := hf.imp_right And.right
  simp only at hf
  unfold parseIrlapFrame
  rw [h0, h1]
  refine Side.ite rfl (fun hx => ?_) fun hx => ?_
  · rw [if_pos (show s.buf.byte 1 &&& ~~~pfBit &&& 0x01 = 0 from hx)] at hf
    exact side_iFrame hp hface h h1 _ _ _ hf
  rw [if_neg (show ¬ (s.buf.byte 1 &&& ~~~pfBit &&& 0x01 = 0) from hx)] at hf
  refine Side.ite rfl (fun _ => side_sFrame hp hface h h1 _ _ _ _) fun hx => ?_
  rw [if_neg (show ¬ (s.buf.byte 1 &&& ~~~pfBit &&& 0x02 = 0) from hx)] at hf
  exact side_uFrame hp hface h h1 hin _ _ _ _ hf

end

end Irdadump
