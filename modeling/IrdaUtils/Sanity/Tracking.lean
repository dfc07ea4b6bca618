import IrdaUtils.Sanity.Upper
import IrdaUtils.Spec.Tracking

/-! The decoder tracks connections as the machine of `Spec/Tracking` does, on every
frame and from every state. What is said about the machine below and in `Proofs` is
thereby said about `parse_irlap_frame`. -/

namespace Irdadump
open Memory

/-- From `s` to `s'` the decoder did what `r` says. -/
structure Tracks (s s' : St) (r : Tracked) : Prop where
  tracker : s'.dec.tracker = r.tracker
  picked : s'.picked = s.picked ++ r.picked
  names : s'.names = s.names ++ r.calls

theorem Upper.tracker {ps : List Parser} {s s' : St} (h : Upper ps s s') :
    s'.dec.tracker = s.dec.tracker := by
  simp only [Decoder.tracker, h.conn, h.cache, h.ias]

theorem Upper.tracks {ps : List Parser} {s s' : St} (h : Upper ps s s') :
    Tracks s s' ⟨s.dec.tracker, [], ps⟩ :=
  ⟨h.tracker, by rw [h.picked, List.append_nil], h.names⟩

/-- Parsers in front of a tracked step. -/
theorem Tracks.after {ps : List Parser} {s s' s'' : St} {r : Tracked} (h' : Tracks s' s'' r)
    (h : Calm ps s s') : Tracks s s'' ⟨r.tracker, r.picked, ps ++ r.calls⟩ :=
  ⟨h'.tracker, by rw [h'.picked, h.picked], by rw [h'.names, h.names, List.append_assoc]⟩

/-- Parsers behind a tracked step. -/
theorem Tracks.then {ps : List Parser} {s s' s'' : St} {r : Tracked} (h : Tracks s s' r)
    (h' : Upper ps s' s'') : Tracks s s'' ⟨r.tracker, r.picked, r.calls ++ ps⟩ :=
  ⟨by rw [h'.tracker, h.tracker], by rw [h'.picked, h.picked],
    by rw [h'.names, h.names, List.append_assoc]⟩

/-! ### The information service -/

theorem parseIriapCommand_calm (s : St) :
    Calm [.iriapCommand] s (parseIriapCommand s) ∧
      (parseIriapCommand s).dec.lastIas = iasNext s.dec.lastIas (.query (queryOf s)) := by
  have h := upper_enter s .iriapCommand
  unfold parseIriapCommand queryOf
  simp only
  have hb : ∀ n, (s.enter .iriapCommand).byte n = s.byte n := fun _ => rfl
  have hc : ∀ n k, (s.enter .iriapCommand).copy n k = s.copy n k := fun _ _ => rfl
  simp only [hb, hc]
  split_ifs
  · refine ⟨?_, rfl⟩
    simpa using (h.then (upper_append _ _)).toCalm.trans (calm_setIas _ _)
  · exact ⟨h.toCalm, rfl⟩

theorem parseIriasValue_calm (s : St) :
    Calm (whenFlag (valueOf s == .octSeq && s.dec.lastIas.ircomm) [.ircommParams]) s
        (parseIriasValue s) ∧
      (parseIriasValue s).dec.lastIas = iasNext s.dec.lastIas (.response (valueOf s)) := by
  unfold parseIriasValue valueOf
  simp only
  by_cases h1 : s.byte 4 = iasInteger
  · simp only [h1, if_true]
    exact ⟨(upper_append s _).toCalm.trans (calm_setIas _ _), rfl⟩
  by_cases h3 : s.byte 4 = iasString
  · have h2 : s.byte 4 ≠ iasOctSeq := by rw [h3]; decide
    simp only [if_neg h1, if_pos h3, if_neg h2]
    exact ⟨(upper_append s _).toCalm, rfl⟩
  by_cases h2 : s.byte 4 = iasOctSeq
  · have e : (s.pull 7).dec = s.dec := rfl
    simp only [if_neg h1, if_neg h3, if_pos h2, e]
    by_cases hi : s.dec.lastIas.ircomm = true
    · have h := ((upper_pull s 7).then (upper_append _ "\n\tIrCOMM Parameters ")).trans
        ((upper_enter _ .ircommParams).then
          (upper_parseIrcommParams (UInt8.ofNat (s.be16 5)) _))
      simp only [hi, if_true]
      exact ⟨h.toCalm, h.ias⟩
    · have h := (upper_pull s 7).then (upper_append _ "N/A ")
      simp only [hi, Bool.false_eq_true, if_false, Bool.and_false]
      exact ⟨h.toCalm, h.ias⟩
  · simp only [if_neg h1, if_neg h3, if_neg h2]
    exact ⟨(upper_print s _).toCalm, rfl⟩

theorem valueOf_congr {s t : St} (h : s.buf = t.buf) : valueOf s = valueOf t := by
  unfold valueOf St.be32 St.be16 St.byte
  rw [h]

theorem parseIriapResponse_calm (s : St) :
    Calm (iasCalls s.dec.lastIas (.response (responseOf s))) s (parseIriapResponse s) ∧
      (parseIriapResponse s).dec.lastIas =
        iasNext s.dec.lastIas (.response (responseOf s)) := by
  -- the message for the opcode comes first and changes the text only
  obtain ⟨s₁, hs₁, hbuf, hdec, e⟩ : ∃ s₁, Upper [.iriapResponse] s s₁ ∧
      s₁.buf = (s.pull 2).buf ∧ s₁.dec = s.dec ∧
      parseIriapResponse s =
        if s.byte 1 = iasSuccess then parseIriasValue (s₁.append "Success ")
        else if s.byte 1 = iasClassUnknown then s₁.append "No such class "
        else if s.byte 1 = iasAttribUnknown then s₁.append "No such attribute "
        else s₁.append "Unknown response code " := by
    have h := (upper_enter s .iriapResponse).then (upper_pull _ 2)
    refine ⟨_, ?_, ?_, ?_, rfl⟩
    · split_ifs
      · exact h.then (upper_print _ _)
      · exact h.then (upper_append _ _)
      · exact h.then (upper_print _ _)
    · split_ifs <;> rfl
    · split_ifs <;> rfl
  rw [e]
  unfold responseOf
  split_ifs
  · obtain ⟨hc, hi⟩ := parseIriasValue_calm (s₁.append "Success ")
    have hv : valueOf (s₁.append "Success ") = valueOf (s.pull 2) := valueOf_congr hbuf
    have hl : (s₁.append "Success ").dec = s.dec := hdec
    rw [hv, hl] at hc hi
    refine ⟨?_, hi⟩
    have := (hs₁.then (upper_append _ "Success ")).toCalm.trans hc
    simpa [iasCalls] using this
  · exact ⟨(hs₁.then (upper_append _ _)).toCalm, by rw [← hdec]; rfl⟩
  · exact ⟨(hs₁.then (upper_append _ _)).toCalm, by rw [← hdec]; rfl⟩
  · exact ⟨(hs₁.then (upper_append _ _)).toCalm, by rw [← hdec]; rfl⟩

/-! ### LM frames -/

theorem upper_whenFlag {b : Bool} {p : Prop} [Decidable p] {ps : List Parser} {f : St → St}
    (hb : p ↔ b = true) (h : ∀ s, Upper ps s (f s)) (s : St) :
    Upper (whenFlag b ps) s (if p then f s else s) := by
  cases b
  · rw [if_neg (by simp [hb])]
    exact Upper.refl s
  · rw [if_pos (by simp [hb])]
    exact h s

theorem upper_connectParsers (c : LsapState) (s : St) :
    Upper c.flags.connectCalls s (connectParsers c s) :=
  ((upper_whenFlag Iff.rfl upper_parseIrttpConnect s).trans
    (upper_whenFlag Iff.rfl upper_parseIrcommConnect _)).trans
    (upper_whenFlag Iff.rfl upper_parseIrnet _)

theorem upper_dataParsers (env : Env) (c : LsapState) (cmd : UInt8) (s : St) :
    Upper (whenFlag c.valid c.flags.dataCalls) s (dataParsers env c cmd s) := by
  have hb : ∀ b : Bool, (c.valid = true ∧ b = true) ↔ (c.valid && b) = true := by simp
  have h3 : ∀ s, Upper [if c.ttp then .ircommTtp else .ircommLmp] s
      (if c.ttp = true then parseIrcommTtp s else parseIrcommLmp s) := by
    intro s
    cases c.ttp
    · exact upper_parseIrcommLmp s
    · exact upper_parseIrcommTtp s
  have h := (((upper_whenFlag (hb c.ttp) upper_parseIrttp s).trans
    (upper_whenFlag (hb c.obex) (fun s => upper_parseObex env s cmd) _)).trans
    (upper_whenFlag (hb c.ircomm) h3 _)).trans (upper_whenFlag (hb c.irnet) upper_parseIrnet _)
  have e : whenFlag c.valid c.flags.dataCalls =
      ((whenFlag (c.valid && c.ttp) [.irttp] ++ whenFlag (c.valid && c.obex) [.obex]) ++
        whenFlag (c.valid && c.ircomm) [if c.ttp then .ircommTtp else .ircommLmp]) ++
        whenFlag (c.valid && c.irnet) [.irnet] := by
    cases c.valid
    · rfl
    · rfl
  rw [e]
  exact h

/-- The state in which the caller of `find_connection` goes on. -/
def St.found (s : St) (h : LmHead) : St :=
  (s.setCache (s.dec.tracker.find h.pair)).pick ((s.dec.tracker.find h.pair).map s.dec.conn)

theorem find_eq (s : St) (h : LmHead) :
    s.find h.type h.slsapSel h.dlsapSel = (s.dec.tracker.find h.pair, s.found h) := by
  simp only [St.find, St.found, Tracker.find, LmHead.pair, Decoder.tracker]
  by_cases ht : h.type ≠ 0
  · simp only [if_pos ht]
  · simp only [if_neg ht]

theorem tracks_found (s : St) (h : LmHead) :
    Tracks s (s.found h)
      ⟨{ s.dec.tracker with connCache := s.dec.tracker.find h.pair },
        [(s.dec.tracker.find h.pair).map s.dec.conn], []⟩ :=
  ⟨rfl, rfl, by simp [St.names, St.found, St.setCache, St.pick]⟩

theorem tracks_connectCmd (env : Env) (s : St) (h : LmHead) :
    Tracks s (lmConnectCmd env s h.caddr h.type h.slsapSel h.dlsapSel)
      (trackConnectCmd env.cfg s.dec.tracker h) := by
  have ha := upper_append s "CONN_CMD "
  unfold lmConnectCmd trackConnectCmd
  simp only [show (s.append "CONN_CMD ").dec = s.dec from rfl,
    show s.dec.tracker.lastIas = s.dec.lastIas from rfl,
    show s.dec.tracker.conn = s.dec.conn from rfl]
  by_cases hd : h.dlsapSel = s.dec.lastIas.lsapSel
  · rw [if_pos hd, if_pos hd]
    cases hf : findFreeConnection s.dec.conn with
    | none => exact (ha.then (upper_print _ _)).tracks
    | some i =>
      have h1 : Tracks (s.append "CONN_CMD ")
          (((s.append "CONN_CMD ").setConn i (.ofConnect s.dec.lastIas h)).pick
            (some (.ofConnect s.dec.lastIas h)))
          ⟨⟨Function.update s.dec.conn i (.ofConnect s.dec.lastIas h), s.dec.connCache,
            s.dec.lastIas⟩, [some (.ofConnect s.dec.lastIas h)], []⟩ :=
        ⟨rfl, rfl, by simp [St.names, St.setConn, St.pick]⟩
      exact (h1.then (upper_connectParsers _ _)).after ha.toCalm
  · rw [if_neg hd, if_neg hd]
    have h1 : Tracks (s.append "CONN_CMD ") ((s.append "CONN_CMD ").pick none)
        ⟨s.dec.tracker, [none], []⟩ := ⟨rfl, rfl, by simp [St.names, St.pick]⟩
    by_cases hf : env.cfg.forceTtp = true ∧ h.dlsapSel ≠ 0x00
    · have e : (env.cfg.forceTtp && h.dlsapSel != 0) = true := by simpa using hf
      rw [if_pos hf, e]
      exact (h1.then (upper_parseIrttpConnect _)).after ha.toCalm
    · have e : (env.cfg.forceTtp && h.dlsapSel != 0) = false := by simpa using hf
      rw [if_neg hf, e]
      exact h1.after ha.toCalm

theorem tracks_connectRsp (env : Env) (s : St) (h : LmHead) :
    Tracks s (lmConnectRsp env s h.type h.slsapSel h.dlsapSel)
      (trackConnectRsp env.cfg s.dec.tracker h) := by
  have ha := upper_append s "CONN_RSP "
  have h1 := tracks_found (s.append "CONN_RSP ") h
  simp only [show (s.append "CONN_RSP ").dec = s.dec from rfl] at h1
  unfold lmConnectRsp trackConnectRsp
  simp only [find_eq, show (s.append "CONN_RSP ").dec = s.dec from rfl]
  cases hf : s.dec.tracker.find h.pair with
  | some i =>
    rw [hf] at h1
    exact (h1.then (upper_connectParsers _ _)).after ha.toCalm
  | none =>
    rw [hf] at h1
    by_cases hc : env.cfg.forceTtp = true ∧ h.slsapSel ≠ 0x00
    · have e : (env.cfg.forceTtp && h.slsapSel != 0) = true := by simpa using hc
      simp only [if_pos hc, e]
      exact (h1.then (upper_parseIrttpConnect _)).after ha.toCalm
    · have e : (env.cfg.forceTtp && h.slsapSel != 0) = false := by simpa using hc
      simp only [if_neg hc, e]
      exact h1.after ha.toCalm

theorem tracks_disconnect (s : St) (h : LmHead) :
    Tracks s (lmDisconnect s h.type h.slsapSel h.dlsapSel)
      (trackDisconnect s.dec.tracker h) := by
  have h1 := tracks_found (s.append "DISC ") h
  simp only [show (s.append "DISC ").dec = s.dec from rfl] at h1
  unfold lmDisconnect trackDisconnect
  simp only [find_eq, show (s.append "DISC ").dec = s.dec from rfl]
  cases hf : s.dec.tracker.find h.pair with
  | some i =>
    rw [hf] at h1
    refine ⟨?_, h1.picked, h1.names⟩
    have ht := h1.tracker
    simp only [Decoder.tracker, Tracker.mk.injEq] at ht
    simp only [St.setConn, Decoder.tracker, ht]
  | none =>
    rw [hf] at h1
    exact ⟨h1.tracker, h1.picked, h1.names⟩

/-- The information service looks at a data frame before the table does. -/
theorem ias_calm (s : St) (slsapSel dlsapSel : UInt8) :
    Calm (iasCalls s.dec.lastIas (iasOf s slsapSel dlsapSel)) s
        (if dlsapSel = 0x00 then parseIriapCommand s
          else if slsapSel = 0x00 then parseIriapResponse s else s) ∧
      (if dlsapSel = 0x00 then parseIriapCommand s
          else if slsapSel = 0x00 then parseIriapResponse s else s).dec.lastIas =
        iasNext s.dec.lastIas (iasOf s slsapSel dlsapSel) := by
  unfold iasOf
  split_ifs
  · exact parseIriapCommand_calm s
  · exact parseIriapResponse_calm s
  · exact ⟨(Upper.refl s).toCalm, rfl⟩

theorem tracks_data (env : Env) (s : St) (cmd : UInt8) (h : LmHead) :
    Tracks s (lmData env s h.type cmd h.slsapSel h.dlsapSel)
      (trackData env.cfg s.dec.tracker h (iasOf s h.slsapSel h.dlsapSel)) := by
  obtain ⟨hc, hi⟩ := ias_calm s h.slsapSel h.dlsapSel
  unfold lmData trackData
  simp only [find_eq]
  set s₁ := if h.dlsapSel = 0x00 then parseIriapCommand s
    else if h.slsapSel = 0x00 then parseIriapResponse s else s
  have h1 := tracks_found s₁ h
  have ht : s₁.dec.tracker = ⟨s.dec.conn, s.dec.connCache,
      iasNext s.dec.lastIas (iasOf s h.slsapSel h.dlsapSel)⟩ := by
    simp only [Decoder.tracker, hc.conn, hc.cache, hi]
  have hfind : s₁.dec.tracker.find h.pair = s.dec.tracker.find h.pair := by
    rw [ht]
    rfl
  rw [hfind, hc.conn, ht] at h1
  rw [hfind]
  cases hf : s.dec.tracker.find h.pair with
  | some i =>
    rw [hf] at h1
    have hslot : (s₁.found h).dec.conn i = s.dec.conn i := congrFun hc.conn i
    simp only [hslot]
    exact (h1.then (upper_dataParsers env (s.dec.conn i) cmd _)).after hc
  | none =>
    rw [hf] at h1
    by_cases hx : h.dlsapSel ≠ 0x00 ∧ h.slsapSel ≠ 0x00 ∧ env.cfg.forceTtp = true
    · have e : (h.dlsapSel != 0 && h.slsapSel != 0 && env.cfg.forceTtp) = true := by
        simpa [and_assoc] using hx
      simp only [e]
      rw [if_pos hx]
      exact (h1.then (upper_parseIrttp _)).after hc
    · have e : (h.dlsapSel != 0 && h.slsapSel != 0 && env.cfg.forceTtp) = false := by
        rw [← Bool.not_eq_true]
        simpa [and_assoc] using hx
      simp only [e]
      rw [if_neg hx]
      exact h1.after hc

/-! ### LAP frames -/

theorem tracks_irlmp (env : Env) (s : St) (caddr : UInt8) (type : ℤ) (cmd : UInt8) :
    Tracks s (parseIrlmp env s caddr type cmd)
      (trackStep env.cfg s.dec.tracker (lmOf s caddr type)) := by
  set h : LmHead := ⟨caddr, type, s.byte 1, s.byte 0 &&& lsapMask⟩
  have hu := (upper_pull s 2).then (upper_append _
    s!"LM slsap={fmtX 2 (s.byte 1).toNat} dlsap={fmtX 2 (s.byte 0 &&& lsapMask).toNat} ")
  unfold parseIrlmp lmOf
  simp only
  rw [byte_append]
  by_cases hc : s.byte 0 &&& controlBit ≠ 0
  · have hu' := hu.then (upper_pull _ 2)
    rw [if_pos hc, if_pos hc]
    unfold controlOf
    split_ifs
    · exact (tracks_connectCmd env _ h).after hu'.toCalm
    · exact (tracks_connectRsp env _ h).after hu'.toCalm
    · exact (tracks_disconnect _ h).after hu'.toCalm
    · exact hu'.tracks
  · rw [if_neg hc, if_neg hc]
    exact (tracks_data env _ cmd h).after hu.toCalm

theorem tracks_uiIrlmp (env : Env) (s : St) :
    Tracks s (parseUiIrlmp env s) (trackStep env.cfg s.dec.tracker (uiOf s)) := by
  have hu := (upper_pull s 2).then (upper_append _
    s!"LM slsap={fmtX 2 (s.byte 1).toNat} dlsap={fmtX 2 (s.byte 0 &&& lsapMask).toNat} ")
  unfold parseUiIrlmp uiOf
  simp only
  rw [byte_append]
  by_cases hl : s.byte 1 = 0x70 ∧ s.byte 0 &&& lsapMask = 0x70
  · have hu' := (hu.then (upper_pull _ 1)).then (upper_append _
      s!" Ultra-PID={fmtX 2 ((s.pull 2).byte 0 &&& 0x7f).toNat} ")
    rw [if_pos hl]
    by_cases hp : (s.pull 2).byte 0 &&& 0x7f = 0x01
    · rw [if_pos hp, if_pos ⟨hl.1, hl.2, hp⟩]
      exact ((hu'.then (upper_pull _ 1)).trans (upper_parseObex env _ 1)).tracks
    · rw [if_neg hp, if_neg (fun h => hp h.2.2)]
      exact hu'.tracks
  · rw [if_neg hl, if_neg (fun h => hl ⟨h.1, h.2.1⟩)]
    exact hu.tracks

/-- A step that leaves the tracker and the records alone, behind a tracked one. -/
theorem Tracks.quiet {s s' s'' : St} {r : Tracked} (h : Tracks s s' r)
    (hd : s''.dec.tracker = s'.dec.tracker) (hp : s''.picked = s'.picked)
    (hn : s''.calls = s'.calls) : Tracks s s'' r :=
  ⟨hd.trans h.tracker, hp.trans h.picked, by rw [← h.names, St.names, hn]; rfl⟩

theorem tracks_trackI {type nr ns : ℤ} {s s' : St} {r : Tracked} (h : Tracks s s' r) :
    Tracks s (trackI type nr ns s') r := by
  unfold trackI
  simp only
  split_ifs <;> exact h.quiet rfl rfl rfl

theorem tracks_trackRr {type nr : ℤ} {s s' : St} {r : Tracked} (h : Tracks s s' r) :
    Tracks s (trackRr type nr s') r := by
  unfold trackRr
  simp only
  split_ifs <;> exact h.quiet rfl rfl rfl

theorem tracks_iFrame (env : Env) (caddr cmd pf : UInt8) (type : ℤ) (s : St) :
    Tracks s (parseIFrame env caddr cmd pf type s)
      (trackStep env.cfg s.dec.tracker
        (if env.cfg.printIrlmp then lmOf (s.pull 2) caddr type else .other)) := by
  unfold parseIFrame
  simp only
  set t := s!"i:{cmdText cmd}  {dirText type} ca={fmtX 2 caddr.toNat} pf={pf.toNat} " ++
    s!"nr={(s.byte 1 >>> 5).toNat} ns={((s.byte 1 >>> 1) &&& 0x07).toNat} "
  have hu := (upper_pull s 2).then (upper_append _ t)
  have h1 : Tracks s
      (if env.cfg.printIrlmp = true then parseIrlmp env ((s.pull 2).append t) caddr type cmd
        else (s.pull 2).append t)
      (trackStep env.cfg s.dec.tracker
        (if env.cfg.printIrlmp = true then lmOf (s.pull 2) caddr type else .other)) := by
    split_ifs
    · exact (tracks_irlmp env _ caddr type cmd).after hu.toCalm
    · exact hu.tracks
  by_cases hl : env.cfg.printLostFrames = true
  · rw [if_pos hl]
    exact tracks_trackI h1
  · rw [if_neg hl]
    exact h1

theorem tracks_sFrame (env : Env) (caddr cmd pf ctrl : UInt8) (type : ℤ) (s : St) :
    Tracks s (parseSFrame env caddr cmd pf ctrl type s) ⟨s.dec.tracker, [], []⟩ := by
  have ha : ∀ t, Tracks s (s.append t) ⟨s.dec.tracker, [], []⟩ := fun t => (upper_append s t).tracks
  unfold parseSFrame
  simp only
  split_ifs
  · unfold parseRrFrame
    simp only
    split_ifs
    · exact tracks_trackRr (ha _)
    · exact ha _
  all_goals exact ha _

theorem tracks_xidFrame (env : Env) (cmd : UInt8) (type : ℤ) (s : St) :
    Tracks s (parseXidFrame env cmd type s) ⟨s.dec.tracker, [], []⟩ := by
  have h := (Upper.refl s).tracks
  unfold parseXidFrame parseXidInfo
  simp only
  split_ifs <;> exact h.quiet rfl rfl rfl

theorem tracks_uFrame (env : Env) (caddr cmd pf ctrl : UInt8) (type : ℤ) (s : St) :
    Tracks s (parseUFrame env caddr cmd pf ctrl type s)
      (trackStep env.cfg s.dec.tracker
        (if ctrl = discCmd ∧ cmd ≠ 0 then .lapDisc caddr
          else if ctrl = uiFrame ∧ env.cfg.printIrlmp then uiOf (s.pull 2) else .other)) := by
  have ha : ∀ t, Tracks s (s.append t) ⟨s.dec.tracker, [], []⟩ := fun t => (upper_append s t).tracks
  by_cases hd : ctrl = discCmd
  · subst hd
    by_cases hc : cmd = 0
    · subst hc
      exact ha _
    · rw [if_pos ⟨rfl, hc⟩]
      have e : parseUFrame env caddr cmd pf discCmd type s = parseDiscFrame caddr cmd pf type s := by
        simp [parseUFrame, hc, discCmd, xidRsp, xidCmd, snrmCmd, dmRsp]
      rw [e]
      exact ⟨rfl, by simp [trackStep, parseDiscFrame, appendUFrame, St.append],
        by simp [trackStep, parseDiscFrame, appendUFrame, St.append, St.names]⟩
  rw [if_neg (fun h => hd h.1)]
  by_cases hu : ctrl = uiFrame
  · subst hu
    have e : parseUFrame env caddr cmd pf uiFrame type s = parseUiFrame env caddr cmd pf type s := by
      simp [parseUFrame, discCmd, xidRsp, xidCmd, snrmCmd, dmRsp, uiFrame, testCmd, uaRsp, frmrRsp]
    rw [e]
    unfold parseUiFrame
    simp only [true_and]
    have hp := (upper_pull s 2).then (upper_append _
      s!"ui:{cmdText cmd} {dirText type} ca={fmtX 2 caddr.toNat} pf={pf.toNat}  ")
    split_ifs
    · exact (tracks_uiIrlmp env _).after hp.toCalm
    · exact hp.tracks
  rw [if_neg (fun h => hu h.1)]
  unfold parseUFrame
  rw [if_neg hd, if_neg hu]
  split_ifs
  · exact tracks_xidFrame env cmd type s
  · exact (upper_parseSnrmFrame env caddr cmd pf type s).tracks
  · exact ha _
  · exact ha _
  · exact ha _
  · exact (upper_parseUaFrame env caddr cmd pf type s).tracks
  · exact ha _
  · exact ha _

/-- Every frame moves the tracker as the machine says, and is decoded with the slots
and by the parsers that the machine names. -/
theorem tracks_irlapFrame (env : Env) (type : ℤ) (s : St) :
    Tracks s (parseIrlapFrame env type s)
      (trackStep env.cfg s.dec.tracker (pduOf env.cfg type s)) := by
  unfold parseIrlapFrame pduOf
  simp only
  by_cases h1 : s.byte 1 &&& ~~~pfBit &&& 0x01 = 0
  · rw [if_pos h1, if_pos h1]
    exact tracks_iFrame env _ _ _ type s
  rw [if_neg h1, if_neg h1]
  by_cases h2 : s.byte 1 &&& ~~~pfBit &&& 0x02 = 0
  · rw [if_pos h2]
    have hd : s.byte 1 &&& ~~~pfBit ≠ discCmd := by
      intro e
      rw [e] at h2
      exact absurd h2 (by decide)
    have hu : s.byte 1 &&& ~~~pfBit ≠ uiFrame := by
      intro e
      rw [e] at h2
      exact absurd h2 (by decide)
    rw [if_neg (fun h => hd h.1), if_neg (fun h => hu h.1)]
    exact tracks_sFrame env _ _ _ _ type s
  · rw [if_neg h2]
    exact tracks_uFrame env _ _ _ _ type s

theorem tracks_parseFrame (cfg : Config) (d : Decoder) (f : Frame) :
    (decode cfg d f).tracker = (trackStep cfg d.tracker (f.pdu cfg)).tracker ∧
      (parseFrame cfg d f).picked = (trackStep cfg d.tracker (f.pdu cfg)).picked ∧
      (parseFrame cfg d f).names = (trackStep cfg d.tracker (f.pdu cfg)).calls := by
  have h := tracks_irlapFrame { f.env with cfg := cfg } f.type (f.start d)
  exact ⟨h.tracker, h.picked, h.names⟩

end Irdadump
