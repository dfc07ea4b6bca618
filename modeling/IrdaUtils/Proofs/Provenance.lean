import IrdaUtils.Sanity.Table

/-! Where the valid slots of the connection table come from. A slot is only ever filled
by a `CONNECT_CMD`, and a LAP `DISC` leaves no valid slot of its link, so behind every
valid slot of a reachable state stands a `CONNECT_CMD` that is younger than the last
`DISC` of its link. -/

namespace Irdadump

/-- The opcode of a connect command has no control bit, so it is read from behind the
LM header: both headers were pulled. -/
theorem lmOf_connectCmd {s : St} {caddr : UInt8} {type : ℤ} {h : LmHead}
    (e : lmOf s caddr type = .lm h .connectCmd) :
    2 ≤ s.buf.len ∧ s.byte 0 &&& controlBit ≠ 0 ∧ s.byte 2 = connectCmd ∧
      h = ⟨caddr, type, s.byte 1, s.byte 0 &&& lsapMask⟩ := by
  simp only [lmOf, Pdu.lm.injEq] at e
  obtain ⟨hh, hop⟩ := e
  by_cases hc : s.byte 0 &&& controlBit ≠ 0
  · rw [if_pos hc] at hop
    have hb : (s.pull 2).byte 0 = connectCmd := by
      unfold controlOf at hop
      split_ifs at hop with h1
      exact h1
    rcases Nat.lt_or_ge s.buf.len 2 with hl | hl
    · rw [St.pull_short hl] at hb
      rw [hb] at hc
      exact absurd (by decide) hc
    · rw [St.byte_pull hl] at hb
      exact ⟨hl, hc, hb, hh.symm⟩
  · rw [if_neg hc] at hop
    cases hop

/-- A connect command by its bytes. -/
theorem pdu_connectCmd_head {cfg : Config} {f : Frame} {h : LmHead}
    (e : f.pdu cfg = .lm h .connectCmd) :
    f.IsConnectCmd ∧ h = ⟨f.caddr, f.type, f.byte 3, f.byte 2 &&& 0x7f⟩ := by
  unfold Frame.pdu pduOf at e
  simp only at e
  split_ifs at e with h1 h2 h3 h4
  · obtain ⟨hl, hc, ho, rfl⟩ := lmOf_connectCmd e
    rcases Nat.lt_or_ge f.buf.len 2 with hlen | hlen
    · -- no header was pulled, and the length of a shorter frame stays below 2
      rw [St.pull_short hlen] at hl
      exact absurd hl (Nat.not_le.2 hlen)
    · have hs : ∀ n, ((f.start Decoder.init).pull 2).byte n = f.byte (2 + n) := St.byte_pull hlen
      rw [St.len_pull hlen] at hl
      simp only [hs] at hc ho ⊢
      refine ⟨⟨?_, ?_, hc, ho⟩, rfl⟩
      · have : (f.start Decoder.init).buf.len = f.buf.len := rfl
        omega
      · rw [UInt8.and_assoc] at h1
        exact h1
  · unfold uiOf at e
    split_ifs at e

theorem pdu_connectCmd {cfg : Config} {f : Frame} {h : LmHead}
    (e : f.pdu cfg = .lm h .connectCmd) :
    f.IsConnectCmd ∧ h.caddr = f.caddr ∧ h.pair = f.selectors := by
  obtain ⟨hf, rfl⟩ := pdu_connectCmd_head e
  exact ⟨hf, rfl, rfl⟩

theorem pdu_lapDisc {f : Frame} (cfg : Config) (h : f.IsLapDisc) :
    f.pdu cfg = .lapDisc f.caddr := by
  obtain ⟨hd, hc⟩ := h
  have e : (f.start Decoder.init).byte 1 &&& ~~~pfBit = discCmd := hd
  unfold Frame.pdu pduOf
  simp only [e]
  rw [if_neg (by decide), if_pos ⟨trivial, hc⟩]
  rfl

/-- `c` is the slot that the frame `f` of the run `fs` has filled. -/
def FilledBy (cfg : Config) (c : LsapState) (fs : List Frame) : Prop :=
  ∃ pre f post, fs = pre ++ f :: post ∧ f.IsConnectCmd ∧ f.caddr = c.caddr ∧
    f.selectors = c.pair ∧ (∀ g ∈ post, ¬ (g.IsLapDisc ∧ g.caddr = c.caddr)) ∧
    c.flags = (pre.foldl (decode cfg) Decoder.init).lastIas.flags

theorem FilledBy.concat {cfg : Config} {c : LsapState} {fs : List Frame} {g : Frame}
    (h : FilledBy cfg c fs) (hg : ¬ (g.IsLapDisc ∧ g.caddr = c.caddr)) :
    FilledBy cfg c (fs ++ [g]) := by
  obtain ⟨pre, f, post, rfl, hf, ha, hp, hpost, hfl⟩ := h
  refine ⟨pre, f, post ++ [g], by simp, hf, ha, hp, ?_, hfl⟩
  intro g' hg'
  rcases List.mem_append.1 hg' with h' | h'
  · exact hpost g' h'
  · rw [List.mem_singleton.1 h']
    exact hg

theorem filledBy_step (cfg : Config) (fs : List Frame) (f : Frame) (i : Slot)
    (ih : ((fs.foldl (decode cfg) Decoder.init).conn i).valid = true →
      FilledBy cfg ((fs.foldl (decode cfg) Decoder.init).conn i) fs)
    (hv : ((decode cfg (fs.foldl (decode cfg) Decoder.init) f).conn i).valid = true) :
    FilledBy cfg ((decode cfg (fs.foldl (decode cfg) Decoder.init) f).conn i) (fs ++ [f]) := by
  set d := fs.foldl (decode cfg) Decoder.init with hd
  have hs : SlotStep d.tracker (f.pdu cfg) (d.conn i) ((decode cfg d f).conn i) := by
    have e : (decode cfg d f).conn = (trackStep cfg d.tracker (f.pdu cfg)).tracker.conn :=
      congrArg Tracker.conn (tracks_parseFrame cfg d f).1
    rw [e]
    exact slot_step cfg d.tracker (f.pdu cfg) i
  generalize (decode cfg d f).conn i = c at hs hv
  cases hs with
  | same hne =>
    refine (ih hv).concat ?_
    rintro ⟨hdisc, ha⟩
    exact hne _ (pdu_lapDisc cfg hdisc) ha.symm
  | closed => cases hv
  | opened h e _ =>
    obtain ⟨hf, ha, hp⟩ := pdu_connectCmd e
    exact ⟨fs, f, [], rfl, hf, ha.symm, by rw [ofConnect_pair, hp], by simp, by rw [← hd]; rfl⟩

/-- Behind every valid slot of a reachable state stands a `CONNECT_CMD` of its link with
its selectors, later than the last LAP `DISC` of the link; the slot's protocols are those
of `last_ias` at that frame. -/
theorem valid_slot_provenance (cfg : Config) (fs : List Frame) (i : Slot)
    (h : ((fs.foldl (decode cfg) Decoder.init).conn i).valid = true) :
    FilledBy cfg ((fs.foldl (decode cfg) Decoder.init).conn i) fs := by
  induction fs using List.reverseRecOn with
  | nil =>
    have h0 : ∀ j, (Decoder.init.conn j).valid = false := by decide
    rw [List.foldl_nil, h0] at h
    cases h
  | append_singleton fs f ih =>
    rw [List.foldl_append, List.foldl_cons, List.foldl_nil] at h ⊢
    exact filledBy_step cfg fs f i ih h

/-- Connect, LAP disconnect, connect the other way round. -/
def reconnectRun : List Frame :=
  [.ofBytes 1 [0x03, 0x10, 0x80, 0x10, 0x01, 0x00], .ofBytes 1 [0x03, 0x53],
    .ofBytes 0 [0x03, 0x10, 0x80, 0x21, 0x01, 0x00]]

theorem valid_slot_provenance_reconnect :
    FilledBy {} ((reconnectRun.foldl (decode {}) Decoder.init).conn 0) reconnectRun := by
  refine valid_slot_provenance _ _ 0 ?_
  have e := congrArg Tracker.conn (tracker_run {} Decoder.init reconnectRun)
  exact (congrArg LsapState.valid (congrFun e 0)).trans (by decide)

end Irdadump
