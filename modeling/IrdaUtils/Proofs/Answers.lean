import IrdaUtils.Lib.Runs
import IrdaUtils.Proofs.Provenance

/-! Which information service exchange classifies a connection. `last_ias` is one record
for all links: a query resets its selector and sets the protocols, an integer answer sets
the selector alone, and a `CONNECT_CMD` to that selector takes over the protocols. It is
zero before the first query and keeps eight bits of an answer, so the connections stand
behind their answers only in runs that avoid both. -/

namespace Irdadump

/-! ### Queries, answers and allocations -/

/-- The decoder's place behind the LAP and LM headers. -/
def Frame.behindLm (f : Frame) : St := ((f.start Decoder.init).pull 2).pull 2

def queryNames (s : St) : List UInt8 × List UInt8 :=
  let nameLen := (s.byte 1).toNat
  (s.copy 2 nameLen, s.copy (3 + nameLen) (s.byte (2 + nameLen)).toNat)

/-- What a frame has to do with the information service. -/
def Pdu.ias : Pdu → IasOp
  | .lm _ (.data op) => op
  | _ => .none

def Frame.iasQuery (cfg : Config) (f : Frame) : Option (List UInt8 × List UInt8) :=
  match (f.pdu cfg).ias with
  | .query (some _) => some (queryNames f.behindLm)
  | _ => none

/-- The value of a successful answer of type `IAS_INTEGER`, all 32 bits of it. -/
def Frame.iasAnswer (cfg : Config) (f : Frame) : Option ℕ :=
  match (f.pdu cfg).ias with
  | .response (.integer _) => some ((f.behindLm.pull 2).be32 5)
  | _ => none

/-- What a lookup of `(class, attribute)` says about the service. -/
def lookupFlags (names : List UInt8 × List UInt8) : Flags where
  ttp := strstr names.2 "TinyTP"
  obex := strstr names.1 "OBEX"
  ircomm := strstr names.1 "IrCOMM" || strstr names.1 "IrLPT"
  irnet := strstr names.1 "IrNet"

def Frame.dlsapSel (f : Frame) : UInt8 := f.byte 2 &&& 0x7f

/-- The frame fills the free slot `i`. -/
def Allocates (cfg : Config) (d : Decoder) (f : Frame) (i : Slot) : Prop :=
  (d.conn i).valid = false ∧ ((decode cfg d f).conn i).valid = true

/-- Before the end of the run `fs` there was an answer `dlsap`, with no query behind it,
and the last query before the answer asked for a service of the protocols `flags`. -/
def AnsweredBy (cfg : Config) (fs : List Frame) (dlsap : ℕ) (flags : Flags) : Prop :=
  ∃ before query between answer behind names,
    fs = before ++ query :: between ++ answer :: behind ∧
    query.iasQuery cfg = some names ∧ (∀ g ∈ between, g.iasQuery cfg = none) ∧
    answer.iasAnswer cfg = some dlsap ∧ (∀ g ∈ behind, g.iasQuery cfg = none) ∧
    flags = lookupFlags names

def Pdu.connectsTo : Pdu → Option UInt8
  | .lm h .connectCmd => some h.dlsapSel
  | _ => none

/-- The answer of the frame `f` behind the run `pre`, if it is one, is not cut to eight bits,
and neither an answer nor a `CONNECT_CMD` to selector 0 comes before the first query. -/
def TidyIas (cfg : Config) (pre : List Frame) (f : Frame) : Prop :=
  (∀ v ∈ f.iasAnswer cfg, v < 256) ∧
    (f.iasAnswer cfg ≠ none ∨ (f.pdu cfg).connectsTo = some 0 → ∃ g ∈ pre, g.iasQuery cfg ≠ none)

instance (cfg : Config) (pre : List Frame) (f : Frame) : Decidable (TidyIas cfg pre f) :=
  inferInstanceAs (Decidable (_ ∧ (_ → _)))

/-- Every frame of the run is tidy behind the frames before it. -/
def TidyRun (cfg : Config) (fs : List Frame) : Prop :=
  Runs.Along (fun pre f => pre ++ [f]) (TidyIas cfg) [] fs

instance (cfg : Config) (fs : List Frame) : Decidable (TidyRun cfg fs) :=
  inferInstanceAs (Decidable (Runs.Along _ _ _ _))

/-! ### `last_ias` along a run -/

theorem queryOf_eq_some {s : St} {q : IasQuery} (h : queryOf s = some q) :
    q = iasLookup (queryNames s).1 (queryNames s).2 := by
  unfold queryOf at h
  simp only at h
  split_ifs at h
  exact (Option.some.inj h).symm

theorem responseOf_integer {s : St} {v : UInt8} (h : responseOf s = .integer v) :
    v = UInt8.ofNat ((s.pull 2).be32 5) := by
  unfold responseOf valueOf at h
  simp only at h
  split_ifs at h
  exact (IasValue.integer.inj h).symm

theorem ias_behindLm (cfg : Config) (f : Frame) :
    (f.pdu cfg).ias = .none ∨ (f.pdu cfg).ias = .query (queryOf f.behindLm) ∨
      (f.pdu cfg).ias = .response (responseOf f.behindLm) := by
  unfold Frame.pdu pduOf lmOf uiOf controlOf iasOf
  simp only
  split_ifs <;> simp only [Pdu.ias, true_or]
  · exact .inr (.inl rfl)
  · exact .inr (.inr rfl)

theorem trackStep_lastIas (cfg : Config) (t : Tracker) (pdu : Pdu) :
    (trackStep cfg t pdu).tracker.lastIas = iasNext t.lastIas pdu.ias := by
  cases pdu with
  | lm h op =>
    cases op with
    | connectCmd =>
      simp only [trackStep, trackConnectCmd]
      split_ifs
      · cases findFreeConnection t.conn <;> rfl
      · rfl
    | disconnect =>
      simp only [trackStep, trackDisconnect]
      cases t.find h.pair <;> rfl
    | _ => rfl
  | _ => rfl

/-- What a frame can do to `last_ias`. -/
inductive IasStep (cfg : Config) (f : Frame) (q : IasQuery) : IasQuery → Prop where
  | asked (names) : f.iasQuery cfg = some names →
      IasStep cfg f q (iasLookup names.1 names.2)
  | answered (v) : f.iasQuery cfg = none → f.iasAnswer cfg = some v →
      IasStep cfg f q { q with lsapSel := UInt8.ofNat v }
  | kept : f.iasQuery cfg = none → IasStep cfg f q q

theorem ias_step (cfg : Config) (d : Decoder) (f : Frame) :
    IasStep cfg f d.lastIas (decode cfg d f).lastIas := by
  have e : (decode cfg d f).lastIas = iasNext d.lastIas (f.pdu cfg).ias :=
    (congrArg Tracker.lastIas (tracker_decode cfg d f)).trans (trackStep_lastIas cfg _ _)
  rw [e]
  rcases ias_behindLm cfg f with h | h | h
  · have hq : f.iasQuery cfg = none := by rw [Frame.iasQuery, h]
    rw [h]
    exact .kept hq
  · cases hq : queryOf f.behindLm with
    | none =>
      rw [h, hq]
      exact .kept (by rw [Frame.iasQuery, h, hq])
    | some q =>
      rw [h, hq, queryOf_eq_some hq]
      exact .asked _ (by rw [Frame.iasQuery, h, hq])
  · have hno : f.iasQuery cfg = none := by rw [Frame.iasQuery, h]
    rw [h]
    cases hr : responseOf f.behindLm with
    | integer v =>
      rw [responseOf_integer hr]
      exact .answered _ hno (by rw [Frame.iasAnswer, h, hr])
    | octSeq => exact .kept hno
    | other => exact .kept hno

/-! ### Runs -/

/-- What `last_ias` stands for behind the frames `fs`: nothing and the selector 0 before
the first query, afterwards the last query, with the selector undefined or answered. -/
def IasSince (cfg : Config) (fs : List Frame) (q : IasQuery) : Prop :=
  ((∀ g ∈ fs, g.iasQuery cfg = none) ∧ q.lsapSel = 0) ∨
    ∃ before query later names, fs = before ++ query :: later ∧
      query.iasQuery cfg = some names ∧ (∀ g ∈ later, g.iasQuery cfg = none) ∧
      q.flags = lookupFlags names ∧
      (q.lsapSel = lsapAny ∨ ∃ between answer behind v, later = between ++ answer :: behind ∧
        answer.iasAnswer cfg = some v ∧ v < 256 ∧ q.lsapSel = UInt8.ofNat v)

theorem not_asked_concat {cfg : Config} {fs : List Frame} {f : Frame}
    (h : ∀ g ∈ fs, g.iasQuery cfg = none) (hf : f.iasQuery cfg = none) :
    ∀ g ∈ fs ++ [f], g.iasQuery cfg = none := by
  intro g hg
  rcases List.mem_append.1 hg with h' | h'
  · exact h g h'
  · rw [List.mem_singleton.1 h']
    exact hf

theorem IasSince.step {cfg : Config} {fs : List Frame} {f : Frame} {q q' : IasQuery}
    (h : IasSince cfg fs q) (htidy : TidyIas cfg fs f) (hs : IasStep cfg f q q') :
    IasSince cfg (fs ++ [f]) q' := by
  cases hs with
  | asked names hq =>
    exact .inr ⟨fs, f, [], names, rfl, hq, by simp, rfl, .inl rfl⟩
  | answered v hno hv =>
    obtain ⟨g, hg, hasked⟩ := htidy.2 (.inl (by rw [hv]; exact Option.some_ne_none v))
    rcases h with ⟨hnone, -⟩ | ⟨before, query, later, names, rfl, hq, hlater, hfl, -⟩
    · exact absurd (hnone g hg) hasked
    · exact .inr ⟨before, query, later ++ [f], names, by simp, hq, not_asked_concat hlater hno,
        hfl, .inr ⟨later, f, [], v, rfl, hv, htidy.1 v hv, rfl⟩⟩
  | kept hno =>
    rcases h with ⟨hnone, h0⟩ | ⟨before, query, later, names, rfl, hq, hlater, hfl, hsel⟩
    · exact .inl ⟨not_asked_concat hnone hno, h0⟩
    · refine .inr ⟨before, query, later ++ [f], names, by simp, hq, not_asked_concat hlater hno,
        hfl, ?_⟩
      rcases hsel with hany | ⟨between, answer, behind, v, rfl, hv⟩
      · exact .inl hany
      · exact .inr ⟨between, answer, behind ++ [f], v, by simp, hv⟩

theorem tidyRun_split {cfg : Config} {pre post : List Frame} {f : Frame}
    (h : TidyRun cfg (pre ++ f :: post)) : TidyRun cfg pre ∧ TidyIas cfg pre f := by
  obtain ⟨hpre, hf⟩ := Runs.Along.split h
  have e : ∀ (l acc : List Frame), l.foldl (fun pre f => pre ++ [f]) acc = acc ++ l := by
    intro l
    induction l with
    | nil => intro acc; simp
    | cons g l ih => intro acc; rw [List.foldl_cons, ih]; simp
  rw [e] at hf
  exact ⟨hpre, hf⟩

theorem iasSince_run (cfg : Config) (fs : List Frame) (h : TidyRun cfg fs) :
    IasSince cfg fs (fs.foldl (decode cfg) Decoder.init).lastIas := by
  induction fs using List.reverseRecOn with
  | nil => exact .inl ⟨by simp, rfl⟩
  | append_singleton fs f ih =>
    rw [List.foldl_append, List.foldl_cons, List.foldl_nil]
    obtain ⟨hpre, hf⟩ := tidyRun_split h
    exact (ih hpre).step hf (ias_step cfg _ f)

theorem selector_ne_any (b : UInt8) : b &&& 0x7f ≠ lsapAny := by
  intro h
  have hle : (b &&& 0x7f).toNat ≤ 0x7f := by
    rw [UInt8.toNat_and]
    exact Nat.and_le_right
  rw [h] at hle
  exact absurd hle (by decide)

/-- A slot is filled by a `CONNECT_CMD` to the selector of `last_ias`, with its protocols. -/
theorem allocates_connectCmd {cfg : Config} {d : Decoder} {f : Frame} {i : Slot}
    (h : Allocates cfg d f i) :
    (f.pdu cfg).connectsTo = some f.dlsapSel ∧ f.dlsapSel = d.lastIas.lsapSel ∧
      ((decode cfg d f).conn i).flags = d.lastIas.flags := by
  obtain ⟨hfree, hv⟩ := h
  have hs : SlotStep d.tracker (f.pdu cfg) (d.conn i) ((decode cfg d f).conn i) := by
    have e : (decode cfg d f).conn = (trackStep cfg d.tracker (f.pdu cfg)).tracker.conn :=
      congrArg Tracker.conn (tracks_parseFrame cfg d f).1
    rw [e]
    exact slot_step cfg d.tracker (f.pdu cfg) i
  generalize (decode cfg d f).conn i = c at hs hv
  cases hs with
  | same _ =>
    rw [hfree] at hv
    cases hv
  | closed => cases hv
  | opened h e hsel =>
    obtain ⟨-, rfl⟩ := pdu_connectCmd_head e
    exact ⟨by rw [e]; rfl, hsel, rfl⟩

/-- In every tidy run the connections are classified by the answers that named their
selectors. -/
theorem tidy_connection_answered (cfg : Config) (fs : List Frame) (htidy : TidyRun cfg fs)
    (pre post : List Frame) (f : Frame) (hfs : fs = pre ++ f :: post) (i : Slot)
    (h : Allocates cfg (pre.foldl (decode cfg) Decoder.init) f i) :
    AnsweredBy cfg pre f.dlsapSel.toNat
      ((decode cfg (pre.foldl (decode cfg) Decoder.init) f).conn i).flags := by
  subst hfs
  obtain ⟨hpre, hf⟩ := tidyRun_split htidy
  obtain ⟨hcmd, hsel, hflags⟩ := allocates_connectCmd h
  rcases iasSince_run cfg pre hpre with
    ⟨hnone, h0⟩ | ⟨before, query, later, names, rfl, hq, hlater, hfl, hsel'⟩
  · -- the selector of the zeroed record, which a tidy run does not connect to
    obtain ⟨g, hg, hasked⟩ := hf.2 (.inr (by rw [hcmd, hsel, h0]))
    exact absurd (hnone g hg) hasked
  · rcases hsel' with hany | ⟨between, answer, behind, v, rfl, hv, hlt, hlsap⟩
    · exact absurd (hsel.trans hany) (selector_ne_any _)
    · have hval : f.dlsapSel.toNat = v := by
        rw [hsel, hlsap, UInt8.toNat_ofNat', Nat.mod_eq_of_lt hlt]
      refine ⟨before, query, between, answer, behind, names, by simp, hq, ?_, ?_, ?_, ?_⟩
      · intro g hg
        exact hlater g (by simp [hg])
      · rw [hval, hv]
      · intro g hg
        exact hlater g (by simp [hg])
      · rw [hflags, hfl]

def lookupRun : List Frame :=
  [.ofBytes 1 [0x03, 0x10, 0x00, 0x10, 0x84, 4, 0x4f, 0x42, 0x45, 0x58,
      6, 0x54, 0x69, 0x6e, 0x79, 0x54, 0x50],
    .ofBytes 0 [0x02, 0x30, 0x10, 0x00, 0x84, 0, 0, 1, 0, 1, 1, 0, 0, 0, 5]]

def lookupConnect : Frame := .ofBytes 1 [0x03, 0x12, 0x85, 0x10, 0x01, 0x00]

theorem tracked_allocates {cfg : Config} (fs : List Frame) {f : Frame} {i : Slot}
    (h : ((fs.foldl (trackFrame cfg) Decoder.init.tracker).conn i).valid = false)
    (h' : ((trackFrame cfg (fs.foldl (trackFrame cfg) Decoder.init.tracker) f).conn i).valid
      = true) :
    Allocates cfg (fs.foldl (decode cfg) Decoder.init) f i := by
  rw [← tracker_run] at h h'
  rw [← tracker_decode] at h'
  exact ⟨h, h'⟩

theorem tidy_connection_answered_lookup :
    AnsweredBy {} lookupRun 5
      ((decode {} (lookupRun.foldl (decode {}) Decoder.init) lookupConnect).conn 0).flags :=
  tidy_connection_answered {} (lookupRun ++ [lookupConnect]) (by decide) lookupRun []
    lookupConnect rfl 0 (tracked_allocates lookupRun (by decide) (by decide))

/-- The first frame of a dump connects to the information service itself, whose selector is
that of the zeroed `last_ias`: a slot is filled although nothing was asked or answered. -/
theorem zeroed_selector_unanswered :
    ∃ f : Frame, Allocates {} Decoder.init f 0 ∧
      ¬ AnsweredBy {} [] f.dlsapSel.toNat ((decode {} Decoder.init f).conn 0).flags := by
  refine ⟨.ofBytes 1 [0x03, 0x10, 0x80, 0x10, 0x01, 0x00], ?_, ?_⟩
  · exact tracked_allocates [] (by decide) (by decide)
  · rintro ⟨before, query, between, answer, behind, names, e, -⟩
    simp at e

end Irdadump
