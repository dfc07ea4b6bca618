import IrdaUtils.Lib.Runs
import IrdaUtils.Sanity.Kept
import IrdaUtils.Sanity.Table

/-! The notes on lost frames, for traffic without loss. The counters start at zero as if a
frame with the number zero had been seen from either side, so that the first frames are noted
as out of sequence; once both sides have sent a frame, nothing is. -/

namespace Irdadump

open Runs

/-! ### Frames that leave the counters alone -/

def SameCounts (s s' : St) : Prop := s'.dec.selfNs = s.dec.selfNs ∧ s'.dec.peerNs = s.dec.peerNs

theorem sameCounts_kept : Kept SameCounts where
  after h' h := ⟨h'.1.trans h.1, h'.2.trans h.2⟩
  calm h := ⟨h.counters.2.1, h.counters.2.2.2⟩
  table _ _ := ⟨rfl, rfl⟩
  cache _ _ := ⟨rfl, rfl⟩
  pick _ _ := ⟨rfl, rfl⟩

theorem sameCounts_uFrame (env : Env) (caddr cmd pf ctrl : UInt8) (type : ℤ) (s : St) :
    SameCounts s (parseUFrame env caddr cmd pf ctrl type s) := by
  refine sameCounts_kept.uFrame env caddr cmd pf ctrl type s fun _ => ?_
  unfold parseXidFrame parseXidInfo
  simp only
  split_ifs <;> exact ⟨rfl, rfl⟩

theorem sameCounts_trackRr (type nr : ℤ) (s : St) : SameCounts s (trackRr type nr s) := by
  unfold trackRr
  simp only
  split_ifs <;> exact ⟨rfl, rfl⟩

theorem sameCounts_sFrame (env : Env) (caddr cmd pf ctrl : UInt8) (type : ℤ) (s : St) :
    SameCounts s (parseSFrame env caddr cmd pf ctrl type s) := by
  have happend := sameCounts_kept.append s
  unfold parseSFrame
  simp only
  split_ifs
  · exact rel_ite (sameCounts_kept.after (sameCounts_trackRr _ _ _) (happend _)) (happend _)
  all_goals exact happend _

/-! ### Lines and notes -/

def Frame.isI (f : Frame) : Bool := f.byte 1 &&& 0x01 == 0
def Frame.isRr (f : Frame) : Bool := f.byte 1 &&& 0x0f == rr

/-- Next to receive. -/
def Frame.nr (f : Frame) : ℕ := (f.byte 1 >>> 5).toNat

/-- Next to send. -/
def Frame.ns (f : Frame) : ℕ := ((f.byte 1 >>> 1) &&& 0x07).toNat

/-- `parse_i_frame` up to the notes. -/
def iLine (env : Env) (caddr cmd pf : UInt8) (type : ℤ) (s : St) : St :=
  let nr := (s.byte 1 >>> 5).toNat
  let ns := ((s.byte 1 >>> 1) &&& 0x07).toNat
  let s := s.pull 2
  let s := s.append (s!"i:{cmdText cmd}  {dirText type} ca={fmtX 2 caddr.toNat} pf={pf.toNat} " ++
    s!"nr={nr} ns={ns} ")
  if env.cfg.printIrlmp then parseIrlmp env s caddr type cmd else s

theorem parseIFrame_eq (env : Env) (caddr cmd pf : UInt8) (type : ℤ) (s : St) :
    parseIFrame env caddr cmd pf type s =
      if env.cfg.printLostFrames then
        trackI type (s.byte 1 >>> 5).toNat ((s.byte 1 >>> 1) &&& 0x07).toNat
          (iLine env caddr cmd pf type s)
      else iLine env caddr cmd pf type s := rfl

theorem sameCounts_iLine (env : Env) (caddr cmd pf : UInt8) (type : ℤ) (s : St) :
    SameCounts s (iLine env caddr cmd pf type s) := by
  have hhead := sameCounts_kept.head s
  exact rel_ite (sameCounts_kept.after (sameCounts_kept.irlmp env _ caddr type cmd) (hhead _)) (hhead _)

/-- `parse_i_frame` on a frame, up to the notes. -/
def Frame.iLine (cfg : Config) (d : Decoder) (f : Frame) : St :=
  Irdadump.iLine { f.env with cfg := cfg } (f.byte 0 &&& cbroadcast) (f.byte 0 &&& cmdFrame)
    ((f.byte 1 &&& pfBit) >>> 4) f.type (f.start d)

/-- `parse_rr_frame` on a frame, up to the notes. -/
def Frame.rrLine (d : Decoder) (f : Frame) : St :=
  appendSFrame "rr" (f.byte 0 &&& cbroadcast) (f.byte 0 &&& cmdFrame) ((f.byte 1 &&& pfBit) >>> 4)
    f.type (f.start d)

/-- The line of a frame without the notes. -/
def bareLine (cfg : Config) (d : Decoder) (f : Frame) : String :=
  if f.isI then (f.iLine cfg d).str
  else if f.isRr then (f.rrLine d).str
  else (parseFrame cfg d f).str

/-- Nothing is appended about lost or retransmitted frames. -/
def NoNote (cfg : Config) (d : Decoder) (f : Frame) : Prop := (parseFrame cfg d f).str = bareLine cfg d f

/-! ### Counters -/

/-- The counter of the direction of a frame. -/
def Decoder.ownNs (d : Decoder) (type : ℤ) : ℤ := if type ≠ 0 then d.selfNs else d.peerNs
def Decoder.otherNs (d : Decoder) (type : ℤ) : ℤ := if type ≠ 0 then d.peerNs else d.selfNs

theorem SameCounts.ownNs {s s' : St} (h : SameCounts s s') (type : ℤ) :
    s'.dec.ownNs type = s.dec.ownNs type := by
  unfold Decoder.ownNs
  rw [h.1, h.2]

theorem SameCounts.otherNs {s s' : St} (h : SameCounts s s') (type : ℤ) :
    s'.dec.otherNs type = s.dec.otherNs type := by
  unfold Decoder.otherNs
  rw [h.1, h.2]

theorem append_eq_self {s t : String} : s ++ t = s ↔ t = "" := by
  refine ⟨fun h => ?_, fun h => by rw [h, String.append_empty]⟩
  have hlist : s.toList ++ t.toList = s.toList := by rw [← String.toList_append, h]
  rw [← String.toList_inj, List.append_right_eq_self.1 hlist]
  rfl

theorem lostText_eq_empty {ns nr : ℤ} : lostText ns nr = "" ↔ nr = (ns + 1) % 8 := by
  have hne : ∀ n : ℤ, s!"** {n} frame(s) lost ** " ≠ "" := by
    intro n h
    have hlist := congrArg String.toList h
    change ("** " ++ toString n ++ " frame(s) lost ** ").toList = [] at hlist
    rw [String.toList_append, String.toList_append] at hlist
    simp at hlist
  by_cases h : nr = (ns + 1) % 8
  · rw [lostText, if_neg (not_not.2 h)]
    exact iff_of_true rfl h
  · rw [lostText, if_pos h]
    exact iff_of_false (hne _) h

/-- Two notes, of which the second one depends on `p`. -/
theorem append_notes_iff {p : Prop} [Decidable p] (s : St) (t : String) {u : String} (hu : u ≠ "") :
    (if p then (s.append t).append u else s.append t).str = s.str ↔ t = "" ∧ ¬ p := by
  split_ifs with hp
  · refine iff_of_false (fun h => ?_) (fun h => h.2 hp)
    have h' : s.str ++ (t ++ u) = s.str := by rw [← String.append_assoc]; exact h
    exact hu (String.append_eq_empty_iff.1 (append_eq_self.1 h')).2
  · exact append_eq_self.trans ⟨fun h => ⟨h, hp⟩, And.left⟩

/-- A frame in sequence on both sides has no note. -/
theorem trackI_str_iff (type nr ns : ℤ) (s : St) :
    (trackI type nr ns s).str = s.str ↔
      nr = (s.dec.otherNs type + 1) % 8 ∧ ns = (s.dec.ownNs type + 1) % 8 := by
  unfold trackI Decoder.otherNs Decoder.ownNs
  by_cases htype : type ≠ 0
  · simp only [if_pos htype]
    refine (append_notes_iff s _ (by decide)).trans ?_
    rw [lostText_eq_empty, not_not]
  · simp only [if_neg htype]
    refine (append_notes_iff s _ (by decide)).trans ?_
    rw [lostText_eq_empty, not_not]

theorem trackRr_str_iff (type nr : ℤ) (s : St) :
    (trackRr type nr s).str = s.str ↔ nr = (s.dec.otherNs type + 1) % 8 := by
  unfold trackRr Decoder.otherNs
  rw [← lostText_eq_empty]
  by_cases htype : type ≠ 0
  · simp only [if_pos htype]
    exact append_eq_self
  · simp only [if_neg htype]
    exact append_eq_self

/-! ### Traffic without loss -/

/-- The I frames that have been sent by either side. -/
structure Sent where
  self : ℕ
  peer : ℕ

namespace Sent

def none : Sent := ⟨0, 0⟩

def own (c : Sent) (type : ℤ) : ℕ := if type ≠ 0 then c.self else c.peer
def other (c : Sent) (type : ℤ) : ℕ := if type ≠ 0 then c.peer else c.self

def step (c : Sent) (f : Frame) : Sent :=
  if f.isI then if f.type ≠ 0 then ⟨c.self + 1, c.peer⟩ else ⟨c.self, c.peer + 1⟩ else c

end Sent

/-- The frame has the next number of its side, and expects the next one of the other side. -/
structure InOrder (c : Sent) (f : Frame) : Prop where
  ns : f.isI = true → f.ns = c.own f.type % 8
  nr : f.isI = true ∨ f.isRr = true → f.nr = c.other f.type % 8

def LossFree (fs : List Frame) : Prop := Along Sent.step InOrder Sent.none fs

/-- A counter has the number of the last frame, or zero before the first. -/
structure InStep (c : Sent) (d : Decoder) : Prop where
  self : d.selfNs = ((c.self - 1) % 8 : ℕ)
  peer : d.peerNs = ((c.peer - 1) % 8 : ℕ)

theorem InStep.own {c : Sent} {d : Decoder} (h : InStep c d) (type : ℤ) :
    d.ownNs type = ((c.own type - 1) % 8 : ℕ) := by
  unfold Decoder.ownNs Sent.own
  split_ifs
  · exact h.self
  · exact h.peer

theorem InStep.other {c : Sent} {d : Decoder} (h : InStep c d) (type : ℤ) :
    d.otherNs type = ((c.other type - 1) % 8 : ℕ) := by
  unfold Decoder.otherNs Sent.other
  split_ifs
  · exact h.peer
  · exact h.self

/-- Only before the first frame is the next number not the one behind the counter. -/
theorem next_iff (n : ℕ) : ((n % 8 : ℕ) : ℤ) = (((n - 1) % 8 : ℕ) + 1) % 8 ↔ n ≠ 0 := by
  omega

theorem inStep_init : InStep Sent.none Decoder.init := ⟨rfl, rfl⟩

/-! ### One frame -/

/-- A mask within a larger one. -/
theorem and_and {k m : UInt8} (h : k &&& m = m) (b : UInt8) : b &&& k &&& m = b &&& m := by
  rw [UInt8.and_assoc, h]

section Step

variable {cfg : Config} {d : Decoder} {f : Frame}

theorem ctrl_i : (f.start d).byte 1 &&& ~~~pfBit &&& 0x01 = 0 ↔ f.isI = true := by
  rw [and_and (by decide), Frame.isI, beq_iff_eq]
  rfl

theorem parseFrame_i (hcfg : cfg.printLostFrames = true) (h : f.isI = true) :
    parseFrame cfg d f = trackI f.type f.nr f.ns (f.iLine cfg d) := by
  refine (if_pos (ctrl_i.2 h)).trans ?_
  rw [parseIFrame_eq]
  exact if_pos hcfg

theorem sameCounts_frameLine : SameCounts (f.start d) (f.iLine cfg d) := sameCounts_iLine _ _ _ _ _ _

theorem sameCounts_parseFrame (h : f.isI = false) : SameCounts (f.start d) (parseFrame cfg d f) := by
  have hne : ¬ (f.start d).byte 1 &&& ~~~pfBit &&& 0x01 = 0 := by
    rw [ctrl_i, h]
    decide
  unfold parseFrame parseIrlapFrame
  simp only [if_neg hne]
  exact rel_ite (sameCounts_sFrame _ _ _ _ _ _ _) (sameCounts_uFrame _ _ _ _ _ _ _)

theorem not_isI_of_isRr (h : f.isRr = true) : f.isI = false := by
  have h15 : f.byte 1 &&& 0x0f = rr := beq_iff_eq.1 h
  rw [Frame.isI, ← and_and (k := 0x0f) (by decide), h15]
  decide

theorem parseFrame_rr (hcfg : cfg.printLostFrames = true) (h : f.isRr = true) :
    parseFrame cfg d f = trackRr f.type f.nr (f.rrLine d) := by
  have h15 : (f.start d).byte 1 &&& 0x0f = rr := beq_iff_eq.1 h
  have h1 : ¬ (f.start d).byte 1 &&& ~~~pfBit &&& 0x01 = 0 := by
    rw [ctrl_i, not_isI_of_isRr h]
    decide
  have h2 : (f.start d).byte 1 &&& ~~~pfBit &&& 0x02 = 0 := by
    rw [and_and (by decide), ← and_and (k := 0x0f) (by decide), h15]
    decide
  have h3 : (f.start d).byte 1 &&& ~~~pfBit &&& 0x0f = rr := by rw [and_and (by decide), h15]
  exact (if_neg h1).trans ((if_pos h2).trans ((if_pos h3).trans (if_pos hcfg)))

/-- An I frame moves the counter of its side. -/
theorem decode_i (hcfg : cfg.printLostFrames = true) (h : f.isI = true) :
    (decode cfg d f).selfNs = (if f.type ≠ 0 then (f.ns : ℤ) else d.selfNs) ∧
      (decode cfg d f).peerNs = (if f.type ≠ 0 then d.peerNs else (f.ns : ℤ)) := by
  have hsame : SameCounts (f.start d) (f.iLine cfg d) := sameCounts_frameLine
  rw [decode, parseFrame_i hcfg h]
  unfold trackI
  by_cases htype : f.type ≠ 0
  · simp only [if_pos htype]
    exact ⟨trivial, hsame.2⟩
  · simp only [if_neg htype]
    exact ⟨hsame.1, trivial⟩

/-- Every frame in order keeps the counters in step. -/
theorem inStep_step (hcfg : cfg.printLostFrames = true) {c : Sent} (h : InStep c d) (hf : InOrder c f) :
    InStep (c.step f) (decode cfg d f) := by
  cases hi : f.isI with
  | true =>
    obtain ⟨hself, hpeer⟩ := decode_i (d := d) hcfg hi
    have hns := hf.ns hi
    unfold Sent.step
    rw [if_pos hi]
    unfold Sent.own at hns
    split_ifs at hself hpeer hns ⊢
    · exact ⟨by rw [hself, hns]; rfl, hpeer.trans h.peer⟩
    · exact ⟨hself.trans h.self, by rw [hpeer, hns]; rfl⟩
  | false =>
    have hsame : SameCounts (f.start d) (parseFrame cfg d f) := sameCounts_parseFrame hi
    unfold Sent.step
    rw [hi, if_neg (by decide)]
    exact ⟨hsame.1.trans h.self, hsame.2.trans h.peer⟩

/-- A frame in order has no note unless one side has not sent a frame before. -/
theorem noNote_iff (hcfg : cfg.printLostFrames = true) {c : Sent} (h : InStep c d) (hf : InOrder c f) :
    NoNote cfg d f ↔
      (f.isI = true → c.own f.type ≠ 0) ∧ (f.isI = true ∨ f.isRr = true → c.other f.type ≠ 0) := by
  unfold NoNote bareLine
  by_cases hi : f.isI = true
  · have hsame : SameCounts (f.start d) (f.iLine cfg d) := sameCounts_frameLine
    rw [if_pos hi, parseFrame_i hcfg hi, trackI_str_iff, hsame.ownNs, hsame.otherNs, hf.ns hi, hf.nr (.inl hi)]
    change _ = (d.otherNs f.type + 1) % 8 ∧ _ = (d.ownNs f.type + 1) % 8 ↔ _
    rw [h.own, h.other, next_iff, next_iff]
    simp [hi, and_comm]
  · by_cases hr : f.isRr = true
    · rw [if_neg hi, if_pos hr, parseFrame_rr hcfg hr, trackRr_str_iff, hf.nr (.inr hr)]
      change _ = (d.otherNs f.type + 1) % 8 ↔ _
      rw [h.other, next_iff]
      simp [hi, hr]
    · rw [if_neg hi, if_neg hr]
      simp [hi, hr]

end Step

/-! ### The run -/

/-- The counters behind frames in order. -/
theorem inStep_run {cfg : Config} (hcfg : cfg.printLostFrames = true) {fs : List Frame}
    (h : LossFree fs) : InStep (fs.foldl Sent.step Sent.none) (fs.foldl (decode cfg) Decoder.init) := by
  have hstep : ∀ c d f, InStep c d → InOrder c f → InStep (c.step f) (decode cfg d f) := by
    intro c d f hin hord
    exact inStep_step hcfg hin hord
  exact simulation InStep hstep fs Sent.none Decoder.init inStep_init h

/-- No I frame, no change. -/
theorem sent_of_none {fs : List Frame} (h : ∀ f ∈ fs, f.isI = false) (c : Sent) :
    fs.foldl Sent.step c = c := by
  induction fs with
  | nil => rfl
  | cons f fs ih =>
    have hstep : c.step f = c := by
      rw [Sent.step, h f (by simp)]
      rfl
    rw [List.foldl_cons, hstep]
    exact ih fun g hg => h g (by simp [hg])

/-- For every run of frames without loss from the start of the program. A frame is without a
note exactly when its side has sent an I frame before, if it is one, and so has the other
side, if it is an I or an `RR` frame. So the run is without notes exactly when there are
no such frames in it. -/
theorem loss_notes_iff {cfg : Config} (hcfg : cfg.printLostFrames = true) {fs : List Frame}
    (h : LossFree fs) :
    (∀ pre f post, fs = pre ++ f :: post →
      (NoNote cfg (pre.foldl (decode cfg) Decoder.init) f ↔
        (f.isI = true → (pre.foldl Sent.step Sent.none).own f.type ≠ 0) ∧
        (f.isI = true ∨ f.isRr = true → (pre.foldl Sent.step Sent.none).other f.type ≠ 0))) ∧
    ((∀ pre f post, fs = pre ++ f :: post → NoNote cfg (pre.foldl (decode cfg) Decoder.init) f) ↔
      ∀ f ∈ fs, f.isI = false ∧ f.isRr = false) := by
  have hnote : ∀ pre f post, fs = pre ++ f :: post →
      (NoNote cfg (pre.foldl (decode cfg) Decoder.init) f ↔
        (f.isI = true → (pre.foldl Sent.step Sent.none).own f.type ≠ 0) ∧
        (f.isI = true ∨ f.isRr = true → (pre.foldl Sent.step Sent.none).other f.type ≠ 0)) := by
    rintro pre f post rfl
    obtain ⟨hpre, hf⟩ := Along.split h
    exact noNote_iff hcfg (inStep_run hcfg hpre) hf
  refine ⟨hnote, fun hall => ?_, fun hnone pre f post hsplit => ?_⟩
  · -- the first of them would be noted, since nothing has been sent before it
    intro g hg
    by_contra hex
    have hkind : (g.isI || g.isRr) = true := by
      rw [not_and_or, Bool.not_eq_false, Bool.not_eq_false] at hex
      rwa [Bool.or_eq_true]
    obtain ⟨f, hfind⟩ := Option.isSome_iff_exists.1
      (List.find?_isSome.2 ⟨g, hg, hkind⟩ : (fs.find? fun f => f.isI || f.isRr).isSome = true)
    obtain ⟨hf, pre, post, hsplit, hpre⟩ := List.find?_eq_some_iff_append.1 hfind
    have hsent : pre.foldl Sent.step Sent.none = Sent.none := by
      refine sent_of_none (fun e he => ?_) Sent.none
      have := hpre e he
      simp only [Bool.not_or, Bool.and_eq_true, Bool.not_eq_true'] at this
      exact this.1
    have hother := ((hnote pre f post hsplit).1 (hall pre f post hsplit)).2 (Bool.or_eq_true _ _ ▸ hf)
    rw [hsent] at hother
    exact hother (by simp [Sent.other, Sent.none])
  · refine (hnote pre f post hsplit).2 ?_
    obtain ⟨hi, hr⟩ := hnone f (by simp [hsplit])
    simp [hi, hr]

def lossConfig : Config := { printLostFrames := true, printIrlmp := false }

/-- The first frames of both sides, and the second one of this side. -/
def firstSelf : Frame := Frame.ofBytes 1 [0x03, 0x00]
def firstPeer : Frame := Frame.ofBytes 0 [0x02, 0x20]
def secondSelf : Frame := Frame.ofBytes 1 [0x03, 0x22]

theorem loss_notes_second : LossFree [firstSelf, firstPeer, secondSelf] ∧
    NoNote lossConfig ([firstSelf, firstPeer].foldl (decode lossConfig) Decoder.init) secondSelf := by
  have h : LossFree [firstSelf, firstPeer, secondSelf] :=
    ⟨⟨by decide, by decide⟩, ⟨by decide, by decide⟩, ⟨by decide, by decide⟩, trivial⟩
  have hcfg : lossConfig.printLostFrames = true := rfl
  refine ⟨h, ((loss_notes_iff hcfg h).1 _ _ [] rfl).2 ⟨?_, ?_⟩⟩
  · decide
  · decide

/-- The first frame of a session is said to be a retransmission behind a lost frame. -/
theorem first_frame_noted : LossFree [firstSelf] ∧ ¬ NoNote lossConfig Decoder.init firstSelf ∧
    bareLine lossConfig Decoder.init firstSelf = "i:cmd  > ca=02 pf=0 nr=0 ns=0 " ∧
    (parseFrame lossConfig Decoder.init firstSelf).str =
      "i:cmd  > ca=02 pf=0 nr=0 ns=0 ** 1 frame(s) lost ** ** retransmit ** " := by
  have hbare : bareLine lossConfig Decoder.init firstSelf = "i:cmd  > ca=02 pf=0 nr=0 ns=0 " := by decide
  have hline : (parseFrame lossConfig Decoder.init firstSelf).str =
      "i:cmd  > ca=02 pf=0 nr=0 ns=0 ** 1 frame(s) lost ** ** retransmit ** " := by decide
  refine ⟨⟨⟨by decide, by decide⟩, trivial⟩, ?_, hbare, hline⟩
  rw [NoNote, hbare, hline]
  decide

end Irdadump
