import IrdaUtils.Lib.Runs
import IrdaUtils.Sanity.Ledger

/-! Several links in one run. `last_ias`, the cache and the table are shared by all links
and a search does not look at the connection address, so a link is decoded as if it were
alone only while no frame meets what another link has left there (`Separate`). The proof
runs the table beside the ledger and beside the table of the link alone. -/

namespace Irdadump
open Runs

/-! ### What is observed -/

/-- The protocols that a frame was decoded with. A disconnect looks its slot up but is
not decoded with it. -/
def protocols (picked : List (Option LsapState)) : Pdu → List (Option Flags)
  | .lm _ .disconnect => []
  | _ => picked.map (Option.map LsapState.flags)

structure Observation where
  caddr : UInt8
  protocols : List (Option Flags)
  parsers : List Parser
  deriving DecidableEq

def observe (cfg : Config) (d : Decoder) (f : Frame) : Observation :=
  ⟨f.caddr, protocols (parseFrame cfg d f).picked (f.pdu cfg), (parseFrame cfg d f).names⟩

def observations (cfg : Config) : Decoder → List Frame → List Observation
  | _, [] => []
  | d, f :: fs => observe cfg d f :: observations cfg (decode cfg d f) fs

/-- The frames of the link `c` are decoded as in a run of their own. -/
def Independent (cfg : Config) (fs : List Frame) (c : UInt8) : Prop :=
  (observations cfg Decoder.init fs).filter (·.caddr = c) =
    observations cfg Decoder.init (fs.filter (·.caddr = c))

/-! ### When links do not meet -/

/-- The link that has written `last_ias` last. -/
def iasOwner (o : Option UInt8) : Pdu → Option UInt8
  | .lm h (.data (.query (some _))) => some h.caddr
  | .lm h (.data (.response (.integer _))) => some h.caddr
  | _ => o

/-- A frame that uses `last_ias` finds it as its own link has left it. -/
def OwnIas (o : Option UInt8) : Pdu → Prop
  | .lm h .connectCmd => o = none ∨ o = some h.caddr
  | .lm h (.data (.response (.integer _))) => o = none ∨ o = some h.caddr
  | .lm h (.data (.response .octSeq)) => o = none ∨ o = some h.caddr
  | _ => True

/-- A connection that is opened finds a free slot. -/
def Room (t : Tracker) : Pdu → Prop
  | .lm h .connectCmd => h.dlsapSel = t.lastIas.lsapSel → ∃ i, (t.conn i).valid = false
  | _ => True

/-- The frame meets nothing of another link, and no slot but that of its connection. -/
structure Separate (t : Tracker) (o : Option UInt8) (pdu : Pdu) : Prop where
  tidy : Tidy t pdu
  apart : Apart t pdu
  room : Room t pdu
  own : OwnIas o pdu

/-- The decoder, with the owner of `last_ias`. -/
def ownedStep (cfg : Config) (x : Decoder × Option UInt8) (f : Frame) :
    Decoder × Option UInt8 := (decode cfg x.1 f, iasOwner x.2 (f.pdu cfg))

instance (t : Tracker) : (pdu : Pdu) → Decidable (Apart t pdu)
  | .lm _ .connectCmd => .isTrue trivial
  | .lm _ .connectRsp => inferInstanceAs (Decidable (∀ _, _))
  | .lm _ .disconnect => inferInstanceAs (Decidable (∀ _, _))
  | .lm _ .control => inferInstanceAs (Decidable (∀ _, _))
  | .lm _ (.data _) => inferInstanceAs (Decidable (∀ _, _))
  | .lapDisc _ => .isTrue trivial
  | .ultraObex => .isTrue trivial
  | .other => .isTrue trivial

instance (t : Tracker) : (pdu : Pdu) → Decidable (Room t pdu)
  | .lm _ .connectCmd => inferInstanceAs (Decidable (_ → _))
  | .lm _ .connectRsp => .isTrue trivial
  | .lm _ .disconnect => .isTrue trivial
  | .lm _ .control => .isTrue trivial
  | .lm _ (.data _) => .isTrue trivial
  | .lapDisc _ => .isTrue trivial
  | .ultraObex => .isTrue trivial
  | .other => .isTrue trivial

instance (o : Option UInt8) : (pdu : Pdu) → Decidable (OwnIas o pdu)
  | .lm _ .connectCmd => inferInstanceAs (Decidable (_ ∨ _))
  | .lm _ (.data (.response (.integer _))) => inferInstanceAs (Decidable (_ ∨ _))
  | .lm _ (.data (.response .octSeq)) => inferInstanceAs (Decidable (_ ∨ _))
  | .lm _ (.data (.response .other)) => .isTrue trivial
  | .lm _ (.data .none) => .isTrue trivial
  | .lm _ (.data (.query _)) => .isTrue trivial
  | .lm _ .connectRsp => .isTrue trivial
  | .lm _ .disconnect => .isTrue trivial
  | .lm _ .control => .isTrue trivial
  | .lapDisc _ => .isTrue trivial
  | .ultraObex => .isTrue trivial
  | .other => .isTrue trivial

instance (t : Tracker) (o : Option UInt8) (pdu : Pdu) : Decidable (Separate t o pdu) :=
  decidable_of_iff (Tidy t pdu ∧ Apart t pdu ∧ Room t pdu ∧ OwnIas o pdu)
    ⟨fun h => ⟨h.1, h.2.1, h.2.2.1, h.2.2.2⟩, fun h => ⟨h.tidy, h.apart, h.room, h.own⟩⟩

/-! ### One frame -/

theorem lastIas_step (cfg : Config) (t : Tracker) (pdu : Pdu) :
    (trackStep cfg t pdu).tracker.lastIas =
      match pdu with
      | .lm _ (.data ias) => iasNext t.lastIas ias
      | _ => t.lastIas := by
  cases pdu with
  | lapDisc a => rfl
  | ultraObex => rfl
  | other => rfl
  | lm h op =>
    cases op with
    | connectCmd =>
      simp only [trackStep, trackConnectCmd]
      split_ifs
      · cases findFreeConnection t.conn <;> rfl
      · rfl
    | disconnect =>
      simp only [trackStep, trackDisconnect]
      cases t.find h.pair <;> rfl
    | connectRsp => rfl
    | control => rfl
    | data ias => rfl

/-- The run of all links (`t`, `o` and its ledger `L`) beside that of the link `c`. -/
structure Beside (c : UInt8) (t : Tracker) (o : Option UInt8) (L : Ledger) (u : Tracker)
    (M : Ledger) : Prop where
  all : Agrees t L
  alone : OnLink c u M
  ledger : L c = M c
  ias : o = none ∨ o = some c → t.lastIas = u.lastIas

theorem next_of_ne {q : IasQuery} {L : Ledger} {pdu : Pdu} {c : UInt8}
    (hlm : ∀ h op, pdu = .lm h op → h.caddr ≠ c) (hlap : ∀ a, pdu = .lapDisc a → a ≠ c) :
    L.next q pdu c = L c := by
  funext p
  unfold Ledger.next Ledger.set Ledger.clear
  cases pdu with
  | lapDisc a => exact if_neg fun e => hlap a rfl e.symm
  | ultraObex => rfl
  | other => rfl
  | lm h op =>
    have hc : ¬ (c = h.caddr ∧ p = h.pair) := fun e => hlm h op rfl e.1.symm
    cases op with
    | connectCmd =>
      simp only
      split_ifs
      · exact if_neg hc
      · rfl
    | disconnect => exact if_neg hc
    | connectRsp => rfl
    | control => rfl
    | data ias => rfl

/-- A frame of another link. -/
theorem beside_other {cfg : Config} {c : UInt8} {t u : Tracker} {o : Option UInt8}
    {L M : Ledger} {f : Frame} (h : Beside c t o L u M) (hf : f.caddr ≠ c)
    (hs : Separate t o (f.pdu cfg)) :
    Beside c (trackFrame cfg t f) (iasOwner o (f.pdu cfg)) (L.next t.lastIas (f.pdu cfg)) u M where
  all := agrees_step h.all hs.tidy hs.apart
  alone := h.alone
  ledger := by
    rw [next_of_ne, h.ledger]
    · intro g op e
      rw [pdu_lm_caddr e]
      exact hf
    · intro a e
      rw [pdu_lapDisc_caddr e]
      exact hf
  ias := by
    have hg : ∀ g op, f.pdu cfg = .lm g op → g.caddr ≠ c := by
      intro g op e
      rw [pdu_lm_caddr e]
      exact hf
    unfold trackFrame
    rw [lastIas_step]
    generalize f.pdu cfg = pdu at hg
    intro ho
    -- a write would have made the other link the owner
    unfold iasOwner at ho
    split at ho
    · rename_i g q
      exact absurd (Option.some.inj (ho.resolve_left (by simp))) (hg _ _ rfl)
    · rename_i g v
      exact absurd (Option.some.inj (ho.resolve_left (by simp))) (hg _ _ rfl)
    · rename_i h1 h2
      have e := h.ias ho
      split
      · rename_i g ias
        rw [← e]
        unfold iasNext
        split
        · exact absurd rfl (h1 _ _)
        · exact absurd rfl (h2 _ _)
        · rfl
      · exact e

theorem next_congr {q q' : IasQuery} {L M : Ledger} {pdu : Pdu} {c : UInt8} (h : L c = M c)
    (hq : ∀ g, pdu = .lm g .connectCmd → q = q') : L.next q pdu c = M.next q' pdu c := by
  funext p
  have hp : L c p = M c p := congrFun h p
  unfold Ledger.next Ledger.set Ledger.clear
  cases pdu with
  | lapDisc a => simp only [hp]
  | ultraObex => exact hp
  | other => exact hp
  | lm g op =>
    cases op with
    | connectCmd =>
      rw [hq g rfl]
      simp only
      split_ifs <;> simp only [hp]
    | disconnect => simp only [hp]
    | connectRsp => exact hp
    | control => exact hp
    | data ias => exact hp

theorem iasNext_congr {o : Option UInt8} {q q' : IasQuery} {h : LmHead} {ias : IasOp}
    (hown : OwnIas o (.lm h (.data ias))) (hq : o = none ∨ o = some h.caddr → q = q')
    (ho : iasOwner o (.lm h (.data ias)) = none ∨
      iasOwner o (.lm h (.data ias)) = some h.caddr) : iasNext q ias = iasNext q' ias := by
  cases ias with
  | none => exact hq ho
  | query q₁ =>
    cases q₁ with
    | none => exact hq ho
    | some q₂ => rfl
  | response v =>
    cases v with
    | integer lsapSel => rw [hq hown]
    | octSeq => exact hq ho
    | other => exact hq ho

/-- A frame of the link. -/
theorem beside_own {cfg : Config} {c : UInt8} {t u : Tracker} {o : Option UInt8}
    {L M : Ledger} {f : Frame} (h : Beside c t o L u M) (hf : f.caddr = c)
    (hs : Separate t o (f.pdu cfg)) (hu : Tidy u (f.pdu cfg)) :
    Beside c (trackFrame cfg t f) (iasOwner o (f.pdu cfg)) (L.next t.lastIas (f.pdu cfg))
      (trackFrame cfg u f) (M.next u.lastIas (f.pdu cfg)) where
  all := agrees_step h.all hs.tidy hs.apart
  alone := onLink_step h.alone hf hu
  ledger := by
    refine next_congr h.ledger ?_
    intro g e
    have hown := hs.own
    rw [e] at hown
    rw [← hf, ← pdu_lm_caddr e] at h
    exact h.ias hown
  ias := by
    unfold trackFrame
    rw [lastIas_step, lastIas_step]
    intro ho
    have hown := hs.own
    cases e : f.pdu cfg with
    | lapDisc a => rw [e] at ho; exact h.ias ho
    | ultraObex => rw [e] at ho; exact h.ias ho
    | other => rw [e] at ho; exact h.ias ho
    | lm g op =>
      have hg : g.caddr = c := (pdu_lm_caddr e).trans hf
      rw [e] at ho hown
      subst hg
      cases op with
      | connectCmd => exact h.ias ho
      | connectRsp => exact h.ias ho
      | disconnect => exact h.ias ho
      | control => exact h.ias ho
      | data ias => exact iasNext_congr hown h.ias ho

theorem iasCalls_congr {o : Option UInt8} {q q' : IasQuery} {h : LmHead} {ias : IasOp}
    (hown : OwnIas o (.lm h (.data ias))) (hq : o = none ∨ o = some h.caddr → q = q') :
    iasCalls q ias = iasCalls q' ias := by
  cases ias with
  | none => rfl
  | query q₁ => rfl
  | response v =>
    cases v with
    | integer lsapSel => rfl
    | octSeq => rw [hq hown]
    | other => rfl

theorem connectCmd_eq (cfg : Config) {t u : Tracker} {h : LmHead} (hq : t.lastIas = u.lastIas)
    (ht : Room t (.lm h .connectCmd)) (hu : Room u (.lm h .connectCmd)) :
    (trackConnectCmd cfg t h).picked = (trackConnectCmd cfg u h).picked ∧
      (trackConnectCmd cfg t h).calls = (trackConnectCmd cfg u h).calls := by
  have hfree : ∀ v : Tracker, (∃ i, (v.conn i).valid = false) →
      ∃ i, findFreeConnection v.conn = some i := by
    rintro v ⟨i, hi⟩
    refine Option.ne_none_iff_exists'.1 fun e => ?_
    rw [findFree_eq_none.1 e i] at hi
    cases hi
  unfold Room at ht hu
  unfold trackConnectCmd
  rw [← hq] at hu ⊢
  split_ifs with hd
  · obtain ⟨i, hi⟩ := hfree t (ht hd)
    obtain ⟨j, hj⟩ := hfree u (hu hd)
    rw [hi, hj]
    exact ⟨rfl, rfl⟩
  · exact ⟨rfl, rfl⟩

/-- A frame of the link is decoded alike in both runs. -/
theorem observe_eq {cfg : Config} {c : UInt8} {d e : Decoder} {o : Option UInt8}
    {L M : Ledger} {f : Frame} (h : Beside c d.tracker o L e.tracker M) (hf : f.caddr = c)
    (hs : Separate d.tracker o (f.pdu cfg)) (ht : Tidy e.tracker (f.pdu cfg))
    (hr : Room e.tracker (f.pdu cfg)) : observe cfg d f = observe cfg e f := by
  obtain ⟨-, hpd, hnd⟩ := tracks_parseFrame cfg d f
  obtain ⟨-, hpe, hne⟩ := tracks_parseFrame cfg e f
  have hdec := decoded_tracked h.all hs.tidy hs.apart hpd hnd
  have hdec' := decoded_tracked h.alone.toAgrees ht (h.alone.apart hf) hpe hne
  have hown := hs.own
  have hroom := hs.room
  unfold observe
  cases hpdu : f.pdu cfg with
  | lapDisc a => rw [hpd, hpe, hnd, hne, hpdu]; rfl
  | ultraObex => rw [hpd, hpe, hnd, hne, hpdu]; rfl
  | other => rw [hpd, hpe, hnd, hne, hpdu]; rfl
  | lm g op =>
    obtain rfl : g.caddr = c := (pdu_lm_caddr hpdu).trans hf
    have hentry : L.entry (f.pdu cfg) = M.entry (f.pdu cfg) := by
      rw [hpdu]
      exact congrFun h.ledger g.pair
    rw [hentry] at hdec
    rw [hpdu] at hdec hdec' hown hroom hr
    cases op with
    | connectCmd =>
      obtain ⟨h1, h2⟩ := connectCmd_eq cfg (h.ias hown) hroom hr
      simp only [hpd, hpe, hnd, hne, hpdu, trackStep, h1, h2]
    | disconnect =>
      have hcalls : ∀ v : Tracker, (trackDisconnect v g).calls = [] := by
        intro v
        unfold trackDisconnect
        cases v.find g.pair <;> rfl
      simp only [hnd, hne, hpdu, trackStep, hcalls, protocols]
    | control => rw [hpd, hpe, hnd, hne, hpdu]; rfl
    | connectRsp => simp only [protocols, hdec.1, hdec.2, hdec'.1, hdec'.2]
    | data ias =>
      simp only [protocols, hdec.1, hdec.2, hdec'.1, hdec'.2]
      have e : iasCalls d.tracker.lastIas ias = iasCalls e.tracker.lastIas ias :=
        iasCalls_congr hown h.ias
      rw [e]

/-! ### Runs -/

theorem observations_beside {cfg : Config} {c : UInt8} : ∀ (fs : List Frame) (d e : Decoder)
    (o : Option UInt8) (L M : Ledger), Beside c d.tracker o L e.tracker M →
    Along (ownedStep cfg) (fun x f => Separate x.1.tracker x.2 (f.pdu cfg)) (d, o) fs →
    Along (decode cfg) (fun d f => Tidy d.tracker (f.pdu cfg) ∧ Room d.tracker (f.pdu cfg)) e
      (fs.filter (·.caddr = c)) →
    (observations cfg d fs).filter (·.caddr = c) =
      observations cfg e (fs.filter (·.caddr = c)) := by
  intro fs
  induction fs with
  | nil => intros; rfl
  | cons f fs ih =>
    intro d e o L M h hall halone
    obtain ⟨hs, hall⟩ := hall
    have hobs : (observe cfg d f).caddr = f.caddr := rfl
    by_cases hf : f.caddr = c
    · rw [List.filter_cons_of_pos (by simpa using hf)] at halone ⊢
      obtain ⟨⟨ht, hr⟩, halone⟩ := halone
      rw [observations, observations, List.filter_cons_of_pos (by simpa [hobs] using hf),
        observe_eq h hf hs ht hr]
      have hnext := beside_own h hf hs ht
      rw [← tracker_decode, ← tracker_decode] at hnext
      exact congrArg _ (ih _ _ _ _ _ hnext hall halone)
    · rw [List.filter_cons_of_neg (by simpa using hf)] at halone ⊢
      rw [observations, List.filter_cons_of_neg (by simpa [hobs] using hf)]
      have hnext := beside_other h hf hs
      rw [← tracker_decode] at hnext
      exact ih _ _ _ _ _ hnext hall halone

/-- Links are independent in every run in which no frame meets what another link or a
closed connection has left: the frames of every link are then decoded by the parsers and
with the protocols of a run of their own. -/
theorem separate_links_independent (cfg : Config) (fs : List Frame) (c : UInt8)
    (hall : Along (ownedStep cfg) (fun x f => Separate x.1.tracker x.2 (f.pdu cfg))
      (Decoder.init, none) fs)
    (halone : Along (decode cfg)
      (fun d f => Tidy d.tracker (f.pdu cfg) ∧ Room d.tracker (f.pdu cfg)) Decoder.init
      (fs.filter (·.caddr = c))) :
    Independent cfg fs c :=
  observations_beside fs Decoder.init Decoder.init none Ledger.empty Ledger.empty
    ⟨(onLink_init c).toAgrees, onLink_init c, rfl, fun _ => rfl⟩ hall halone

/-- TinyTP is asked for, found at selector 5 and connected to from `slsap`. -/
def session (caddr slsap : UInt8) : List Frame :=
  [.ofBytes 1 [caddr ||| 1, 0x10, 0x00, 0x10, 0x84, 0, 6, 0x54, 0x69, 0x6e, 0x79, 0x54, 0x50],
    .ofBytes 0 [caddr, 0x10, 0x10, 0x00, 0x84, 0x00, 0, 1, 0, 1, 1, 0, 0, 0, 5],
    .ofBytes 1 [caddr ||| 1, 0x10, 0x85, slsap, 0x01, 0x00]]

def dataFrame (caddr slsap : UInt8) : Frame := .ofBytes 1 [caddr ||| 1, 0x10, 0x05, slsap, 0x00]

/-- Two sessions with different selectors, one behind the other, and their data mixed. -/
def mixedRun : List Frame :=
  session 0x02 0x11 ++ session 0x04 0x21 ++
    [dataFrame 0x02 0x11, dataFrame 0x04 0x21, dataFrame 0x02 0x11]

/-- The tracker of `ownedStep`. -/
def ownedTrack (cfg : Config) (x : Tracker × Option UInt8) (f : Frame) :
    Tracker × Option UInt8 := (trackFrame cfg x.1 f, iasOwner x.2 (f.pdu cfg))

theorem ownedTrack_eq (cfg : Config) (x : Decoder × Option UInt8) (f : Frame) :
    ((ownedStep cfg x f).1.tracker, (ownedStep cfg x f).2) =
      ownedTrack cfg (x.1.tracker, x.2) f := by
  simp only [ownedStep, ownedTrack, tracker_decode]

theorem separate_links_independent_mixedRun : Independent {} mixedRun 0x02 := by
  refine separate_links_independent {} mixedRun 0x02 ?_ ?_
  · exact (along_image (fun x f => Separate x.1 x.2 (f.pdu {})) (fun x => (x.1.tracker, x.2))
      (ownedTrack_eq {}) mixedRun (Decoder.init, none)).2 (by decide)
  · exact (along_image (fun t f => Tidy t (f.pdu {}) ∧ Room t (f.pdu {})) Decoder.tracker
      (tracker_decode {}) (mixedRun.filter (·.caddr = 0x02)) Decoder.init).2 (by decide)

def trackObservations (cfg : Config) : Tracker → List Frame → List Observation
  | _, [] => []
  | t, f :: fs =>
    ⟨f.caddr, protocols (trackStep cfg t (f.pdu cfg)).picked (f.pdu cfg),
      (trackStep cfg t (f.pdu cfg)).calls⟩ :: trackObservations cfg (trackFrame cfg t f) fs

theorem observations_eq (cfg : Config) (fs : List Frame) (d : Decoder) :
    observations cfg d fs = trackObservations cfg d.tracker fs := by
  induction fs generalizing d with
  | nil => rfl
  | cons f fs ih =>
    obtain ⟨-, hp, hn⟩ := tracks_parseFrame cfg d f
    rw [observations, trackObservations, ih, tracker_decode, observe, hp, hn]

/-- A data frame of one link is decoded with the connection of another that has the same
selectors. -/
theorem links_share_table :
    ¬ ∀ (cfg : Config) (a b : UInt8) (fs : List Frame), a ≠ b →
      (∀ f ∈ fs, f.caddr = a ∨ f.caddr = b) →
      (fs.countP fun f => match f.pdu cfg with | .lm _ .connectCmd => true | _ => false) ≤
        maxConnections →
      Independent cfg fs a ∧ Independent cfg fs b := by
  intro h
  have hb := (h {} 0x02 0x04 (session 0x02 0x11 ++ [dataFrame 0x04 0x11]) (by decide) (by decide)
    (by decide)).2
  rw [Independent, observations_eq, observations_eq] at hb
  exact absurd hb (by decide)

end Irdadump
