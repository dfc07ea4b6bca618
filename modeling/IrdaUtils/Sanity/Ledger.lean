import IrdaUtils.Sanity.Table
import IrdaUtils.Spec.Ledger

/-! The connection table stands for the ledger (`Agrees`) as long as no frame reaches a
slot that does not stand for its connection. `Tidy` says so of the state before a frame
when there is one link; `Apart` adds what several links need, since a search does not
look at the connection address. -/

namespace Irdadump

/-- The valid slots are the open connections. -/
structure Agrees (t : Tracker) (L : Ledger) : Prop where
  slot : ∀ i, (t.conn i).valid = true →
    L (t.conn i).caddr (t.conn i).pair = some (t.conn i).flags
  entry : ∀ c p fl, L c p = some fl → ∃ i, t.Live c p i

/-- No frame meets a slot that is not the one of its connection. A connect command that
passes the test on the selector needs a free slot, or a slot that has the connection
already, and no such slot may have other protocols. A disconnect needs the valid slots of
its connection in front of all others, and the frames in between need a valid slot there
or no slot at all. -/
def Tidy (t : Tracker) : Pdu → Prop
  | .lm h .connectCmd => h.dlsapSel = t.lastIas.lsapSel →
    ((∃ i, (t.conn i).valid = false) ∨ ∃ i, t.Live h.caddr h.pair i) ∧
      ∀ i, t.Live h.caddr h.pair i → (t.conn i).flags = t.lastIas.flags
  | .lm h .disconnect => ∀ i, t.Live h.caddr h.pair i → t.Front h.pair i
  | .lm h .connectRsp => ∀ i, t.Front h.pair i → (t.conn i).valid = true
  | .lm h (.data _) => ∀ i, t.Front h.pair i → (t.conn i).valid = true
  | _ => True

/-- No frame meets a valid slot of another link. -/
def Apart (t : Tracker) : Pdu → Prop
  | .lm _ .connectCmd => True
  | .lm h _ => ∀ i, t.Front h.pair i → (t.conn i).valid = true → (t.conn i).caddr = h.caddr
  | _ => True

instance (t : Tracker) (c : UInt8) (p : UInt8 × UInt8) (i : Slot) : Decidable (t.Live c p i) :=
  inferInstanceAs (Decidable (_ ∧ _ ∧ _))

instance (t : Tracker) (p : UInt8 × UInt8) (i : Slot) : Decidable (t.Front p i) :=
  inferInstanceAs (Decidable (_ ∧ (_ ∨ _ ∧ _)))

instance (t : Tracker) : (pdu : Pdu) → Decidable (Tidy t pdu)
  | .lm _ .connectCmd => inferInstanceAs (Decidable (_ → _))
  | .lm _ .disconnect => inferInstanceAs (Decidable (∀ _, _))
  | .lm _ .connectRsp => inferInstanceAs (Decidable (∀ _, _))
  | .lm _ (.data _) => inferInstanceAs (Decidable (∀ _, _))
  | .lm _ .control => .isTrue trivial
  | .lapDisc _ => .isTrue trivial
  | .ultraObex => .isTrue trivial
  | .other => .isTrue trivial

theorem front_unique {t : Tracker} {p : UInt8 × UInt8} {i j : Slot} (hi : t.Front p i)
    (hj : t.Front p j) : i = j := by
  rw [← find_eq_some] at hi hj
  rw [hi] at hj
  exact Option.some.inj hj

/-! ### One frame -/

theorem Agrees.congr {t t' : Tracker} {L : Ledger} (h : Agrees t L) (e : t'.conn = t.conn) :
    Agrees t' L := by
  refine ⟨?_, ?_⟩
  · rw [e]
    exact h.slot
  · unfold Tracker.Live
    rw [e]
    exact h.entry

theorem Ledger.set_self (L : Ledger) (c : UInt8) (p : UInt8 × UInt8) (o : Option Flags) :
    L.set c p o c p = o := if_pos ⟨rfl, rfl⟩

theorem Ledger.set_of_ne (L : Ledger) {c c' : UInt8} {p p' : UInt8 × UInt8} (o : Option Flags)
    (h : ¬ (c' = c ∧ p' = p)) : L.set c p o c' p' = L c' p' := if_neg h

/-- A connection that is entered agrees with the slots that have it already. -/
theorem Agrees.slot_set {t : Tracker} {L : Ledger} (ha : Agrees t L) {c : UInt8} {p : UInt8 × UInt8}
    {fl : Flags} (hflags : ∀ i, t.Live c p i → (t.conn i).flags = fl) {i : Slot}
    (hv : (t.conn i).valid = true) :
    L.set c p (some fl) (t.conn i).caddr (t.conn i).pair = some (t.conn i).flags := by
  by_cases e : (t.conn i).caddr = c ∧ (t.conn i).pair = p
  · rw [hflags i ⟨hv, e⟩, e.1, e.2, Ledger.set_self]
  · rw [Ledger.set_of_ne _ _ e, ha.slot i hv]

/-- The other connections keep their slots. -/
theorem Agrees.entry_set {t : Tracker} {L : Ledger} (ha : Agrees t L) {c c' : UInt8}
    {p p' : UInt8 × UInt8} {o : Option Flags} {fl : Flags} (hne : ¬ (c' = c ∧ p' = p))
    (e : L.set c p o c' p' = some fl) : ∃ i, t.Live c' p' i := by
  rw [Ledger.set_of_ne _ _ hne] at e
  exact ha.entry c' p' fl e

theorem Ledger.ne_of_set_none {L : Ledger} {c c' : UInt8} {p p' : UInt8 × UInt8} {fl : Flags}
    (e : L.set c p none c' p' = some fl) : ¬ (c' = c ∧ p' = p) := by
  rintro ⟨rfl, rfl⟩
  rw [Ledger.set_self] at e
  cases e

theorem agrees_connectCmd {cfg : Config} {t : Tracker} {L : Ledger} {h : LmHead}
    (ha : Agrees t L) (ht : Tidy t (.lm h .connectCmd)) :
    Agrees (trackConnectCmd cfg t h).tracker (L.next t.lastIas (.lm h .connectCmd)) := by
  unfold trackConnectCmd Ledger.next
  by_cases hd : h.dlsapSel = t.lastIas.lsapSel
  · obtain ⟨hroom, hflags⟩ := ht hd
    simp only [if_pos hd]
    cases hf : findFreeConnection t.conn with
    | none =>
      refine ⟨fun i hv => ha.slot_set hflags hv, ?_⟩
      intro c p fl e
      by_cases hcp : c = h.caddr ∧ p = h.pair
      · rcases hroom with ⟨i, hi⟩ | hl
        · rw [findFree_eq_none.1 hf i] at hi
          cases hi
        · rw [hcp.1, hcp.2]
          exact hl
      · exact ha.entry_set hcp e
    | some i =>
      have hi := findFree_eq_some hf
      refine ⟨?_, ?_⟩
      · intro j hv
        by_cases e : j = i
        · subst e
          simp only [Function.update_self]
          rw [ofConnect_pair, ofConnect_caddr, Ledger.set_self, ofConnect_flags]
        · simp only [Function.update_of_ne e] at hv ⊢
          exact ha.slot_set hflags hv
      · intro c p fl e
        by_cases hcp : c = h.caddr ∧ p = h.pair
        · refine ⟨i, ?_⟩
          simp only [Tracker.Live, Function.update_self]
          exact ⟨rfl, hcp.1.symm, (ofConnect_pair _ _).trans hcp.2.symm⟩
        · obtain ⟨j, hj⟩ := ha.entry_set hcp e
          have hne : j ≠ i := by
            intro hji
            rw [← hji, hj.1] at hi
            cases hi
          refine ⟨j, ?_⟩
          simp only [Tracker.Live, Function.update_of_ne hne]
          exact hj
  · simp only [if_neg hd]
    exact ha

theorem agrees_disconnect {t : Tracker} {L : Ledger} {h : LmHead} (ha : Agrees t L)
    (ht : Tidy t (.lm h .disconnect)) (hp : Apart t (.lm h .disconnect)) :
    Agrees (trackDisconnect t h).tracker (L.next t.lastIas (.lm h .disconnect)) := by
  unfold trackDisconnect Ledger.next
  cases hf : t.find h.pair with
  | none =>
    rw [find_eq_none] at hf
    refine ⟨?_, ?_⟩
    · intro i hv
      simp only at hv ⊢
      rw [Ledger.set_of_ne _ _ fun e => hf i e.2]
      exact ha.slot i hv
    · intro c p fl e
      exact ha.entry_set (Ledger.ne_of_set_none e) e
  | some i =>
    rw [find_eq_some] at hf
    refine ⟨?_, ?_⟩
    · intro j hv
      by_cases e : j = i
      · subst e
        simp only [Function.update_self] at hv
        cases hv
      · simp only [Function.update_of_ne e] at hv ⊢
        rw [Ledger.set_of_ne]
        · exact ha.slot j hv
        · rintro hcp
          exact e (front_unique (ht j ⟨hv, hcp⟩) hf)
    · intro c p fl e
      have hcp := Ledger.ne_of_set_none e
      obtain ⟨j, hv, hc, hq⟩ := ha.entry_set hcp e
      have hne : j ≠ i := by
        intro hji
        subst hji
        exact hcp ⟨hc.symm.trans (hp j hf hv), hq.symm.trans hf.1⟩
      refine ⟨j, ?_⟩
      simp only [Tracker.Live, Function.update_of_ne hne]
      exact ⟨hv, hc, hq⟩

theorem agrees_lapDisc {cfg : Config} {t : Tracker} {L : Ledger} {a : UInt8} (ha : Agrees t L) :
    Agrees (trackStep cfg t (.lapDisc a)).tracker (L.next t.lastIas (.lapDisc a)) := by
  simp only [trackStep, Ledger.next]
  refine ⟨?_, ?_⟩
  · intro i hv
    simp only [garbageConnection] at hv ⊢
    by_cases e : (t.conn i).caddr = a
    · rw [if_pos e] at hv
      cases hv
    · rw [if_neg e] at hv ⊢
      simp only [Ledger.clear, if_neg e]
      exact ha.slot i hv
  · intro c p fl e
    unfold Ledger.clear at e
    split_ifs at e with hc
    obtain ⟨i, hv, hi, hq⟩ := ha.entry c p fl e
    refine ⟨i, ?_⟩
    simp only [Tracker.Live, garbageConnection]
    rw [if_neg (by rw [hi]; exact hc)]
    exact ⟨hv, hi, hq⟩

/-- A frame keeps the table and the ledger together. -/
theorem agrees_step {cfg : Config} {t : Tracker} {L : Ledger} {pdu : Pdu} (ha : Agrees t L)
    (ht : Tidy t pdu) (hp : Apart t pdu) :
    Agrees (trackStep cfg t pdu).tracker (L.next t.lastIas pdu) := by
  cases pdu with
  | lapDisc a => exact agrees_lapDisc ha
  | ultraObex => exact ha
  | other => exact ha
  | lm h op =>
    cases op with
    | connectCmd => exact agrees_connectCmd ha ht
    | disconnect => exact agrees_disconnect ha ht hp
    | connectRsp => exact ha.congr rfl
    | control => exact ha
    | data ias => exact ha.congr rfl

/-- The slot that a search meets has the protocols of the connection. -/
theorem found_eq_entry {t : Tracker} {L : Ledger} {h : LmHead} (ha : Agrees t L)
    (hl : ∀ i, t.Front h.pair i → (t.conn i).valid = true ∧ (t.conn i).caddr = h.caddr) :
    ((t.find h.pair).map t.conn).map LsapState.flags = L h.caddr h.pair := by
  cases hf : t.find h.pair with
  | none =>
    rw [find_eq_none] at hf
    cases he : L h.caddr h.pair with
    | none => rfl
    | some fl =>
      obtain ⟨i, -, -, hq⟩ := ha.entry _ _ _ he
      exact absurd hq (hf i)
  | some i =>
    rw [find_eq_some] at hf
    obtain ⟨hv, hc⟩ := hl i hf
    have e := ha.slot i hv
    rw [hc, hf.1] at e
    exact e.symm

theorem decoded_tracked {cfg : Config} {t : Tracker} {L : Ledger} {pdu : Pdu} {s : St}
    (ha : Agrees t L) (ht : Tidy t pdu) (hp : Apart t pdu)
    (hpick : s.picked = (trackStep cfg t pdu).picked)
    (hnames : s.names = (trackStep cfg t pdu).calls) :
    DecodedAs cfg t.lastIas (L.entry pdu) s pdu := by
  cases pdu with
  | lapDisc a => trivial
  | ultraObex => trivial
  | other => trivial
  | lm h op =>
    cases op with
    | connectCmd => trivial
    | disconnect => trivial
    | control => trivial
    | connectRsp =>
      have he := found_eq_entry ha fun i hi => ⟨ht i hi, hp i hi (ht i hi)⟩
      simp only [DecodedAs, Ledger.entry, hpick, hnames, trackStep, trackConnectRsp, ← he]
      refine ⟨rfl, ?_⟩
      cases t.find h.pair <;> rfl
    | data ias =>
      have he := found_eq_entry ha fun i hi => ⟨ht i hi, hp i hi (ht i hi)⟩
      simp only [DecodedAs, Ledger.entry, hpick, hnames, trackStep, trackData, ← he]
      refine ⟨rfl, ?_⟩
      cases hf : t.find h.pair with
      | none => rfl
      | some i =>
        -- a slot in front is valid here, so its parsers are the ones of its flags
        have hv : (t.conn i).valid = true := ht i (find_eq_some.1 hf)
        simp only [hv]
        rfl

/-! ### One link -/

/-- The invariant of a run on the link `c`. -/
structure OnLink (c : UInt8) (t : Tracker) (L : Ledger) : Prop extends Agrees t L where
  link : ∀ i, (t.conn i).valid = true → (t.conn i).caddr = c

theorem onLink_init (c : UInt8) : OnLink c Decoder.init.tracker Ledger.empty := by
  have h0 : ∀ i, (Decoder.init.tracker.conn i).valid = false := by decide
  refine ⟨⟨?_, ?_⟩, ?_⟩
  · intro i hv
    rw [h0] at hv
    cases hv
  · intro _ _ _ e
    cases e
  · intro i hv
    rw [h0] at hv
    cases hv

theorem OnLink.apart {cfg : Config} {c : UInt8} {t : Tracker} {L : Ledger} {f : Frame}
    (h : OnLink c t L) (hf : f.caddr = c) : Apart t (f.pdu cfg) := by
  unfold Apart
  split
  · trivial
  · rename_i g op _ e
    intro i _ hv
    rw [h.link i hv, pdu_lm_caddr e, hf]
  · trivial

theorem onLink_step {cfg : Config} {c : UInt8} {t : Tracker} {L : Ledger} {f : Frame}
    (h : OnLink c t L) (hf : f.caddr = c) (ht : Tidy t (f.pdu cfg)) :
    OnLink c (trackFrame cfg t f) (L.next t.lastIas (f.pdu cfg)) := by
  refine ⟨agrees_step h.toAgrees ht (h.apart hf), ?_⟩
  intro i hv
  have hs := slot_step cfg t (f.pdu cfg) i
  unfold trackFrame at hv ⊢
  generalize (trackStep cfg t (f.pdu cfg)).tracker.conn i = s at hs hv
  cases hs with
  | same _ => exact h.link i hv
  | closed => cases hv
  | opened g e _ => rw [ofConnect_caddr, pdu_lm_caddr e, hf]

/-! ### Runs -/

theorem ledgerRun_fst (cfg : Config) (fs : List Frame) (x : Tracker × Ledger) :
    (fs.foldl (ledgerStep cfg) x).1 = fs.foldl (trackFrame cfg) x.1 := by
  induction fs generalizing x with
  | nil => rfl
  | cons f fs ih =>
    rw [List.foldl_cons, List.foldl_cons, ih]
    rfl

theorem openAfter_concat (cfg : Config) (fs : List Frame) (f : Frame) :
    openAfter cfg (fs ++ [f]) =
      (openAfter cfg fs).next (fs.foldl (decode cfg) Decoder.init).lastIas (f.pdu cfg) := by
  have e : (fs.foldl (decode cfg) Decoder.init).tracker =
      (fs.foldl (ledgerStep cfg) (Decoder.init.tracker, Ledger.empty)).1 := by
    rw [tracker_run, ledgerRun_fst]
  simp only [openAfter, List.foldl_append, List.foldl_cons, List.foldl_nil, ledgerStep, ← e]
  rfl

/-- Only connect commands open connections. -/
theorem next_mem {q : IasQuery} {L : Ledger} {pdu : Pdu} {c : UInt8} {p : UInt8 × UInt8}
    (h : L.next q pdu c p ≠ none) :
    L c p ≠ none ∨ ∃ g, pdu = .lm g .connectCmd ∧ (c, p) = (g.caddr, g.pair) := by
  unfold Ledger.next Ledger.set Ledger.clear at h
  cases pdu with
  | lapDisc a =>
    simp only at h
    split_ifs at h
    · exact absurd rfl h
    · exact Or.inl h
  | ultraObex => exact Or.inl h
  | other => exact Or.inl h
  | lm g op =>
    cases op with
    | connectCmd =>
      simp only at h
      split_ifs at h with h1
      · by_cases h2 : c = g.caddr ∧ p = g.pair
        · exact Or.inr ⟨g, rfl, by rw [h2.1, h2.2]⟩
        · simp only [if_neg h2] at h
          exact Or.inl h
      · exact Or.inl h
    | disconnect =>
      simp only at h
      split_ifs at h
      · exact absurd rfl h
      · exact Or.inl h
    | connectRsp => exact Or.inl h
    | control => exact Or.inl h
    | data ias => exact Or.inl h

theorem openAfter_mem (cfg : Config) (fs : List Frame) (S : Finset (UInt8 × UInt8 × UInt8))
    (hS : ∀ f ∈ fs, ∀ h, f.pdu cfg = .lm h .connectCmd → (h.caddr, h.pair) ∈ S) :
    ∀ c p, openAfter cfg fs c p ≠ none → (c, p) ∈ S := by
  induction fs using List.reverseRecOn with
  | nil => intro c p h; exact absurd rfl h
  | append_singleton fs f ih =>
    intro c p hne
    rw [openAfter_concat] at hne
    rcases next_mem hne with h | ⟨g, e, hcp⟩
    · exact ih (fun g hg => hS g (by simp [hg])) c p h
    · rw [hcp]
      exact hS f (by simp) g e

end Irdadump
