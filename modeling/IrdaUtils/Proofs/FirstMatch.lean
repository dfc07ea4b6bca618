import IrdaUtils.Proofs.Connections

/-! The plain search of `find_connection` against the allocation of slots. The search does
not look at `valid`, and closed slots keep their selectors. It still meets the open
connection first, since a `CONNECT_CMD` takes the lowest closed slot: no closed slot with
the same selectors is left in front of it. -/

namespace Irdadump
open Runs

/-- A connect command that passes the test on the selector, for selectors that are those of
a valid slot already. -/
def Reopens (t : Tracker) : Pdu → Prop
  | .lm h .connectCmd => h.dlsapSel = t.lastIas.lsapSel ∧
    ∃ i, (t.conn i).valid = true ∧ (t.conn i).pair = h.pair
  | _ => False

instance (t : Tracker) : (pdu : Pdu) → Decidable (Reopens t pdu)
  | .lm _ .connectCmd => inferInstanceAs (Decidable (_ ∧ _))
  | .lm _ .connectRsp => .isFalse id
  | .lm _ .disconnect => .isFalse id
  | .lm _ .control => .isFalse id
  | .lm _ (.data _) => .isFalse id
  | .lapDisc _ => .isFalse id
  | .ultraObex => .isFalse id
  | .other => .isFalse id

/-- A valid slot is in front of all other slots with its selectors. -/
def ValidFirst (conn : Slot → LsapState) : Prop :=
  ∀ i, (conn i).valid = true → ∀ j, (conn j).pair = (conn i).pair → i ≤ j

theorem findFree_lowest {conn : Slot → LsapState} {i j : Slot}
    (h : findFreeConnection conn = some i) (hj : j < i) : (conn j).valid = true := by
  rw [findFreeConnection, ← Fin.find?_eq_find?_finRange, Fin.find?_eq_some_iff] at h
  simpa using h.2 j hj

/-! ### One frame -/

/-- Closing slots keeps the order of the others. -/
theorem ValidFirst.of_closed {conn conn' : Slot → LsapState} (h : ValidFirst conn)
    (hpair : ∀ i, (conn' i).pair = (conn i).pair)
    (hvalid : ∀ i, (conn' i).valid = true → (conn i).valid = true) : ValidFirst conn' := by
  intro i hi j hj
  rw [hpair, hpair] at hj
  exact h i (hvalid i hi) j hj

theorem validFirst_filled {conn : Slot → LsapState} (h : ValidFirst conn) {i : Slot}
    (hf : findFreeConnection conn = some i) {c : LsapState}
    (hnew : ¬ ∃ j, (conn j).valid = true ∧ (conn j).pair = c.pair) :
    ValidFirst (Function.update conn i c) := by
  intro k hk j hj
  by_cases hki : k = i
  · subst hki
    by_cases hjk : j = k
    · exact hjk.ge
    · rw [Function.update_self, Function.update_of_ne hjk] at hj
      -- a slot in front of the lowest free one is valid
      by_contra hlt
      exact hnew ⟨j, findFree_lowest hf (not_le.1 hlt), hj⟩
  · rw [Function.update_of_ne hki] at hk hj
    by_cases hji : j = i
    · subst hji
      rw [Function.update_self] at hj
      exact absurd ⟨k, hk, hj.symm⟩ hnew
    · rw [Function.update_of_ne hji] at hj
      exact h k hk j hj

theorem validFirst_connectCmd (cfg : Config) {t : Tracker} (ht : ValidFirst t.conn) {h : LmHead}
    (hr : ¬ Reopens t (.lm h .connectCmd)) : ValidFirst (trackConnectCmd cfg t h).tracker.conn := by
  unfold trackConnectCmd
  by_cases hd : h.dlsapSel = t.lastIas.lsapSel
  · rw [if_pos hd]
    cases hf : findFreeConnection t.conn with
    | none => exact ht
    | some i =>
      refine validFirst_filled ht hf ?_
      rw [ofConnect_pair]
      exact fun hex => hr ⟨hd, hex⟩
  · rw [if_neg hd]
    exact ht

theorem validFirst_disconnect {t : Tracker} (ht : ValidFirst t.conn) (h : LmHead) :
    ValidFirst (trackDisconnect t h).tracker.conn := by
  unfold trackDisconnect
  cases t.find h.pair with
  | none => exact ht
  | some i =>
    refine ht.of_closed ?_ ?_
    · intro j
      by_cases e : j = i
      · subst e
        simp only [Function.update_self]
        rfl
      · simp only [Function.update_of_ne e]
    · intro j hj
      by_cases e : j = i
      · subst e
        simp only [Function.update_self] at hj
        cases hj
      · simpa only [Function.update_of_ne e] using hj

theorem validFirst_garbage {conn : Slot → LsapState} (h : ValidFirst conn) (caddr : UInt8) :
    ValidFirst (garbageConnection conn caddr) := by
  refine h.of_closed ?_ ?_
  · intro i
    unfold garbageConnection
    split_ifs <;> rfl
  · intro i hi
    unfold garbageConnection at hi
    split_ifs at hi
    exact hi

theorem validFirst_step (cfg : Config) {t : Tracker} (ht : ValidFirst t.conn) {pdu : Pdu}
    (hr : ¬ Reopens t pdu) : ValidFirst (trackStep cfg t pdu).tracker.conn := by
  cases pdu with
  | lapDisc a => exact validFirst_garbage ht a
  | ultraObex => exact ht
  | other => exact ht
  | lm h op =>
    cases op with
    | connectCmd => exact validFirst_connectCmd cfg ht hr
    | disconnect => exact validFirst_disconnect ht h
    | connectRsp => exact ht
    | control => exact ht
    | data ias => exact ht

/-! ### Runs -/

theorem validFirst_init : ValidFirst Decoder.init.conn := by
  have h0 : ∀ i, (Decoder.init.conn i).valid = false := by decide
  intro i hi
  rw [h0] at hi
  cases hi

theorem validFirst_run (cfg : Config) (fs : List Frame)
    (h : Along (decode cfg) (fun d f => ¬ Reopens d.tracker (f.pdu cfg)) Decoder.init fs) :
    ValidFirst (fs.foldl (decode cfg) Decoder.init).conn := by
  refine h.inv (fun d => ValidFirst d.conn) ?_ validFirst_init
  intro d f hd hr
  have ht := validFirst_step cfg (t := d.tracker) hd hr
  rwa [← trackFrame, ← tracker_decode] at ht

/-- In every run in which no connect command is for the selectors of a valid slot, the search
without the cache meets a valid slot whenever there is one with the selectors it looks for. -/
theorem search_meets_valid (cfg : Config) (fs : List Frame)
    (h : Along (decode cfg) (fun d f => ¬ Reopens d.tracker (f.pdu cfg)) Decoder.init fs)
    (slsapSel dlsapSel : UInt8) :
    let conn := (fs.foldl (decode cfg) Decoder.init).conn
    (∃ i, (conn i).valid = true ∧ (conn i).hasPair slsapSel dlsapSel = true) →
      ∃ j, findConnection conn none slsapSel dlsapSel = some j ∧ (conn j).valid = true ∧
        (conn j).hasPair slsapSel dlsapSel = true := by
  rintro conn ⟨i, hv, hp⟩
  have hfirst : ValidFirst conn := validFirst_run cfg fs h
  have hpair : (conn i).pair = (slsapSel, dlsapSel) := (hasPair_iff _ (slsapSel, dlsapSel)).1 hp
  have hfind : firstSlot conn slsapSel dlsapSel = some i := by
    refine (firstSlot_eq_some (p := (slsapSel, dlsapSel))).2 ⟨hpair, ?_⟩
    intro j hj e
    exact absurd (hfirst i hv j (e.trans hpair.symm)) (not_le.2 hj)
  exact ⟨i, hfind, hv, hp⟩

/-- The second of two closed connections is opened again, with its old slot still there. -/
theorem search_meets_valid_reused :
    ∃ j, findConnection (reusedRun.foldl (decode {}) Decoder.init).conn none 0x11 0x05 = some j ∧
      ((reusedRun.foldl (decode {}) Decoder.init).conn j).valid = true ∧
      ((reusedRun.foldl (decode {}) Decoder.init).conn j).hasPair 0x11 0x05 = true := by
  have hrun : (reusedRun.foldl (decode {}) Decoder.init).conn =
      (reusedRun.foldl (trackFrame {}) Decoder.init.tracker).conn := by
    rw [← tracker_run]
    rfl
  refine search_meets_valid {} reusedRun ?_ 0x11 0x05 ?_
  · exact (along_image (fun t f => ¬ Reopens t (f.pdu {})) Decoder.tracker (tracker_decode {})
      reusedRun Decoder.init).2 (by decide)
  · rw [hrun]
    exact ⟨0, by decide, by decide⟩

end Irdadump
