import IrdaUtils.Proofs.Connections

/-! The cache of `find_connection` against the search it stands for. A search leaves the
first slot with its selectors in the cache, and closing slots leaves the selectors alone.
Only a `CONNECT_CMD` writes selectors, and it does not look at the cache: in some runs the
cached slot stops being the first one. -/

namespace Irdadump
open Runs

def CacheTransparent (d : Decoder) : Prop :=
  ∀ slsapSel dlsapSel, findConnection d.conn d.connCache slsapSel dlsapSel =
    findConnection d.conn none slsapSel dlsapSel

/-- A connect command fills a slot in front of the cached one with the selectors of the
cached one, or the cached one itself with selectors that a slot in front of it has. -/
def Shadows (t : Tracker) : Pdu → Prop
  | .lm h .connectCmd => h.dlsapSel = t.lastIas.lsapSel ∧
    ∃ i c, findFreeConnection t.conn = some i ∧ t.connCache = some c ∧
      (i < c ∧ (t.conn c).pair = h.pair ∨ i = c ∧ ∃ j < c, (t.conn j).pair = h.pair)
  | _ => False

/-- The cached slot is the first one with its selectors. -/
def Tracker.CacheFirst (t : Tracker) : Prop :=
  ∀ c, t.connCache = some c → ∀ j < c, (t.conn j).pair ≠ (t.conn c).pair

theorem transparent_iff_cacheFirst (d : Decoder) :
    CacheTransparent d ↔ d.tracker.CacheFirst := by
  constructor
  · intro h c hc
    have hcached : d.tracker.find (d.conn c).pair = some c := find_eq_cached hc rfl
    have hfirst : firstSlot d.conn (d.conn c).pair.1 (d.conn c).pair.2 = some c :=
      (h _ _).symm.trans hcached
    exact (firstSlot_eq_some.1 hfirst).2
  · intro h slsapSel dlsapSel
    change d.tracker.find (slsapSel, dlsapSel) = firstSlot d.conn slsapSel dlsapSel
    by_cases hex : ∃ c, d.connCache = some c ∧ (d.conn c).pair = (slsapSel, dlsapSel)
    · obtain ⟨c, hc, hp⟩ := hex
      rw [find_eq_cached hc hp]
      refine (firstSlot_eq_some (p := (slsapSel, dlsapSel)).2 ⟨hp, ?_⟩).symm
      intro j hj
      rw [← hp]
      exact h c hc j hj
    · exact find_eq_first fun c hc hp => hex ⟨c, hc, hp⟩

/-! ### One step -/

theorem cacheFirst_found {t : Tracker} (h : t.CacheFirst) (p : UInt8 × UInt8)
    {conn : Slot → LsapState} (hpair : ∀ i, (conn i).pair = (t.conn i).pair) (q : IasQuery) :
    Tracker.CacheFirst ⟨conn, t.find p, q⟩ := by
  intro c hc j hj
  rw [hpair, hpair]
  obtain ⟨hp, hcache | ⟨-, hfirst⟩⟩ := find_eq_some.1 hc
  · exact h c hcache j hj
  · rw [hp]
    exact hfirst j hj

theorem cacheFirst_of_pairs {t u : Tracker} (h : t.CacheFirst) (hcache : u.connCache = t.connCache)
    (hpair : ∀ i, (u.conn i).pair = (t.conn i).pair) : u.CacheFirst := by
  intro c hc j hj
  rw [hpair, hpair]
  exact h c (hcache ▸ hc) j hj

theorem cacheFirst_filled {t : Tracker} (h : t.CacheFirst) {i : Slot} {x : LsapState} :
    ({ t with conn := Function.update t.conn i x } : Tracker).CacheFirst ↔
      ¬ ∃ c, t.connCache = some c ∧
        (i < c ∧ (t.conn c).pair = x.pair ∨ i = c ∧ ∃ j < c, (t.conn j).pair = x.pair) := by
  have hself : (Function.update t.conn i x) i = x := Function.update_self i x t.conn
  have hother : ∀ {j}, j ≠ i → (Function.update t.conn i x) j = t.conn j :=
    fun e => Function.update_of_ne e x t.conn
  constructor
  · rintro hu ⟨c, hc, ⟨hlt, hp⟩ | ⟨rfl, j, hj, hp⟩⟩
    · refine hu c hc i hlt ?_
      simp only [hself, hother hlt.ne', hp]
    · refine hu i hc j hj ?_
      simp only [hself, hother hj.ne, hp]
  · intro hno c hc j hj
    simp only
    by_cases hci : c = i
    · subst hci
      rw [hself, hother hj.ne]
      exact fun hp => hno ⟨c, hc, Or.inr ⟨rfl, j, hj, hp⟩⟩
    · rw [hother hci]
      by_cases hji : j = i
      · subst hji
        rw [hself]
        exact fun hp => hno ⟨c, hc, Or.inl ⟨hj, hp.symm⟩⟩
      · rw [hother hji]
        exact h c hc j hj

theorem closed_pair (c : LsapState) : ({ c with valid := false } : LsapState).pair = c.pair := rfl

theorem cacheFirst_connectCmd (cfg : Config) {t : Tracker} (h : t.CacheFirst) (l : LmHead) :
    (trackConnectCmd cfg t l).tracker.CacheFirst ↔ ¬ Shadows t (.lm l .connectCmd) := by
  unfold trackConnectCmd Shadows
  by_cases hd : l.dlsapSel = t.lastIas.lsapSel
  · rw [if_pos hd]
    cases hf : findFreeConnection t.conn with
    | none => simpa using h
    | some i =>
      simp only [hd, true_and]
      rw [cacheFirst_filled h, ofConnect_pair]
      simp
  · rw [if_neg hd]
    simpa [hd] using h

theorem cacheFirst_disconnect {t : Tracker} (h : t.CacheFirst) (l : LmHead) :
    (trackDisconnect t l).tracker.CacheFirst := by
  unfold trackDisconnect
  cases hf : t.find l.pair with
  | none => exact fun c hc => by cases hc
  | some i =>
    have hpair : ∀ j, (Function.update t.conn i { t.conn i with valid := false } j).pair =
        (t.conn j).pair := by
      intro j
      by_cases e : j = i
      · rw [e, Function.update_self, closed_pair]
      · rw [Function.update_of_ne e]
    have hfound := cacheFirst_found h l.pair hpair t.lastIas
    rwa [hf] at hfound

theorem cacheFirst_step (cfg : Config) {t : Tracker} (h : t.CacheFirst) (pdu : Pdu) :
    (trackStep cfg t pdu).tracker.CacheFirst ↔ ¬ Shadows t pdu := by
  cases pdu with
  | lapDisc a =>
    refine iff_of_true (cacheFirst_of_pairs h rfl fun i => ?_) id
    simp only [trackStep, garbageConnection]
    split_ifs
    · exact closed_pair _
    · rfl
  | ultraObex => exact iff_of_true h id
  | other => exact iff_of_true h id
  | lm l op =>
    cases op with
    | connectCmd => exact cacheFirst_connectCmd cfg h l
    | connectRsp => exact iff_of_true (cacheFirst_found h l.pair (fun _ => rfl) t.lastIas) id
    | disconnect => exact iff_of_true (cacheFirst_disconnect h l) id
    | control => exact iff_of_true h id
    | data ias => exact iff_of_true (cacheFirst_found h l.pair (fun _ => rfl) _) id

/-! ### Runs -/

/-- The cache is transparent in every state of a run exactly when no connect command of the
run shadows the cached slot. -/
theorem cache_transparent_iff (cfg : Config) (fs : List Frame) :
    (∀ pre, pre <+: fs → CacheTransparent (pre.foldl (decode cfg) Decoder.init)) ↔
      Along (decode cfg) (fun d f => ¬ Shadows d.tracker (f.pdu cfg)) Decoder.init fs := by
  have hstep : ∀ (d : Decoder) (f : Frame), CacheTransparent d →
      (¬ Shadows d.tracker (f.pdu cfg) ↔ CacheTransparent (decode cfg d f)) := by
    intro d f h
    rw [transparent_iff_cacheFirst] at h ⊢
    rw [tracker_decode]
    exact (cacheFirst_step cfg h (f.pdu cfg)).symm
  exact along_iff_always_good hstep fs Decoder.init fun _ _ => rfl

/-- When the second of two closed connections is opened again it gets the slot of the first,
while the cache has its old slot. -/
theorem cached_slot_shadowed :
    ¬ ∀ (cfg : Config) (fs : List Frame),
      CacheTransparent (fs.foldl (decode cfg) Decoder.init) := by
  intro h
  have hfirst := (transparent_iff_cacheFirst _).1 (h {} reusedRun)
  rw [tracker_run] at hfirst
  have hcache : (reusedRun.foldl (trackFrame {}) Decoder.init.tracker).connCache = some 1 := by
    decide
  exact hfirst 1 hcache 0 (by decide) (by decide)

end Irdadump
