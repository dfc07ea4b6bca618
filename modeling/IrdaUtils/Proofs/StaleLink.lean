import IrdaUtils.Lib.Runs
import IrdaUtils.Spec.IrcardLink

/-! Detached links that are never freed. `ircard_detach` leaves a configured link to
`ircard_release`, which gives up the configuration and looks no further. -/

namespace Ircard

/-- A link in the list whose detach was postponed is still configured. -/
def Link.Kept (link : Link) : Prop := link.staleLink = true → link.config = true

/-- The event runs `ircard_release` on a detached link that is not open. -/
def Link.ReleasedStale (link : Link) (e : LinkEvent) : Prop :=
  ((e = .releaseTimer ∧ link.timer = true) ∨
    e = .cardInsertion .failsEarly ∨ e = .cardInsertion .failsLate) ∧
  link.staleLink = true ∧ link.opens = 0

instance (link : Link) : Decidable link.Kept :=
  inferInstanceAs (Decidable (_ → _))

instance (link : Link) (e : LinkEvent) : Decidable (link.ReleasedStale e) :=
  inferInstanceAs (Decidable (_ ∧ _))

theorem release_kept_iff (link : Link) (h : link.Kept) :
    (ircardRelease link).Kept ↔ ¬ (link.staleLink = true ∧ link.opens = 0) := by
  unfold ircardRelease
  by_cases ho : link.opens ≠ 0
  · rw [if_pos ho]
    exact iff_of_true h fun hs => ho hs.2
  · rw [if_neg ho]
    have ho' : link.opens = 0 := not_not.1 ho
    simp [Link.Kept, ho']

/-- An event keeps what is promised of the link exactly when it does not release it stale. -/
theorem handle_kept_iff (link : Link) (e : LinkEvent) (h : link.Kept) :
    ¬ link.ReleasedStale e ↔ ∀ link' ∈ link.handle e, link'.Kept := by
  cases e with
  | cardRemoval =>
    refine iff_of_true (by simp [Link.ReleasedStale]) ?_
    intro link' hl
    obtain rfl := Option.some.inj hl
    simp only
    split_ifs <;> exact h
  | cardInsertion r =>
    cases r with
    | ok =>
      refine iff_of_true (by simp [Link.ReleasedStale]) ?_
      intro link' hl
      obtain rfl := Option.some.inj hl
      exact fun _ => rfl
    | failsEarly =>
      have hr := release_kept_iff { link with present := true, configPending := true } h
      simp [Link.ReleasedStale, Link.handle, ircardConfig, hr]
    | failsLate =>
      have hr := release_kept_iff
        { link with present := true, configPending := true, config := true } (fun _ => rfl)
      simp [Link.ReleasedStale, Link.handle, ircardConfig, hr]
  | pmSuspend | resetPhysical | pmResume | cardReset =>
    refine iff_of_true (by simp [Link.ReleasedStale]) ?_
    intro link' hl
    obtain rfl := Option.some.inj hl
    exact h
  | releaseTimer =>
    cases ht : link.timer with
    | false => simpa [Link.ReleasedStale, Link.handle, ht] using h
    | true =>
      have hr := release_kept_iff { link with timer := false } h
      simp [Link.ReleasedStale, Link.handle, ht, hr]
  | detach =>
    refine iff_of_true (by simp [Link.ReleasedStale]) ?_
    intro link' hl
    simp only [Link.handle, ircardDetach] at hl
    split_ifs at hl with hc
    · obtain rfl := Option.some.inj hl
      exact fun _ => hc
    · cases hl

/-! ### The list of links -/

/-- No link of the list is detached and no longer configured. -/
def NoneStale (devList : List Link) : Prop := ∀ link ∈ devList, link.Kept

def ReleasesStale (devList : List Link) : DriverEvent → Prop
  | .attach _ _ => False
  | .link id e => ∃ link ∈ devList, link.id = id ∧ link.ReleasedStale e

theorem mem_onLink {id : ℕ} {f : Link → Option Link} {devList : List Link} {link' : Link} :
    link' ∈ onLink id f devList ↔
      ∃ link ∈ devList, if link.id = id then link' ∈ f link else link = link' := by
  rw [onLink, List.mem_filterMap]
  refine exists_congr fun link => and_congr_right fun _ => ?_
  split_ifs
  · exact Iff.rfl
  · exact Option.some_inj

theorem onLink_noneStale_iff {id : ℕ} {f : Link → Option Link} {devList : List Link}
    (h : NoneStale devList) :
    NoneStale (onLink id f devList) ↔
      ∀ link ∈ devList, link.id = id → ∀ link' ∈ f link, link'.Kept := by
  constructor
  · intro hs link hl hid link' hl'
    exact hs link' (mem_onLink.2 ⟨link, hl, by rwa [if_pos hid]⟩)
  · intro hs link' hl'
    obtain ⟨link, hl, hc⟩ := mem_onLink.1 hl'
    split_ifs at hc with hid
    · exact hs link hl hid link' hc
    · rw [← hc]
      exact h link hl

theorem fresh_kept (id : ℕ) : (Link.fresh id).Kept := by
  intro h
  cases h

theorem attach_noneStale {id : ℕ} {registered : Bool} {devList : List Link}
    (h : NoneStale devList) : NoneStale (ircardAttach id registered devList) := by
  have hnew : NoneStale (Link.fresh id :: devList) := by
    intro link hl
    rcases List.mem_cons.1 hl with rfl | hl
    · exact fresh_kept id
    · exact h link hl
  unfold ircardAttach
  simp only
  split_ifs
  · exact h
  · exact hnew
  · refine (onLink_noneStale_iff hnew).2 ?_
    intro link hl _
    exact (handle_kept_iff link .detach (hnew link hl)).1 (by simp [Link.ReleasedStale])

theorem driverStep_noneStale_iff (devList : List Link) (e : DriverEvent) (h : NoneStale devList) :
    ¬ ReleasesStale devList e ↔ NoneStale (driverStep devList e) := by
  cases e with
  | attach id registered => exact iff_of_true not_false (attach_noneStale h)
  | link id e =>
    rw [driverStep, onLink_noneStale_iff h]
    constructor
    · intro hno link hl hid
      refine (handle_kept_iff link e (h link hl)).1 ?_
      intro hr
      exact hno ⟨link, hl, hid, hr⟩
    · rintro hs ⟨link, hl, hid, hr⟩
      exact (handle_kept_iff link e (h link hl)).2 (hs link hl hid) hr

/-- No state of a run keeps a detached link without its configuration exactly when the run
never releases a detached link. -/
theorem detached_freed_iff (es : List DriverEvent) :
    (∀ pre, pre <+: es → NoneStale (pre.foldl driverStep [])) ↔
      Runs.Along driverStep (fun devList e => ¬ ReleasesStale devList e) [] es :=
  Runs.along_iff_always_good driverStep_noneStale_iff es [] (by simp [NoneStale])

/-- Detached while configured, then the card is pulled: the timer releases the configuration
and the link stays in the list. -/
theorem released_link_left :
    ∃ (es : List DriverEvent) (link : Link),
      link ∈ es.foldl driverStep [] ∧ link.staleLink = true ∧ link.config = false :=
  ⟨[.attach 1 true, .link 1 (.cardInsertion .ok), .link 1 .detach, .link 1 .cardRemoval,
      .link 1 .releaseTimer],
    ⟨1, false, false, false, false, false, true, false, 0, false, true⟩, by decide, rfl, rfl⟩

end Ircard
