import IrdaUtils.Lib.Runs
import IrdaUtils.Spec.Irkbd

/-! The watchdog timer of `irkbd`. The data handler only ever starts it, and a change of state
comes with a start, so that it can run out only in the expiry handler, which starts it again
in one state of five. -/

namespace Irkbd

/-- While connected and not idle, the timer runs. -/
def Armed (s : Cb) : Prop := s.connected = true → s.state ≠ .idle → s.timer ≠ none

/-- The expiry that is not made good: the timer is left stopped in a state that waits for it. -/
def Lapses (s : Cb) (e : Event) : Prop :=
  e = .expire ∧ s.timer ≠ none ∧ s.connected = true ∧
    (s.state = .initKbd ∨ s.state = .initMouse ∨ s.state = .ready)

/-! ### Data -/

/-- What a data handler can do to the timer: it starts it, or leaves it and the state. -/
def Fed (s s' : Cb) : Prop :=
  (s'.connected = true → s.connected = true) ∧
    (s'.timer ≠ none ∨ (s'.timer = s.timer ∧ s'.state = s.state))

theorem Fed.refl (s : Cb) : Fed s s := ⟨id, .inr ⟨rfl, rfl⟩⟩

theorem Fed.trans {a b c : Cb} (h1 : Fed a b) (h2 : Fed b c) : Fed a c := by
  refine ⟨fun h => h1.1 (h2.1 h), ?_⟩
  rcases h2.2 with h | ⟨ht, hs⟩
  · exact .inl h
  · rcases h1.2 with h | ⟨ht', hs'⟩
    · exact .inl (by rwa [ht])
    · exact .inr ⟨ht.trans ht', hs.trans hs'⟩

theorem Fed.armed {s s' : Cb} (h : Fed s s') (ha : Armed s) : Armed s' := by
  intro hc hs
  rcases h.2 with ht | ⟨ht, hst⟩
  · exact ht
  · rw [ht]
    exact ha (h.1 hc) (by rwa [← hst])

theorem started_ne_none (sec : ℕ) {usec : ℕ} (h : sec ≠ 0 ∨ usec ≠ 0) (s : Cb) :
    (startWatchdogTimer sec usec s).timer ≠ none := by
  have hne : ¬ (sec = 0 ∧ usec = 0) := by omega
  simp [startWatchdogTimer, hne]

/-- A start of the timer behind any other change. -/
theorem fed_started {s s' : Cb} (usec : ℕ) (h : usec ≠ 0) (hc : s'.connected = s.connected) :
    Fed s (startWatchdogTimer 0 usec s') := by
  refine ⟨fun h' => ?_, .inl (started_ne_none 0 (.inr h) s')⟩
  rw [← hc]
  exact h'

theorem fed_handleResponse (s : Cb) (rsp : UInt8) : Fed s (handleResponse s rsp) := by
  unfold handleResponse
  split_ifs
  · exact fed_started idleRate (by decide) rfl
  · exact fed_started rate (by decide) rfl
  · exact fed_started rate (by decide) rfl
  · exact fed_started 100000 (by decide) rfl
  · exact .refl s

theorem fed_responses (rsps : List UInt8) : ∀ s, Fed s (rsps.foldl handleResponse s) := by
  induction rsps with
  | nil => exact .refl
  | cons r rs ih => intro s; exact (fed_handleResponse s r).trans (ih _)

theorem fed_handleSubframe (subtype : UInt8) (bytes : List UInt8) (s : Cb) :
    Fed s (handleSubframe subtype bytes s) := by
  unfold handleSubframe
  split_ifs
  · exact fed_started rate (by decide) rfl
  · exact fed_started rate (by decide) rfl
  · exact fed_responses bytes s

theorem fed_parseFrame (len : UInt8) (mem : List UInt8) (s : Cb) :
    ∀ s', parseFrame len mem s = some s' → Fed s s' := by
  fun_induction parseFrame len mem s with
  | case1 mem s =>
    intro s' e
    cases e
    exact .refl _
  | case2 =>
    intro s' e
    cases e
  | case3 =>
    intro s' e
    cases e
  | case4 len s hlen b mem sublen subtype k hk ih =>
    intro s' e
    exact (fed_handleSubframe _ _ s).trans (ih s' e)

theorem fed_dataIndication {received : Bool} {mem : List UInt8} {s s' : Cb}
    (e : dataIndication received mem s = some s') : Fed s s' := by
  have hrecv : Fed s (if received then s else { s with connected := false }) := by
    split_ifs
    · exact .refl s
    · exact ⟨by simp, .inr ⟨rfl, rfl⟩⟩
  unfold dataIndication at e
  cases mem with
  | nil => cases e
  | cons len mem => exact hrecv.trans (fed_parseFrame len mem _ s' e)

/-! ### Events -/

theorem connect_armed (s : Cb) : Armed (connect s) :=
  fun _ _ => started_ne_none timeout (.inl (by decide)) _

/-- The expiry keeps the timer running exactly when it does not lapse. -/
theorem expired_armed_iff (s : Cb) (h : s.timer ≠ none) :
    Armed (watchdogTimerExpired { s with timer := none }) ↔ ¬ Lapses s .expire := by
  have hlapse : Lapses s .expire ↔ s.connected = true ∧
      (s.state = .initKbd ∨ s.state = .initMouse ∨ s.state = .ready) := by
    simp [Lapses, h]
  rw [hlapse]
  unfold watchdogTimerExpired
  cases hs : s.state with
  | polling =>
    have ha : Armed (startWatchdogTimer timeout 0 (dataRequest cmdEnable { s with timer := none })) :=
      fun _ _ => started_ne_none timeout (.inl (by decide)) _
    rw [hs] at ha
    exact iff_of_true ha (by simp)
  | idle => simp [Armed]
  | initKbd => simp [Armed, dataRequest]
  | initMouse => simp [Armed, dataRequest]
  | ready => simp [Armed, dataRequest]

theorem step_armed_iff (s : Cb) (e : Event) (ha : Armed s) :
    ¬ Lapses s e ↔ ∀ s' ∈ step s e, Armed s' := by
  cases e with
  | connect =>
    have hno : ¬ Lapses s .connect := fun h => by cases h.1
    refine iff_of_true hno ?_
    intro s' hs'
    obtain rfl := Option.some.inj hs'
    split_ifs
    · exact ha
    · exact connect_armed s
  | data received mem =>
    have hno : ¬ Lapses s (.data received mem) := fun h => by cases h.1
    refine iff_of_true hno ?_
    intro s' hs'
    exact (fed_dataIndication hs').armed ha
  | expire =>
    cases ht : s.timer with
    | none =>
      have hno : ¬ Lapses s .expire := fun h => h.2.1 ht
      refine iff_of_true hno ?_
      intro s' hs'
      simp only [step, ht, Option.mem_some_iff] at hs'
      rw [← hs']
      exact ha
    | some t =>
      rw [← expired_armed_iff s (by rw [ht]; simp)]
      simp only [step, ht, Option.mem_some_iff, forall_eq']

/-! ### Runs -/

/-- The watchdog runs in every state of a run exactly when no expiry of the run comes while
connected in a state that waits for an answer to its one command. -/
theorem watchdog_armed_iff (es : List Event) :
    (∀ pre, pre <+: es → ∀ s ∈ pre.foldl next (some .init), Armed s) ↔
      Runs.Along next (fun p e => ∀ s ∈ p, ¬ Lapses s e) (some .init) es := by
  have hstep : ∀ (p : Option Cb) (e : Event), (∀ s ∈ p, Armed s) →
      ((∀ s ∈ p, ¬ Lapses s e) ↔ ∀ s ∈ next p e, Armed s) := by
    intro p e hp
    cases p with
    | none => simp [next]
    | some s =>
      simp only [Option.mem_some_iff, forall_eq'] at hp ⊢
      exact step_armed_iff s e hp
  have hinit : ∀ s ∈ some Cb.init, Armed s := by
    intro s hs
    obtain rfl := Option.some.inj hs
    intro hc
    cases hc
  exact Runs.along_iff_always_good hstep es (some .init) hinit

/-- Connected, and the answer to the first command is lost: the timer expires once and is
not started again. -/
theorem lost_answer_lapses :
    ∃ s, [Event.connect, .expire].foldl next (some .init) = some s ∧
      s.connected = true ∧ s.state = .initMouse ∧ s.timer = none := by
  exact ⟨⟨.initMouse, true, 0, none, [cmdInitMouse], [], []⟩, by decide, rfl, rfl, rfl⟩

end Irkbd
