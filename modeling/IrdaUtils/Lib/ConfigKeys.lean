import IrdaUtils.Lib.PortIo
import Mathlib.Data.List.TakeWhile

/-! The configuration mode of a chip, as a function of the accesses that it sees: it opens when
its keys are written to its port one behind the other, and closes with its exit key. Whether
it is closed behind a session depends on the session of which chip it is, as several chips may
share a port. -/

namespace PortIo

inductive Mode where
  /-- That many keys have been seen in turn. -/
  | closed (seen : ℕ)
  | opened
  deriving DecidableEq, Repr

namespace Entry

variable (e : Entry)

def next (m : Mode) : Access → Mode
  | .inn _ _ => m
  | .out value port =>
    if port ≠ e.port then m
    else
      match m with
      | .opened => if value = e.exitKey then .closed 0 else .opened
      | .closed seen =>
        if e.keys[seen]? = some value then
          if seen + 1 = e.keys.length then .opened else .closed (seen + 1)
        else .closed 0

def mode (m : Mode) (t : List Access) : Mode := t.foldl e.next m

def Closed (m : Mode) : Prop := ∃ seen, m = .closed seen ∧ seen < e.keys.length

/-- The access writes no key of the chip to its port. -/
def Quiet (a : Access) : Prop := ∀ k ∈ e.keys, a ≠ .out k e.port

instance (a : Access) : Decidable (e.Quiet a) :=
  inferInstanceAs (Decidable (∀ k ∈ e.keys, a ≠ .out k e.port))

/-- The sessions of `s` leave the chip closed: they are at another port, they have none of its
keys, they end with its exit key, or they are its own. -/
def Compatible (s : Entry) : Prop :=
  s.port ≠ e.port ∨ (∀ k ∈ e.keys, k ∉ s.keys ∧ k ≠ s.exitKey) ∨
    (s.exitKey = e.exitKey ∧ e.exitKey ∉ e.keys) ∨ (s = e ∧ e.keys = [e.exitKey])

instance (s : Entry) : Decidable (e.Compatible s) :=
  inferInstanceAs (Decidable (_ ∨ _ ∨ _ ∨ _))

variable {e}

theorem mode_append (m : Mode) (t u : List Access) : e.mode m (t ++ u) = e.mode (e.mode m t) u :=
  List.foldl_append

theorem next_out {port : UInt16} (h : port = e.port) (m : Mode) (value : UInt8) :
    e.next m (.out value port) =
      match m with
      | .opened => if value = e.exitKey then .closed 0 else .opened
      | .closed seen =>
        if e.keys[seen]? = some value then
          if seen + 1 = e.keys.length then .opened else .closed (seen + 1)
        else .closed 0 := by
  cases m <;> exact if_neg (not_not.2 h)

theorem next_other {port : UInt16} (h : port ≠ e.port) (m : Mode) (value : UInt8) :
    e.next m (.out value port) = m := by
  cases m <;> exact if_pos h

theorem Closed.zero {m : Mode} (h : e.Closed m) : e.Closed (.closed 0) := by
  obtain ⟨seen, -, hlt⟩ := h
  exact ⟨0, rfl, by omega⟩

/-- Without its keys a closed chip stays closed. -/
theorem Closed.quiet {m : Mode} (h : e.Closed m) {a : Access} (ha : e.Quiet a) :
    e.Closed (e.next m a) := by
  cases a with
  | inn _ _ => exact h
  | out value port =>
    by_cases hport : port = e.port
    · obtain ⟨seen, rfl, hlt⟩ := h
      have hkey : e.keys[seen]? ≠ some value := by
        intro hk
        exact ha value (List.mem_of_getElem? hk) (by rw [hport])
      rw [next_out hport]
      simp only [if_neg hkey]
      exact ⟨0, rfl, by omega⟩
    · rw [next_other hport]
      exact h

theorem Closed.all_quiet {t : List Access} (ht : ∀ a ∈ t, e.Quiet a) :
    ∀ {m : Mode}, e.Closed m → e.Closed (e.mode m t) := by
  induction t with
  | nil => intro m h; exact h
  | cons a t ih =>
    intro m h
    obtain ⟨ha, ht'⟩ := List.forall_mem_cons.1 ht
    exact ih ht' (h.quiet ha)

/-- Without its exit key an open chip stays open. -/
theorem mode_opened {t : List Access} (ht : ∀ a ∈ t, a ≠ .out e.exitKey e.port) :
    e.mode .opened t = .opened := by
  induction t with
  | nil => rfl
  | cons a t ih =>
    obtain ⟨ha, ht'⟩ := List.forall_mem_cons.1 ht
    have hnext : e.next .opened a = .opened := by
      cases a with
      | inn _ _ => rfl
      | out value port =>
        by_cases hport : port = e.port
        · have hvalue : value ≠ e.exitKey := by
            rintro rfl
            exact ha (by rw [hport])
          rw [next_out hport]
          simp only [if_neg hvalue]
        · exact next_other hport _ _
    change e.mode (e.next .opened a) t = .opened
    rw [hnext, ih ht']

/-- The exit key closes the chip, where it is not a key. -/
theorem Closed.of_exit (hkeys : e.keys ≠ []) (h : e.exitKey ∉ e.keys) (m : Mode) :
    e.Closed (e.next m (.out e.exitKey e.port)) := by
  refine ⟨0, ?_, List.length_pos_iff.2 hkeys⟩
  rw [next_out rfl]
  cases m with
  | opened => exact if_pos rfl
  | closed seen =>
    refine if_neg fun hk => ?_
    exact h (List.mem_of_getElem? hk)

/-- A session of one key that is its own exit key, too. -/
theorem Closed.toggled {k : UInt8} (hkeys : e.keys = [k]) (hexit : e.exitKey = k) {m : Mode}
    (hm : e.Closed m) {body : List Access} (hbody : ∀ a ∈ body, e.Quiet a) :
    e.Closed (e.mode m (Session.trace ⟨e, body⟩)) := by
  obtain ⟨seen, rfl, hlt⟩ := hm
  have hseen : seen = 0 := by
    rw [hkeys] at hlt
    simpa using hlt
  subst hseen
  have hopen : e.mode (.closed 0) (e.keys.map (Access.out · e.port)) = .opened := by
    rw [hkeys]
    change e.next (.closed 0) (.out k e.port) = .opened
    rw [next_out rfl]
    simp [hkeys]
  rw [Session.trace, mode_append, mode_append, hopen,
    mode_opened fun a ha => hbody a ha e.exitKey (by rw [hkeys, hexit]; simp)]
  refine ⟨0, ?_, hlt⟩
  change e.next .opened (.out e.exitKey e.port) = .closed 0
  rw [next_out rfl]
  exact if_pos rfl

theorem Closed.session {s : Entry} (hs : e.Compatible s) {m : Mode} (hm : e.Closed m)
    {body : List Access} (hbody : ∀ a ∈ body, e.Quiet a) :
    e.Closed (e.mode m (Session.trace ⟨s, body⟩)) := by
  by_cases hport : s.port = e.port
  · rcases hs with hs | hs | ⟨hexit, hkey⟩ | ⟨rfl, hkey⟩
    · exact absurd hport hs
    · refine hm.all_quiet fun a ha => ?_
      rcases List.mem_append.1 ha with ha | ha
      · rcases List.mem_append.1 ha with ha | ha
        · obtain ⟨v, hv, rfl⟩ := List.mem_map.1 ha
          intro k hk h
          obtain ⟨rfl, -⟩ := Access.out.inj h
          exact (hs v hk).1 hv
        · exact hbody a ha
      · rw [List.mem_singleton.1 ha]
        intro k hk h
        obtain ⟨h', -⟩ := Access.out.inj h
        exact (hs k hk).2 h'.symm
    · have hkeys : e.keys ≠ [] := by
        obtain ⟨seen, -, hlt⟩ := hm
        exact List.length_pos_iff.1 (by omega)
      rw [Session.trace, mode_append]
      change e.Closed (e.next _ (.out s.exitKey s.port))
      rw [hexit, hport]
      exact .of_exit hkeys hkey _
    · exact hm.toggled hkey rfl hbody
  · refine hm.all_quiet fun a ha => ?_
    have hother : ∀ v, e.Quiet (.out v s.port) := by
      intro v k _ h
      exact hport (Access.out.inj h).2
    rcases List.mem_append.1 ha with ha | ha
    · rcases List.mem_append.1 ha with ha | ha
      · obtain ⟨v, -, rfl⟩ := List.mem_map.1 ha
        exact hother v
      · exact hbody a ha
    · rw [List.mem_singleton.1 ha]
      exact hother _

end Entry

/-! ### Refused accesses

A process may be granted only some of the ports, and the first access to another one ends it. -/

/-- All chips are closed behind the accesses. -/
def AllClosed (es : List Entry) (t : List Access) : Prop :=
  ∀ e ∈ es, e.Closed (e.mode (.closed 0) t)

/-- Chips that can be opened one behind the other: the accesses `P` write none of their keys, the
keys open a closed chip, and they go to ports that are granted. -/
structure Family (es : List Entry) (P : Access → Prop) (granted : Access → Bool) : Prop where
  quiet : ∀ e ∈ es, ∀ a, P a → e.Quiet a
  noExit : ∀ e ∈ es, ¬ P (.out e.exitKey e.port)
  compatible : ∀ e ∈ es, ∀ s ∈ es, e.Compatible s
  opens : ∀ e ∈ es, ∀ seen < e.keys.length,
    e.mode (.closed seen) (e.keys.map (Access.out · e.port)) = .opened
  keys : ∀ e ∈ es, ∀ v, granted (.out v e.port) = true

/-- The program leaves closed chips closed, and a refused access finds one of them open. -/
def Guards {α : Type} (es : List Entry) (granted : Access → Bool) (m : Io α) : Prop :=
  ∀ hw t, AllClosed es t → ∃ body, (m hw t).2 = t ++ body ∧ AllClosed es (t ++ body) ∧
    ∀ u a v, body = u ++ a :: v → granted a = false → ¬ AllClosed es (t ++ u)

/-- An access of two traces is one of the first, or it stands behind it. -/
theorem cons_in_append {t t' u v : List Access} {a : Access} (h : t ++ t' = u ++ a :: v) :
    (∃ w, t = u ++ a :: w) ∨ ∃ u', u = t ++ u' ∧ t' = u' ++ a :: v := by
  rcases List.append_eq_append_iff.1 h with h | ⟨w, hw, hw'⟩
  · exact .inr h
  · cases w with
    | nil => exact .inr ⟨[], by rw [hw, List.append_nil, List.append_nil], hw'.symm⟩
    | cons b w =>
      obtain ⟨rfl, -⟩ := List.cons.inj hw'
      exact .inl ⟨w, hw⟩

section Guards

variable {α β : Type} {es : List Entry} {P : Access → Prop} {granted : Access → Bool}

theorem allClosed_nil (h : ∀ e ∈ es, 0 < e.keys.length) : AllClosed es [] :=
  fun e he => ⟨0, rfl, h e he⟩

theorem Guards.pure (a : α) : Guards es granted (pure a : Io α) := by
  intro hw t h
  refine ⟨[], (List.append_nil t).symm, by rwa [List.append_nil], fun u a v hu => ?_⟩
  simp at hu

theorem Guards.bind {m : Io α} {f : α → Io β} (hm : Guards es granted m)
    (hf : ∀ a, Guards es granted (f a)) : Guards es granted (m >>= f) := by
  intro hw t h
  obtain ⟨b, hb, hclosed, hopen⟩ := hm hw t h
  rw [← hb] at hclosed
  obtain ⟨b', hb', hclosed', hopen'⟩ := hf (m hw t).1 hw (m hw t).2 hclosed
  rw [hb, List.append_assoc] at hclosed'
  refine ⟨b ++ b', ?_, hclosed', fun u a v hu ha => ?_⟩
  · rw [bind_run, hb', hb, List.append_assoc]
  rcases cons_in_append hu with ⟨w, hw⟩ | ⟨u', rfl, hu'⟩
  · exact hopen u a w hw ha
  · rw [← List.append_assoc, ← hb]
    exact hopen' u' a v hu' ha

theorem Guards.forM {κ : Type} {f : κ → Io Unit} {ks : List κ}
    (hf : ∀ k ∈ ks, Guards es granted (f k)) : Guards es granted (ks.forM f) := by
  induction ks with
  | nil => exact .pure ()
  | cons k ks ih =>
    obtain ⟨hk, hks⟩ := List.forall_mem_cons.1 hf
    exact .bind hk fun _ => ih hks

theorem Guards.of_only (hes : Family es P granted) {m : Io α}
    (h : Only (fun a => P a ∧ granted a = true) m) : Guards es granted m := by
  intro hw t hclosed
  obtain ⟨body, hb, hall⟩ := h hw t
  refine ⟨body, hb, fun e he => ?_, fun u a v hu ha => ?_⟩
  · rw [Entry.mode_append]
    exact (hclosed e he).all_quiet fun a ha => hes.quiet e he a (hall a ha).1
  · have := (hall a (by rw [hu]; simp)).2
    rw [ha] at this
    cases this

theorem AllClosed.session (hes : Family es P granted) {t : List Access} (h : AllClosed es t)
    {s : Session} (hs : s.entry ∈ es) (hbody : ∀ a ∈ s.body, P a) : AllClosed es (t ++ s.trace) := by
  intro e he
  rw [Entry.mode_append]
  exact (h e he).session (hes.compatible e he s.entry hs) fun a ha => hes.quiet e he a (hbody a ha)

/-- In a session only its body can be refused, and there the chip is open. -/
theorem session_opened (hes : Family es P granted) {t : List Access} (h : AllClosed es t)
    {s : Session} (hs : s.entry ∈ es) (hbody : ∀ a ∈ s.body, P a) {u v : List Access} {a : Access}
    (hu : s.trace = u ++ a :: v) (ha : granted a = false) : ¬ AllClosed es (t ++ u) := by
  set keys := s.entry.keys.map (Access.out · s.entry.port) with hkeys
  have hgranted : ∀ w, a ≠ .out w s.entry.port := by
    rintro w rfl
    rw [hes.keys s.entry hs w] at ha
    cases ha
  obtain ⟨u', rfl, hu'⟩ : ∃ u', u = keys ++ u' ∧ u' <+: s.body := by
    rw [Session.trace, ← hkeys, List.append_assoc] at hu
    rcases cons_in_append hu with ⟨w, hw⟩ | ⟨u', rfl, hu'⟩
    · have hmem : a ∈ keys := by simp [hw]
      rw [hkeys, List.mem_map] at hmem
      obtain ⟨k, -, rfl⟩ := hmem
      exact absurd rfl (hgranted k)
    · refine ⟨u', rfl, ?_⟩
      rcases cons_in_append hu' with ⟨w, hw⟩ | ⟨x, -, hx⟩
      · exact hw ▸ List.prefix_append _ _
      · have hmem : a ∈ [Access.out s.entry.exitKey s.entry.port] := by simp [hx]
        exact absurd (List.mem_singleton.1 hmem) (hgranted _)
  intro hclosed
  obtain ⟨seen, hseen, hlt⟩ := h s.entry hs
  obtain ⟨n, hn, -⟩ := hclosed s.entry hs
  rw [Entry.mode_append, hseen, Entry.mode_append, hkeys, hes.opens s.entry hs seen hlt,
    Entry.mode_opened] at hn
  · cases hn
  · rintro b hb rfl
    exact hes.noExit s.entry hs (hbody _ (hu'.subset hb))

theorem Guards.of_bracketed (hes : Family es P granted) {entries : List Entry}
    (hentries : entries ⊆ es) {m : Io ℕ} (h : Bracketed P entries m) : Guards es granted m := by
  intro hw t hclosed
  obtain ⟨ss, htr, hpre, -, hbody⟩ := h hw t
  refine ⟨ss.flatMap Session.trace, htr, ?_⟩
  have hmem : ∀ s ∈ ss, s.entry ∈ es := fun s hs => hentries (hpre.subset (List.mem_map_of_mem hs))
  clear htr hpre
  induction ss generalizing t with
  | nil =>
    refine ⟨by rwa [List.flatMap_nil, List.append_nil], fun u a v hu => ?_⟩
    simp at hu
  | cons s ss ih =>
    obtain ⟨hs, hss⟩ := List.forall_mem_cons.1 hmem
    obtain ⟨hb, hbs⟩ := List.forall_mem_cons.1 hbody
    have hnext := hclosed.session hes hs hb
    obtain ⟨hend, hrest⟩ := ih (t ++ s.trace) hnext hbs hss
    rw [List.flatMap_cons]
    refine ⟨by rwa [List.append_assoc] at hend, fun u a v hu ha => ?_⟩
    rcases cons_in_append hu with ⟨w, hw⟩ | ⟨u', rfl, hu'⟩
    · exact session_opened hes hclosed hs hb hw ha
    · rw [← List.append_assoc]
      exact hrest u' a v hu' ha

/-- A run that the first refused access ends leaves all chips closed only if there is none. -/
theorem Guards.cut_iff {m : Io α} (h : Guards es granted m) (hes : AllClosed es []) (hw : Hardware) :
    AllClosed es ((m hw []).2.takeWhile granted) ↔ ∀ a ∈ (m hw []).2, granted a = true := by
  obtain ⟨body, hb, hclosed, hopen⟩ := h hw [] hes
  rw [hb, List.nil_append] at *
  constructor
  · intro hcut
    have hdrop : body.dropWhile granted = [] := by
      cases hd : body.dropWhile granted with
      | nil => rfl
      | cons a v =>
        have hbody : body = body.takeWhile granted ++ a :: v := by
          rw [← hd, List.takeWhile_append_dropWhile]
        have ha : granted a = false := by
          have := List.head?_dropWhile_not granted body
          rw [hd] at this
          simpa using this
        exact absurd hcut (hopen _ a v hbody ha)
    exact List.dropWhile_eq_nil_iff.1 hdrop
  · intro hall
    rwa [List.takeWhile_eq_self_iff.2 hall]

end Guards

end PortIo
