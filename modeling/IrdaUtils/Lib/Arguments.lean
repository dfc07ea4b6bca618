import Mathlib.Tactic

/-! Loops over the arguments of a command line, in which every argument stands alone or takes the
next one, and the items that such a loop reads. -/

namespace Arguments

variable {α ε σ ι β : Type*}

/-- What one argument does: the loop ends in front of it, the program ends, it stands alone, or
it takes the next argument. -/
inductive Turn (α ε σ : Type*) where
  | stop
  | fail (e : ε)
  | flag (f : σ → σ)
  | value (missing : ε) (f : σ → α → Except ε σ)

def loop (turn : α → Turn α ε σ) (s : σ) : List α → Except ε (σ × List α)
  | [] => .ok (s, [])
  | a :: rest =>
    match turn a with
    | .stop => .ok (s, a :: rest)
    | .fail e => .error e
    | .flag f => loop turn (f s) rest
    | .value missing f =>
      match rest with
      | [] => .error missing
      | v :: rest =>
        match f s v with
        | .error e => .error e
        | .ok s => loop turn s rest

/-! ### Items -/

/-- The items `ι` are what the loop reads: how each is spelled, and what it sets. -/
structure Describes (turn : α → Turn α ε σ) (Spelled : ι → List α → Prop) (set : σ → ι → σ) :
    Prop where
  flag : ∀ {a f}, turn a = .flag f → ∃ i, Spelled i [a] ∧ ∀ s, f s = set s i
  value : ∀ {a missing f}, turn a = .value missing f → ∀ {s v s'}, f s v = .ok s' →
    ∃ i, Spelled i [a, v] ∧ s' = set s i
  spelled : ∀ {i ws}, Spelled i ws →
    (∃ a f, ws = [a] ∧ turn a = .flag f ∧ ∀ s, f s = set s i) ∨
      ∃ a v missing f, ws = [a, v] ∧ turn a = .value missing f ∧ ∀ s, f s v = .ok (set s i)

def Spells (Spelled : ι → List α → Prop) (items : List ι) (args : List α) : Prop :=
  ∃ ws, List.Forall₂ Spelled items ws ∧ args = ws.flatten

def Stops (turn : α → Turn α ε σ) (rest : List α) : Prop := ∀ a ∈ rest.head?, turn a = .stop

theorem Spells.nil (Spelled : ι → List α → Prop) : Spells Spelled [] [] := ⟨[], .nil, rfl⟩

theorem Spells.cons {Spelled : ι → List α → Prop} {i : ι} {w : List α} (h : Spelled i w)
    {items : List ι} {args : List α} (hs : Spells Spelled items args) :
    Spells Spelled (i :: items) (w ++ args) := by
  obtain ⟨ws, hws, rfl⟩ := hs
  exact ⟨w :: ws, .cons h hws, rfl⟩

variable {turn : α → Turn α ε σ} {Spelled : ι → List α → Prop} {set : σ → ι → σ}

theorem Describes.sound (h : Describes turn Spelled set) {s s' : σ} {args rest : List α}
    (hl : loop turn s args = .ok (s', rest)) :
    Stops turn rest ∧ ∃ items front, Spells Spelled items front ∧ args = front ++ rest ∧
      s' = items.foldl set s := by
  fun_induction loop turn s args with
  | case1 s =>
    cases hl
    exact ⟨by simp [Stops], [], [], .nil _, rfl, rfl⟩
  | case2 s a args ht =>
    cases hl
    exact ⟨by simp [Stops, ht], [], [], .nil _, rfl, rfl⟩
  | case4 s a args f ht ih =>
    obtain ⟨i, hi, hf⟩ := h.flag ht
    obtain ⟨hstop, items, front, hs, rfl, rfl⟩ := ih hl
    exact ⟨hstop, i :: items, a :: front, hs.cons hi, rfl, by rw [List.foldl_cons, hf]⟩
  | case7 s a missing f ht v args s₁ hv ih =>
    obtain ⟨i, hi, rfl⟩ := h.value ht hv
    obtain ⟨hstop, items, front, hs, rfl, rfl⟩ := ih hl
    exact ⟨hstop, i :: items, a :: v :: front, hs.cons hi, rfl, rfl⟩
  | case3 | case5 | case6 => cases hl

theorem loop_stops {rest : List α} (h : Stops turn rest) (s : σ) :
    loop turn s rest = .ok (s, rest) := by
  cases rest with
  | nil => rfl
  | cons a rest => rw [loop, h a rfl]

theorem Describes.complete (h : Describes turn Spelled set) {items : List ι} {front : List α}
    (hs : Spells Spelled items front) {rest : List α} (hstop : Stops turn rest) (s : σ) :
    loop turn s (front ++ rest) = .ok (items.foldl set s, rest) := by
  obtain ⟨ws, hws, rfl⟩ := hs
  induction hws generalizing s with
  | nil => exact loop_stops hstop s
  | cons hi _ ih =>
    obtain ⟨a, f, rfl, ht, hf⟩ | ⟨a, v, missing, f, rfl, ht, hf⟩ := h.spelled hi
    · simp only [List.flatten_cons, List.cons_append, List.nil_append, loop, ht, hf, ih,
        List.foldl_cons]
    · simp only [List.flatten_cons, List.cons_append, List.nil_append, loop, ht, hf, ih,
        List.foldl_cons]

theorem Describes.loop_iff (h : Describes turn Spelled set) {s s' : σ} {args rest : List α} :
    loop turn s args = .ok (s', rest) ↔
      Stops turn rest ∧ ∃ items front, Spells Spelled items front ∧ args = front ++ rest ∧
        s' = items.foldl set s := by
  constructor
  · exact h.sound
  · rintro ⟨hstop, items, front, hs, rfl, rfl⟩
    exact h.complete hs hstop s

/-! ### The last item of a kind -/

def lastOf (val : ι → Option β) (items : List ι) (default : β) : β :=
  ((items.filterMap val).getLast?).getD default

theorem lastOf_cons (val : ι → Option β) (i : ι) (items : List ι) (default : β) :
    lastOf val (i :: items) default = lastOf val items ((val i).getD default) := by
  unfold lastOf
  cases hi : val i with
  | none => rw [List.filterMap_cons_none hi, Option.getD_none]
  | some b =>
    rw [List.filterMap_cons_some hi, List.getLast?_cons]
    rfl

theorem foldl_lastOf {p : σ → β} {val : ι → Option β}
    (h : ∀ s i, p (set s i) = (val i).getD (p s)) (items : List ι) (s : σ) :
    p (items.foldl set s) = lastOf val items (p s) := by
  induction items generalizing s with
  | nil => rfl
  | cons i items ih => rw [List.foldl_cons, ih, h, lastOf_cons]

theorem lastOf_map {γ : Type*} (f : β → γ) (val : ι → Option β) (items : List ι) (default : β) :
    lastOf (fun i => (val i).map f) items (f default) = f (lastOf val items default) := by
  induction items generalizing default with
  | nil => rfl
  | cons i items ih =>
    rw [lastOf_cons, lastOf_cons, ← ih]
    cases val i <;> rfl

/-- What one item brings about, and nothing takes back. -/
theorem foldl_mem_iff {P : σ → Prop} {i : ι} (h : ∀ s j, P (set s j) ↔ i = j ∨ P s)
    (items : List ι) (s : σ) : P (items.foldl set s) ↔ i ∈ items ∨ P s := by
  induction items generalizing s with
  | nil => simp
  | cons j items ih => rw [List.foldl_cons, ih, h, List.mem_cons, or_assoc, or_left_comm]

theorem foldl_flag [DecidableEq ι] {p : σ → Bool} {i : ι}
    (h : ∀ s j, p (set s j) = (decide (i = j) || p s)) (items : List ι) (s : σ) :
    p (items.foldl set s) = (decide (i ∈ items) || p s) := by
  have hset : ∀ s j, p (set s j) = true ↔ i = j ∨ p s = true := fun s j => by
    rw [h, Bool.or_eq_true, decide_eq_true_eq]
  have hmem := foldl_mem_iff (P := fun s => p s = true) hset items s
  rw [Bool.eq_iff_iff, hmem, Bool.or_eq_true, decide_eq_true_eq]

theorem foldl_count {p : σ → ℕ} {val : ι → Option β}
    (h : ∀ s i, p (set s i) = p s + (val i).toList.length) (items : List ι) (s : σ) :
    p (items.foldl set s) = p s + (items.filterMap val).length := by
  induction items generalizing s with
  | nil => rfl
  | cons i items ih =>
    rw [List.foldl_cons, ih, h, List.filterMap_cons]
    cases val i with
    | none => rfl
    | some b =>
      simp only [Option.toList_some, List.length_cons, List.length_nil]
      omega

end Arguments
