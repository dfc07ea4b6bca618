import IrdaUtils.Lib.Runs
import IrdaUtils.Proofs.Devlist

/-! The instances of `get_module_devices`, under any order of their steps. Only the original
process gets past a `fork` into the loop again, so that all others are its children, one for
each new name but the first, in the order of the list. -/

namespace Irattach

open Decimal Stores Memory

/-- The names among the first `i` that were not there before. -/
def newNames (before after : List (List UInt8)) (i : ℕ) : List (List UInt8) :=
  (after.take i).filter (· ∉ before)

/-- A child that manages `name`, or will. -/
def ChildOf (after : List (List UInt8)) (c : Instance) (name : List UInt8) : Prop :=
  c.parent = some 0 ∧
    ((∃ j, c.pc = .child j ∧ after[j]? = some name) ∨ (c.pc = .returned ∧ c.device = name))

/-- The original process has looked at `i` names. -/
structure Looked (before after : List (List UInt8)) (i : ℕ) (p : Instance) (cs : List Instance) :
    Prop where
  parent : p.parent = none
  pc : (p.pc = .loop i ∧ i ≤ after.length) ∨ (p.pc = .returned ∧ i = after.length)
  none : newNames before after i = [] → ¬ p.firstone ≥ 0
  first : ∀ n ns, newNames before after i = n :: ns → p.firstone ≥ 0 ∧ p.device = n
  kids : List.Forall₂ (ChildOf after) cs (newNames before after i).tail

def Managed (before after : List (List UInt8)) (s : List Instance) : Prop :=
  ∃ i p cs, s = p :: cs ∧ Looked before after i p cs

/-! ### Names -/

theorem searchBefore_eq_length_iff (name : List UInt8) (before : List (List UInt8)) :
    searchBefore name before = before.length ↔ name ∉ before := by
  induction before with
  | nil => simp [searchBefore]
  | cons b bs ih =>
    rw [searchBefore, List.length_cons, List.mem_cons, not_or]
    by_cases hb : b = name
    · simp [hb]
    · rw [if_neg hb, Nat.add_right_cancel_iff, ih]
      exact ⟨fun h => ⟨fun e => hb e.symm, h⟩, fun h => h.2⟩

theorem newNames_known {before after : List (List UInt8)} {i : ℕ} (h : i < after.length)
    (hk : after[i] ∈ before) : newNames before after (i + 1) = newNames before after i := by
  rw [newNames, List.take_succ_eq_append_getElem h, List.filter_append]
  simp [newNames, hk]

theorem newNames_new {before after : List (List UInt8)} {i : ℕ} (h : i < after.length)
    (hk : after[i] ∉ before) :
    newNames before after (i + 1) = newNames before after i ++ [after[i]] := by
  rw [newNames, List.take_succ_eq_append_getElem h, List.filter_append]
  simp [newNames, hk]

/-! ### Steps of the original process -/

section Steps

variable {before after : List (List UInt8)} {i : ℕ} {p : Instance} {cs : List Instance}

theorem looked_known (h : Looked before after i p cs) (hi : i < after.length)
    (hk : after[i] ∈ before) :
    Looked before after (i + 1) { p with pc := .loop (i + 1) } cs := by
  have hn := newNames_known hi hk
  exact ⟨h.parent, .inl ⟨rfl, hi⟩, by rw [hn]; exact h.none, by rw [hn]; exact h.first, by rw [hn]; exact h.kids⟩

theorem looked_first (h : Looked before after i p cs) (hi : i < after.length)
    (hk : after[i] ∉ before) (hf : ¬ p.firstone ≥ 0) :
    Looked before after (i + 1) { p with pc := .loop (i + 1), firstone := i, device := after[i] } cs := by
  have hnil : newNames before after i = [] := by
    cases hn : newNames before after i with
    | nil => rfl
    | cons n ns => exact absurd (h.first n ns hn).1 hf
  have hnew : newNames before after (i + 1) = [after[i]] := by
    rw [newNames_new hi hk, hnil, List.nil_append]
  have hcs : cs = [] := by
    have hkids := h.kids
    rw [hnil] at hkids
    exact List.forall₂_nil_right_iff.1 hkids
  refine ⟨h.parent, .inl ⟨rfl, hi⟩, ?_, ?_, ?_⟩
  · rw [hnew]
    intro e
    cases e
  · intro n ns e
    rw [hnew] at e
    exact ⟨Int.natCast_nonneg i, (List.cons.inj e).1⟩
  · rw [hnew, hcs]
    exact .nil

theorem looked_fork (h : Looked before after i p cs) (hi : i < after.length)
    (hk : after[i] ∉ before) (hf : p.firstone ≥ 0) :
    Looked before after (i + 1) { p with pc := .loop (i + 1) }
      (cs ++ [{ p with parent := some 0, pc := .child i }]) := by
  obtain ⟨n, ns, hn⟩ : ∃ n ns, newNames before after i = n :: ns :=
    List.exists_cons_of_ne_nil fun e => h.none e hf
  have hnew : newNames before after (i + 1) = n :: (ns ++ [after[i]]) := by
    rw [newNames_new hi hk, hn, List.cons_append]
  have hkids := h.kids
  rw [hn, List.tail_cons] at hkids
  refine ⟨h.parent, .inl ⟨rfl, hi⟩, ?_, ?_, ?_⟩
  · rw [hnew]
    intro e
    cases e
  · intro n' ns' e
    rw [hnew] at e
    obtain rfl := (List.cons.inj e).1
    exact h.first n ns hn
  · rw [hnew, List.tail_cons]
    refine List.rel_append hkids (.cons ?_ .nil)
    exact ⟨rfl, .inl ⟨i, rfl, List.getElem?_eq_getElem hi⟩⟩

theorem looked_done (h : Looked before after i p cs) (hi : ¬ i < after.length) :
    Looked before after i { p with pc := .returned } cs := by
  have hlen : i = after.length := by
    rcases h.pc with ⟨-, hle⟩ | ⟨-, e⟩
    · omega
    · exact e
  exact ⟨h.parent, .inr ⟨rfl, hlen⟩, h.none, h.first, h.kids⟩

/-! ### Steps of a child -/

/-- A child that takes a step has been forked for a name and returns with it. -/
theorem kids_set {names : List (List UInt8)} (h : List.Forall₂ (ChildOf after) cs names) {k j : ℕ}
    {c : Instance} (hc : cs[k]? = some c) (hpc : c.pc = .child j) (hj : j < after.length) :
    List.Forall₂ (ChildOf after) (cs.set k { c with pc := .returned, device := after[j] }) names := by
  induction h generalizing k with
  | nil => simp at hc
  | cons hcn hrest ih =>
    cases k with
    | zero =>
      obtain rfl := Option.some.inj hc
      refine .cons ?_ hrest
      rcases hcn with ⟨hp, ⟨j', e, hn⟩ | ⟨e, -⟩⟩
      · rw [hpc] at e
        obtain rfl := Pc.child.inj e
        rw [List.getElem?_eq_getElem hj] at hn
        exact ⟨hp, .inr ⟨rfl, Option.some.inj hn⟩⟩
      · rw [hpc] at e
        cases e
    | succ k => exact .cons hcn (ih hc)

theorem kids_mem {names : List (List UInt8)} (h : List.Forall₂ (ChildOf after) cs names) :
    ∀ c ∈ cs, ∃ name, ChildOf after c name := by
  induction h with
  | nil => intro c hc; cases hc
  | cons hcn _ ih =>
    intro c hc
    rcases List.mem_cons.1 hc with rfl | hc
    · exact ⟨_, hcn⟩
    · exact ih c hc

theorem kids_not_loop {names : List (List UInt8)} (h : List.Forall₂ (ChildOf after) cs names)
    {c : Instance} (hc : c ∈ cs) (j : ℕ) : c.pc ≠ .loop j := by
  intro hpc
  obtain ⟨name, -, ⟨j', e, -⟩ | ⟨e, -⟩⟩ := kids_mem h c hc
  · rw [hpc] at e
    cases e
  · rw [hpc] at e
    cases e

/-! ### Runs -/

theorem managed_start (device : List UInt8) : Managed before after [start device] := by
  have hnil : newNames before after 0 = [] := by simp [newNames]
  refine ⟨0, start device, [], rfl, rfl, .inl ⟨rfl, Nat.zero_le _⟩, ?_, ?_, ?_⟩
  · intro _ h
    exact absurd h (by decide : ¬ (-1 : ℤ) ≥ 0)
  · intro n ns e
    rw [hnil] at e
    cases e
  · rw [hnil]
    exact .nil

/-- An instance in the loop is the original process. -/
theorem Looked.of_loop (hl : Looked before after i p cs) {k j : ℕ} {q : Instance}
    (hq : (p :: cs)[k]? = some q) (hpc : q.pc = .loop j) : k = 0 ∧ q = p ∧ j = i := by
  cases k with
  | zero =>
    obtain rfl := Option.some.inj hq
    rcases hl.pc with ⟨e, -⟩ | ⟨e, -⟩
    · rw [hpc] at e
      exact ⟨rfl, rfl, Pc.loop.inj e⟩
    · rw [hpc] at e
      cases e
  | succ k => exact absurd hpc (kids_not_loop hl.kids (List.mem_of_getElem? hq) j)

theorem managed_step {s s' : List Instance} (hm : Managed before after s) (h : Step before after s s') :
    Managed before after s' := by
  obtain ⟨i, p, cs, rfl, hl⟩ := hm
  cases h with
  | known hj hq hpc hs =>
    obtain ⟨rfl, rfl, rfl⟩ := hl.of_loop hq hpc
    rw [Ne, searchBefore_eq_length_iff, not_not] at hs
    exact ⟨_, _, cs, rfl, looked_known hl hj hs⟩
  | first hj hq hpc hs hf =>
    obtain ⟨rfl, rfl, rfl⟩ := hl.of_loop hq hpc
    rw [searchBefore_eq_length_iff] at hs
    exact ⟨_, _, cs, rfl, looked_first hl hj hs hf⟩
  | fork hj hq hpc hs hf =>
    obtain ⟨rfl, rfl, rfl⟩ := hl.of_loop hq hpc
    rw [searchBefore_eq_length_iff] at hs
    exact ⟨_, _, _, rfl, looked_fork hl hj hs hf⟩
  | @child k q j hj hq hpc =>
    cases k with
    | zero =>
      obtain rfl := Option.some.inj hq
      rcases hl.pc with ⟨e, -⟩ | ⟨e, -⟩
      · rw [hpc] at e
        cases e
      · rw [hpc] at e
        cases e
    | succ k =>
      exact ⟨i, p, _, rfl, hl.parent, hl.pc, hl.none, hl.first, kids_set hl.kids hq hpc hj⟩
  | done hq hpc hj =>
    obtain ⟨rfl, rfl, rfl⟩ := hl.of_loop hq hpc
    exact ⟨_, _, cs, rfl, looked_done hl hj⟩

/-- An instance that has not returned can take a step. -/
theorem managed_progress {s : List Instance} (hm : Managed before after s) :
    (∃ s', Step before after s s') ∨ ∀ p ∈ s, p.pc = .returned := by
  obtain ⟨i, p, cs, rfl, hl⟩ := hm
  by_cases hall : ∀ q ∈ p :: cs, q.pc = .returned
  · exact .inr hall
  refine .inl ?_
  push Not at hall
  obtain ⟨q, hq, hpc⟩ := hall
  obtain ⟨k, hk⟩ := List.mem_iff_getElem?.1 hq
  cases hq' : q.pc with
  | returned => exact absurd hq' hpc
  | child j =>
    have hj : j < after.length := by
      rcases List.mem_cons.1 hq with rfl | hmem
      · rcases hl.pc with ⟨e, -⟩ | ⟨e, -⟩
        · rw [hq'] at e
          cases e
        · exact absurd e hpc
      · obtain ⟨name, -, ⟨j', e, hn⟩ | ⟨e, -⟩⟩ := kids_mem hl.kids q hmem
        · rw [hq'] at e
          obtain rfl := Pc.child.inj e
          exact (List.getElem?_eq_some_iff.1 hn).1
        · exact absurd e hpc
    exact ⟨_, .child hj hk hq'⟩
  | loop j =>
    by_cases hj : j < after.length
    · by_cases hs : searchBefore after[j] before = before.length
      · by_cases hf : q.firstone ≥ 0
        · exact ⟨_, .fork hj hk hq' hs hf⟩
        · exact ⟨_, .first hj hk hq' hs hf⟩
      · exact ⟨_, .known hj hk hq' hs⟩
    · exact ⟨_, .done hk hq' hj⟩

/-- When all have returned, the instances have the new names, in the order of the list. -/
theorem managed_finished {s : List Instance} (hm : Managed before after s)
    (hnew : after.filter (· ∉ before) ≠ []) (hall : ∀ p ∈ s, p.pc = .returned) :
    ∃ p cs, s = p :: cs ∧ p.parent = none ∧ (∀ c ∈ cs, c.parent = some 0) ∧
      s.map Instance.device = after.filter (· ∉ before) := by
  obtain ⟨i, p, cs, rfl, hl⟩ := hm
  have hi : i = after.length := by
    rcases hl.pc with ⟨e, -⟩ | ⟨-, e⟩
    · rw [hall p (by simp)] at e
      cases e
    · exact e
  have hnames : newNames before after i = after.filter (· ∉ before) := by
    rw [newNames, hi, List.take_length]
  obtain ⟨n, ns, hn⟩ := List.exists_cons_of_ne_nil hnew
  have hkids := hl.kids
  rw [hnames, hn, List.tail_cons] at hkids
  have hdev : cs.map Instance.device = ns := by
    have hcs : ∀ c ∈ cs, c.pc = .returned := fun c hc => hall c (by simp [hc])
    clear hall hl hnames hn
    induction hkids with
    | nil => rfl
    | cons hcn _ ih =>
      rcases hcn.2 with ⟨j, e, -⟩ | ⟨-, e⟩
      · rw [hcs _ (by simp)] at e
        cases e
      · rw [List.map_cons, e, ih fun c hc => hcs c (by simp [hc])]
  refine ⟨p, cs, rfl, hl.parent, ?_, ?_⟩
  · intro c hc
    obtain ⟨name, hcn⟩ := kids_mem hl.kids c hc
    exact hcn.1
  · rw [List.map_cons, hdev, (hl.first n ns (hnames.trans hn)).2, hn]

end Steps

/-! ### The end of a run -/

def Pc.rank (n : ℕ) : Pc → ℕ
  | .loop i => 2 * (n - i) + 1
  | .child _ => 1
  | .returned => 0

/-- The steps that are left, at most. -/
def stepsLeft (n : ℕ) (s : List Instance) : ℕ := (s.map fun p => p.pc.rank n).sum

theorem stepsLeft_set (n : ℕ) {p : Instance} (q : Instance) :
    ∀ {s : List Instance} {k : ℕ}, s[k]? = some p →
      stepsLeft n (s.set k q) + p.pc.rank n = stepsLeft n s + q.pc.rank n := by
  intro s
  induction s with
  | nil => intro k h; simp at h
  | cons a s ih =>
    intro k h
    cases k with
    | zero =>
      obtain rfl := Option.some.inj h
      simp only [stepsLeft, List.set_cons_zero, List.map_cons, List.sum_cons]
      omega
    | succ k =>
      have hk := ih h
      simp only [stepsLeft, List.set_cons_succ, List.map_cons, List.sum_cons] at hk ⊢
      omega

theorem stepsLeft_step {before after : List (List UInt8)} {s s' : List Instance}
    (h : Step before after s s') : stepsLeft after.length s' < stepsLeft after.length s := by
  cases h with
  | @known k p i hi hp hpc _ =>
    have h := stepsLeft_set after.length { p with pc := .loop (i + 1) } hp
    simp only [hpc, Pc.rank] at h
    omega
  | @first k p i hi hp hpc _ _ =>
    have h := stepsLeft_set after.length
      { p with pc := .loop (i + 1), firstone := i, device := after[i] } hp
    simp only [hpc, Pc.rank] at h
    omega
  | @fork k p i hi hp hpc _ _ =>
    have h := stepsLeft_set after.length { p with pc := .loop (i + 1) } hp
    simp only [hpc, Pc.rank] at h
    simp only [stepsLeft, List.map_append, List.sum_append, List.map_singleton, List.sum_singleton,
      Pc.rank] at h ⊢
    omega
  | @child k p i hi hp hpc =>
    have h := stepsLeft_set after.length { p with pc := .returned, device := after[i] } hp
    simp only [hpc, Pc.rank] at h
    omega
  | @done k p i hp hpc _ =>
    have h := stepsLeft_set after.length { p with pc := .returned } hp
    simp only [hpc, Pc.rank] at h
    omega

/-! ### The two lists -/

theorem row_rowsLog {names : List (List UInt8)} (m : Mem)
    (hnames : ∀ n ∈ names, n.length < rowSize ∧ ∀ b ∈ n, b ≠ 0) {i : ℕ} (h : i < names.length) :
    row (play m (rowsLog 0 names)) i = names[i] := by
  obtain ⟨hlen, hbytes⟩ := hnames names[i] (List.getElem_mem h)
  have hload := load_rowsLog names 0 m (fun n hn => (hnames n hn).1) i h
  rw [Nat.zero_add] at hload
  have hpos : ∀ b ∈ names[i], (decide (b ≠ 0)) = true := fun b hb => by simpa using hbytes b hb
  have hsplit : rowSize = (names[i].length + 1) + (rowSize - (names[i].length + 1)) := by omega
  rw [row, hsplit, load_add, ← hsplit, hload, cstr, List.append_assoc,
    List.takeWhile_append_of_pos hpos, List.singleton_append, List.takeWhile_cons_of_neg (by simp),
    List.append_nil]

/-- The rows of an array that has room for all names are the names. -/
theorem rows_getDevlist {s : List UInt8} (hshort : ∀ l ∈ textLines s, l.length < 1023) {maxnames : ℕ}
    (hroom : (devNames rowSize s).length ≤ maxnames) (m : Mem) :
    (getDevlist (some s) rowSize maxnames).1 = (devNames rowSize s).length ∧
      (List.range (devNames rowSize s).length).map
        (row (play m (getDevlist (some s) rowSize maxnames).2)) = devNames rowSize s := by
  rw [getDevlist_fit hshort hroom]
  refine ⟨rfl, List.ext_getElem (by simp) fun i h1 h2 => ?_⟩
  rw [List.getElem_map, List.getElem_range]
  exact row_rowsLog m (fun n hn => devNames_bytes hn) h2

theorem moduleNames_ok {b a : List UInt8} (hb : ∀ l ∈ textLines b, l.length < 1023)
    (ha : ∀ l ∈ textLines a, l.length < 1023) (hb10 : (devNames rowSize b).length ≤ 10)
    (ha15 : (devNames rowSize a).length ≤ 15) (hne : devNames rowSize a ≠ []) (m m' : Mem) :
    moduleNames (some b) true (some a) m m' = .ok (devNames rowSize b, devNames rowSize a) := by
  obtain ⟨hb1, hb2⟩ := rows_getDevlist hb hb10 m
  obtain ⟨ha1, ha2⟩ := rows_getDevlist ha ha15 m'
  have hpos : 0 < (devNames rowSize a).length := List.length_pos_iff.2 hne
  simp only [moduleNames, hb1, ha1, Int.toNat_natCast, hb2, ha2]
  rw [if_neg (by omega), if_neg (by decide), if_neg (by omega)]

/-- The lists before and after are read as they are. From there every run comes to an end, in
which the original process and its children have the new names, each one of them, in the order
of the list. -/
theorem interfaces_managed_once (before after : List (List UInt8)) (hb10 : before.length ≤ 10)
    (ha : after.Nodup) (ha15 : after.length ≤ 15) (hnew : ∃ n ∈ after, n ∉ before)
    (device : List UInt8) :
    (∀ b a m m', (∀ l ∈ textLines b, l.length < 1023) → (∀ l ∈ textLines a, l.length < 1023) →
      devNames rowSize b = before → devNames rowSize a = after →
      moduleNames (some b) true (some a) m m' = .ok (before, after)) ∧
    (∀ s, Relation.ReflTransGen (Step before after) [start device] s →
      ((∃ s', Step before after s s') ∨ ∀ p ∈ s, p.pc = .returned) ∧
      ((∀ p ∈ s, p.pc = .returned) →
        (∃ p cs, s = p :: cs ∧ p.parent = none ∧ ∀ c ∈ cs, c.parent = some 0) ∧
        s.map Instance.device = after.filter (· ∉ before) ∧ (s.map Instance.device).Nodup)) ∧
    ∀ ss, List.IsChain (Step before after) ([start device] :: ss) → ss.length ≤ 2 * after.length + 1 := by
  obtain ⟨n, hn, hnb⟩ := hnew
  have hne : after.filter (· ∉ before) ≠ [] :=
    List.ne_nil_of_mem (List.mem_filter.2 ⟨hn, by simpa using hnb⟩)
  refine ⟨?_, fun s hr => ?_, fun ss hc => ?_⟩
  · rintro b a m m' hb ha' rfl rfl
    exact moduleNames_ok hb ha' hb10 ha15 (List.ne_nil_of_mem hn) m m'
  · have hm : Managed before after s :=
      Runs.reachable_inv (Managed before after) (fun _ _ hm hs => managed_step hm hs) (managed_start device) hr
    refine ⟨managed_progress hm, fun hall => ?_⟩
    obtain ⟨p, cs, hs, hparent, hkids, hdev⟩ := managed_finished hm hne hall
    exact ⟨⟨p, cs, hs, hparent, hkids⟩, hdev, by rw [hdev]; exact ha.filter _⟩
  · have h := Runs.chain_length_le (stepsLeft after.length) (fun _ _ hs => stepsLeft_step hs) ss _ hc
    have hstart : stepsLeft after.length [start device] = 2 * after.length + 1 := by
      simp [stepsLeft, start, Pc.rank]
    rwa [hstart] at h

/-- A module that brings two interfaces to the one that was there. -/
def oldNames : List (List UInt8) := [ascii "irda0"]
def allNames : List (List UInt8) := [ascii "irda0", ascii "irda1", ascii "irda2"]

theorem interfaces_managed_two :
    allNames.filter (· ∉ oldNames) = [ascii "irda1", ascii "irda2"] ∧
      ∀ s, Relation.ReflTransGen (Step oldNames allNames) [start (ascii "smsc-ircc2")] s →
        (∀ p ∈ s, p.pc = .returned) → s.map Instance.device = allNames.filter (· ∉ oldNames) := by
  refine ⟨by decide, fun s hr hall => ?_⟩
  have h := (interfaces_managed_once oldNames allNames (by decide) (by decide) (by decide)
    ⟨ascii "irda1", by decide, by decide⟩ (ascii "smsc-ircc2")).2.1 s hr
  exact (h.2 hall).2.1

end Irattach
