import IrdaUtils.Spec.Irda

/-! The command lines of `irda ias get`. Both loops over the arguments read items of which the
last of each kind counts, and a query is made for exactly the command lines that are spelled by
such items. -/

namespace Irda

open Arguments Decimal Smcinit

/-! ### Words of two letters -/

theorem starts_other {w w' : String} {a : Arg} (h : starts w a)
    (hlen : (ascii w).length = (ascii w').length) (hne : ascii w ≠ ascii w') : ¬ starts w' a :=
  fun h' => hne ((List.prefix_of_prefix_length_le h h' hlen.le).eq_of_length hlen)

theorem starts_not_dash {w : String} {a : Arg} (h : starts w a) (hne : ascii w ≠ [])
    (hdash : (ascii w).head? ≠ some (char '-')) : a.head? ≠ some (char '-') := by
  obtain ⟨t, rfl⟩ := h
  rwa [List.head?_append_of_ne_nil _ hne]

/-! ### The options -/

/-- What the options set one after the other. -/
def Options.set (o : Options) : Opt → Options
  | .dash => o
  | .debug => o
  | .column => o.setColumn
  | .noHeader => o.setNoHeader
  | .sep v => o.setSep v
  | .delay n => o.setDelay n
  | .count n => o.setCount n

theorem dash_word {a : Arg} {c : UInt8} {t : Arg} (h : a.head? = some (char '-'))
    (ht : a.tail = c :: t) : a = char '-' :: c :: t := by
  rw [← ht]
  exact List.eq_cons_of_mem_head? h

theorem numberOption_ok {set : Options → BitVec 32 → Options} {o o' : Options} {v : Arg}
    (h : numberOption set o v = .ok o') : ∃ n, number v = some n ∧ o' = set o n := by
  unfold numberOption at h
  cases hn : number v with
  | none =>
    rw [hn] at h
    cases h
  | some n =>
    rw [hn] at h
    cases h
    exact ⟨n, rfl, rfl⟩

theorem optionTurn_flag {a : Arg} {f : Options → Options} (h : optionTurn a = .flag f) :
    ∃ i, Opt.Spelled i [a] ∧ ∀ o, f o = o.set i := by
  unfold optionTurn at h
  split at h
  · cases h
  next hdash =>
  rw [not_not] at hdash
  split at h
  · next ht =>
    cases h
    refine ⟨.dash, ?_, fun o => rfl⟩
    rw [List.eq_cons_of_mem_head? hdash, ht]
    exact .dash
  next c t ht =>
  rw [dash_word hdash ht]
  split_ifs at h with hV hh hD hC hH
  · cases h
    exact ⟨.debug, hD ▸ .debug t, fun o => rfl⟩
  · cases h
    exact ⟨.column, hC ▸ .column t, fun o => rfl⟩
  · cases h
    exact ⟨.noHeader, hH ▸ .noHeader t, fun o => rfl⟩

theorem optionTurn_value {a : Arg} {e : Exit} {f : Options → Arg → Except Exit Options}
    (h : optionTurn a = .value e f) {o o' : Options} {v : Arg} (hv : f o v = .ok o') :
    ∃ i, Opt.Spelled i [a, v] ∧ o' = o.set i := by
  unfold optionTurn at h
  split at h
  · cases h
  next hdash =>
  rw [not_not] at hdash
  split at h
  · cases h
  next c t ht =>
  rw [dash_word hdash ht]
  split_ifs at h with hV hh hD hC hH hS hd hc
  · cases h
    cases hv
    exact ⟨.sep v, hS ▸ .sep t v, rfl⟩
  · cases h
    obtain ⟨n, hn, rfl⟩ := numberOption_ok hv
    exact ⟨.delay n, hd ▸ .delay t hn, rfl⟩
  · cases h
    obtain ⟨n, hn, rfl⟩ := numberOption_ok hv
    exact ⟨.count n, hc ▸ .count t hn, rfl⟩

theorem numberOption_number {set : Options → BitVec 32 → Options} {v : Arg} {n : BitVec 32}
    (h : number v = some n) (o : Options) : numberOption set o v = .ok (set o n) := by
  rw [numberOption, h]

theorem optionTurn_describes : Describes optionTurn Opt.Spelled Options.set where
  flag := optionTurn_flag
  value := fun h _ _ _ hv => optionTurn_value h hv
  spelled := by
    intro i ws h
    cases h with
    | dash => exact .inl ⟨_, _, rfl, rfl, fun o => rfl⟩
    | debug t => exact .inl ⟨_, _, rfl, rfl, fun o => rfl⟩
    | column t => exact .inl ⟨_, _, rfl, rfl, fun o => rfl⟩
    | noHeader t => exact .inl ⟨_, _, rfl, rfl, fun o => rfl⟩
    | sep t v => exact .inr ⟨_, _, _, _, rfl, rfl, fun o => rfl⟩
    | delay t hn => exact .inr ⟨_, _, _, _, rfl, rfl, numberOption_number hn⟩
    | count t hn => exact .inr ⟨_, _, _, _, rfl, rfl, numberOption_number hn⟩

theorem foldl_set (os : List Opt) : os.foldl Options.set .default = meantOptions os := by
  apply Options.ext
  · exact foldl_lastOf (fun s i => by cases i <;> rfl) os _
  · exact foldl_lastOf (fun s i => by cases i <;> rfl) os _
  · exact (foldl_flag (fun s i => by cases i <;> rfl) os _).trans (Bool.or_false _)
  · exact (foldl_flag (fun s i => by cases i <;> rfl) os _).trans (Bool.or_false _)
  · exact foldl_lastOf (fun s i => by cases i <;> rfl) os _

/-! ### The clauses -/

/-- What the clauses set one after the other. -/
def IasData.set (q : IasData) : Clause → IasData
  | .here => q.setLocal
  | .remote daddr => q.setRemote daddr
  | .ofClass name => q.setClass name
  | .attrib name => q.setAttrib name
  | .filename name => q.setFilename name

theorem remoteOption_ok {q q' : IasData} {v : Arg} (h : remoteOption q v = .ok q') :
    ∃ daddr, deviceAddress v = some daddr ∧ q' = q.setRemote daddr := by
  unfold remoteOption at h
  cases hd : deviceAddress v with
  | none =>
    rw [hd] at h
    cases h
  | some daddr =>
    rw [hd] at h
    cases h
    exact ⟨daddr, rfl, rfl⟩

theorem getTurn_flag {a : Arg} {f : IasData → IasData} (h : getTurn a = .flag f) :
    ∃ i, Clause.Spelled i [a] ∧ ∀ q, f q = q.set i := by
  unfold getTurn at h
  split_ifs at h with hlo
  cases h
  exact ⟨.here, .here hlo, fun q => rfl⟩

theorem getTurn_value {a : Arg} {e : Exit} {f : IasData → Arg → Except Exit IasData}
    (h : getTurn a = .value e f) {q q' : IasData} {v : Arg} (hv : f q v = .ok q') :
    ∃ i, Clause.Spelled i [a, v] ∧ q' = q.set i := by
  unfold getTurn at h
  split_ifs at h with hlo hre hcl hat hfi
  · cases h
    obtain ⟨daddr, hd, rfl⟩ := remoteOption_ok hv
    exact ⟨.remote daddr, .remote hre hd, rfl⟩
  · cases h
    cases hv
    exact ⟨.ofClass v, .ofClass hcl v, rfl⟩
  · cases h
    cases hv
    exact ⟨.attrib v, .attrib hat v, rfl⟩
  · cases h
    cases hv
    exact ⟨.filename v, .filename hfi v, rfl⟩

theorem remoteOption_deviceAddress {v : Arg} {daddr : BitVec 32}
    (h : deviceAddress v = some daddr) (q : IasData) :
    remoteOption q v = .ok (q.setRemote daddr) := by
  rw [remoteOption, h]

section
variable {a : Arg}

theorem getTurn_here (h : starts "lo" a) : getTurn a = .flag .setLocal := if_pos h

theorem getTurn_remote (h : starts "re" a) :
    getTurn a = .value ⟨255, .iriasNoComplete⟩ remoteOption := by
  rw [getTurn, if_neg (starts_other h (by decide) (by decide)), if_pos h]

theorem getTurn_ofClass (h : starts "cl" a) :
    getTurn a = .value ⟨255, .iriasNoComplete⟩ fun q v => .ok (q.setClass v) := by
  rw [getTurn, if_neg (starts_other h (by decide) (by decide)),
    if_neg (starts_other h (by decide) (by decide)), if_pos h]

theorem getTurn_attrib (h : starts "at" a) :
    getTurn a = .value ⟨255, .iriasNoComplete⟩ fun q v => .ok (q.setAttrib v) := by
  rw [getTurn, if_neg (starts_other h (by decide) (by decide)),
    if_neg (starts_other h (by decide) (by decide)),
    if_neg (starts_other h (by decide) (by decide)), if_pos h]

theorem getTurn_filename (h : starts "fi" a) :
    getTurn a = .value ⟨255, .iriasNoComplete⟩ fun q v => .ok (q.setFilename v) := by
  rw [getTurn, if_neg (starts_other h (by decide) (by decide)),
    if_neg (starts_other h (by decide) (by decide)),
    if_neg (starts_other h (by decide) (by decide)),
    if_neg (starts_other h (by decide) (by decide)), if_pos h]

end

theorem getTurn_describes : Describes getTurn Clause.Spelled IasData.set where
  flag := getTurn_flag
  value := fun h _ _ _ hv => getTurn_value h hv
  spelled := by
    intro i ws h
    cases h with
    | here h => exact .inl ⟨_, _, rfl, getTurn_here h, fun q => rfl⟩
    | remote h hv =>
      exact .inr ⟨_, _, _, _, rfl, getTurn_remote h, remoteOption_deviceAddress hv⟩
    | ofClass h v => exact .inr ⟨_, _, _, _, rfl, getTurn_ofClass h, fun q => rfl⟩
    | attrib h v => exact .inr ⟨_, _, _, _, rfl, getTurn_attrib h, fun q => rfl⟩
    | filename h v => exact .inr ⟨_, _, _, _, rfl, getTurn_filename h, fun q => rfl⟩

/-- Each of its arguments is taken or ends the program. -/
theorem getTurn_stops {rest : List Arg} : Stops getTurn rest ↔ rest = [] := by
  constructor
  · intro h
    cases rest with
    | nil => rfl
    | cons a rest =>
      have hstop := h a rfl
      unfold getTurn at hstop
      split_ifs at hstop
  · rintro rfl
    simp [Stops]

theorem foldl_data (cs : List Clause) : cs.foldl IasData.set .init = meantData cs := by
  apply IasData.ext
  · exact foldl_lastOf (fun s i => by cases i <;> rfl) cs _
  · exact foldl_lastOf (fun s i => by cases i <;> rfl) cs _
  · rw [meantData, ← lastOf_map (strncpy · IAS_EXPORT_CLASSNAME)]
    exact foldl_lastOf (fun s i => by cases i <;> rfl) cs _
  · rw [meantData, ← lastOf_map (strncpy · IAS_EXPORT_ATTRIBNAME)]
    exact foldl_lastOf (fun s i => by cases i <;> rfl) cs _
  · rw [meantData, ← lastOf_map (strncpy · PATH_MAX)]
    exact foldl_lastOf (fun s i => by cases i <;> rfl) cs _
  · exact (foldl_count (fun s i => by cases i <;> rfl) cs _).trans (Nat.zero_add _)
  · exact (foldl_count (fun s i => by cases i <;> rfl) cs _).trans (Nat.zero_add _)

/-! ### Command lines -/

theorem filterMap_length_ne_zero {ι β : Type*} {val : ι → Option β} {items : List ι} :
    (items.filterMap val).length ≠ 0 ↔ ∃ i ∈ items, val i ≠ none := by
  simp only [ne_eq, List.length_eq_zero_iff, List.filterMap_eq_nil_iff, not_forall, exists_prop]

theorem haveIasClass_ne_zero {cs : List Clause} :
    (meantData cs).haveIasClass ≠ 0 ↔ ∃ name, .ofClass name ∈ cs := by
  rw [meantData, filterMap_length_ne_zero]
  constructor
  · rintro ⟨i, hi, hne⟩
    cases i with
    | ofClass name => exact ⟨name, hi⟩
    | _ => exact absurd rfl hne
  · rintro ⟨name, hi⟩
    exact ⟨_, hi, Option.some_ne_none name⟩

theorem haveIasAttrib_ne_zero {cs : List Clause} :
    (meantData cs).haveIasAttrib ≠ 0 ↔ ∃ name, .attrib name ∈ cs := by
  rw [meantData, filterMap_length_ne_zero]
  constructor
  · rintro ⟨i, hi, hne⟩
    cases i with
    | attrib name => exact ⟨name, hi⟩
    | _ => exact absurd rfl hne
  · rintro ⟨name, hi⟩
    exact ⟨_, hi, Option.some_ne_none name⟩

theorem iriasGet_ok_iff {args : List Arg} {q : IasData} :
    iriasGet args = .ok q ↔ ∃ cs, Spells Clause.Spelled cs args ∧ (∃ name, .ofClass name ∈ cs) ∧
      (∃ name, .attrib name ∈ cs) ∧ q = meantData cs := by
  constructor
  · intro h
    unfold iriasGet at h
    split at h
    · cases h
    · next q' rest hl =>
      obtain ⟨hstop, cs, front, hs, rfl, rfl⟩ := getTurn_describes.sound hl
      rw [foldl_data] at h
      split_ifs at h with hc ha
      cases h
      rw [getTurn_stops.1 hstop, List.append_nil]
      exact ⟨cs, hs, haveIasClass_ne_zero.1 hc, haveIasAttrib_ne_zero.1 ha, rfl⟩
  · rintro ⟨cs, hs, hc, ha, rfl⟩
    have hl := getTurn_describes.complete hs (getTurn_stops.2 rfl) IasData.init
    rw [List.append_nil, foldl_data] at hl
    rw [iriasGet, hl]
    dsimp only
    rw [if_neg (haveIasClass_ne_zero.2 hc), if_neg (haveIasAttrib_ne_zero.2 ha)]

theorem iriasMain_get_iff {o o' : Options} {args : List Arg} {q : IasData} :
    iriasMain o args = .get o' q ↔ ∃ cmd rest, args = cmd :: rest ∧ starts "ge" cmd ∧
      iriasGet rest = .ok q ∧ o' = o := by
  constructor
  · intro h
    cases args with
    | nil => cases h
    | cons cmd rest =>
      rw [iriasMain] at h
      split_ifs at h with hhe hge
      split at h
      · cases h
      · next hq =>
        cases h
        exact ⟨cmd, rest, rfl, hge, hq, rfl⟩
  · rintro ⟨cmd, rest, rfl, hge, hq, rfl⟩
    rw [iriasMain, if_neg (starts_other hge (by decide) (by decide)), if_pos hge, hq]

theorem optionTurn_stop {a : Arg} : optionTurn a = .stop ↔ a.head? ≠ some (char '-') := by
  constructor
  · intro h hdash
    unfold optionTurn at h
    rw [if_neg (not_not.2 hdash)] at h
    split at h
    · cases h
    · split_ifs at h
  · exact fun h => if_pos h

theorem loop_options_iff {args : List Arg} {o : Options} {a : Arg} {rest : List Arg} :
    loop optionTurn .default args = .ok (o, a :: rest) ↔ a.head? ≠ some (char '-') ∧
      ∃ os front, Spells Opt.Spelled os front ∧ args = front ++ a :: rest ∧ o = meantOptions os := by
  have hstop : Stops optionTurn (a :: rest) ↔ a.head? ≠ some (char '-') := by
    rw [← optionTurn_stop]
    exact ⟨fun h => h a rfl, fun h b hb => Option.some.inj hb ▸ h⟩
  simp only [optionTurn_describes.loop_iff, hstop, foldl_set]

/-- A query is made for exactly the command lines that consist of options, `ias`, `get` and
clauses with a class and an attribute among them, and it is what the last ones of each kind
say. -/
theorem main_get_iff (args : List Arg) (o : Options) (q : IasData) :
    main args = .get o q ↔
      ∃ os opts obj cmd cs clauses, args = opts ++ obj :: cmd :: clauses ∧
        Spells Opt.Spelled os opts ∧ starts "ia" obj ∧ starts "ge" cmd ∧
        Spells Clause.Spelled cs clauses ∧ (∃ name, .ofClass name ∈ cs) ∧
        (∃ name, .attrib name ∈ cs) ∧ o = meantOptions os ∧ q = meantData cs := by
  constructor
  · intro h
    unfold main at h
    split at h
    · cases h
    split at h
    · cases h
    · cases h
    next o' obj rest hl =>
    obtain ⟨-, os, opts, hos, rfl, rfl⟩ := loop_options_iff.1 hl
    split_ifs at h with hhe hia
    obtain ⟨cmd, clauses, rfl, hge, hget, rfl⟩ := iriasMain_get_iff.1 h
    obtain ⟨cs, hcs, hclass, hattrib, rfl⟩ := iriasGet_ok_iff.1 hget
    exact ⟨os, opts, obj, cmd, cs, clauses, rfl, hos, hia, hge, hcs, hclass, hattrib, rfl, rfl⟩
  · rintro ⟨os, opts, obj, cmd, cs, clauses, rfl, hos, hia, hge, hcs, hclass, hattrib, rfl, rfl⟩
    have hdash := starts_not_dash hia (by decide) (by decide)
    have hget := iriasGet_ok_iff.2 ⟨cs, hcs, hclass, hattrib, rfl⟩
    rw [main, if_neg (by simp), loop_options_iff.2 ⟨hdash, os, opts, hos, rfl, rfl⟩]
    dsimp only
    rw [if_neg (starts_other hia (by decide) (by decide)), if_pos hia]
    exact iriasMain_get_iff.2 ⟨cmd, clauses, rfl, hge, hget, rfl⟩

end Irda
