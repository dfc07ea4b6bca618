import Mathlib.Data.List.TakeWhile
import IrdaUtils.Spec.Devlist

/-! The names that `get_devlist` finds. It tests its count behind the write of a row, against a
bound that the count may reach, so that the row behind the last is written once there is a
name too many. -/

namespace Irattach

open Decimal Stores Memory

/-! ### The file -/

/-- The lines of a text, without their ends; the last one may lack it. -/
def textLines : List UInt8 → List (List UInt8)
  | [] => []
  | b :: s =>
    if b = 0x0a then [] :: textLines s
    else
      match textLines s with
      | [] => [[b]]
      | l :: ls => (b :: l) :: ls

/-- The name in a line: behind leading white space it starts with `irda` and goes up to a
colon, in less than `maxchars` bytes. -/
def devName (maxchars : ℕ) (line : List UInt8) : Option (List UInt8) :=
  let text := (cstr line).dropWhile isSpace
  let name := text.takeWhile (· ≠ 0x3a)
  if ascii "irda" <+: text ∧ 0x3a ∈ text ∧ name.length < maxchars then some name else none

/-- The names in the lines behind the header. -/
def devNames (maxchars : ℕ) (s : List UInt8) : List (List UInt8) :=
  ((textLines s).drop 2).filterMap (devName maxchars)

theorem textLines_last {s : List UInt8} (h : 0x0a ∉ s) (hne : s ≠ []) : textLines s = [s] := by
  induction s with
  | nil => exact absurd rfl hne
  | cons b s ih =>
    have hb : b ≠ 0x0a := (List.ne_of_not_mem_cons h).symm
    rw [textLines, if_neg hb]
    cases s with
    | nil => rfl
    | cons c s => rw [ih (List.not_mem_of_not_mem_cons h) (by simp)]

theorem textLines_cons {l : List UInt8} (h : 0x0a ∉ l) (s : List UInt8) :
    textLines (l ++ 0x0a :: s) = l :: textLines s := by
  induction l with
  | nil =>
    rw [List.nil_append, textLines, if_pos rfl]
  | cons b l ih =>
    have hb : b ≠ 0x0a := (List.ne_of_not_mem_cons h).symm
    rw [List.cons_append, textLines, if_neg hb, ih (List.not_mem_of_not_mem_cons h)]

theorem readLine_last {s : List UInt8} (h : 0x0a ∉ s) : ∀ n, s.length ≤ n → readLine n s = (s, []) := by
  induction s with
  | nil =>
    intro n _
    cases n <;> rfl
  | cons b s ih =>
    intro n hn
    have hb : b ≠ 0x0a := (List.ne_of_not_mem_cons h).symm
    cases n with
    | zero => simp at hn
    | succ n =>
      rw [readLine, if_neg hb, ih (List.not_mem_of_not_mem_cons h) n (by simpa using hn)]

theorem readLine_cons {l : List UInt8} (h : 0x0a ∉ l) (s : List UInt8) :
    ∀ n, l.length < n → readLine n (l ++ 0x0a :: s) = (l ++ [0x0a], s) := by
  induction l with
  | nil =>
    intro n hn
    cases n with
    | zero => simp at hn
    | succ n => rw [List.nil_append, readLine, if_pos rfl]; rfl
  | cons b l ih =>
    intro n hn
    have hb : b ≠ 0x0a := (List.ne_of_not_mem_cons h).symm
    cases n with
    | zero => simp at hn
    | succ n =>
      rw [List.cons_append, readLine, if_neg hb, ih (List.not_mem_of_not_mem_cons h) n (by simpa using hn)]
      rfl

/-- A buffer behind `fgets` holds the line, mostly with its end. -/
def Buffers (buff line : List UInt8) : Prop := 0x0a ∉ line ∧ (buff = line ∨ buff = line ++ [0x0a])

theorem fgetsAll_lines : ∀ (k : ℕ) (s : List UInt8), s.length = k →
    (∀ l ∈ textLines s, l.length < 1023) → List.Forall₂ Buffers (fgetsAll 1022 s) (textLines s) := by
  intro k
  induction k using Nat.strong_induction_on with
  | _ k ih =>
    intro s hk hshort
    cases hs : s with
    | nil =>
      rw [fgetsAll]
      exact .nil
    | cons b t =>
      have hne : s ≠ [] := by simp [hs]
      have hall : fgetsAll 1022 s = (readLine 1023 s).1 :: fgetsAll 1022 (readLine 1023 s).2 := by
        rw [hs, fgetsAll]
      rw [← hs, hall]
      by_cases hnl : 0x0a ∈ s
      · obtain ⟨l, rest, e, hl⟩ := List.eq_append_cons_of_mem hnl
        rw [e, textLines_cons hl] at hshort ⊢
        have hlen : l.length < 1023 := hshort l (by simp)
        rw [readLine_cons hl rest 1023 hlen]
        refine .cons ⟨hl, .inr rfl⟩ (ih rest.length ?_ rest rfl fun l' h' => hshort l' (by simp [h']))
        rw [← hk, e, List.length_append, List.length_cons]
        omega
      · rw [textLines_last hnl hne] at hshort ⊢
        have hlen : s.length < 1023 := hshort s (by simp)
        rw [readLine_last hnl 1023 (by omega)]
        refine .cons ⟨hnl, .inl rfl⟩ ?_
        rw [fgetsAll]
        exact .nil

/-! ### The name in a buffer -/

/-- The name in a text whose white space is gone. -/
def textName (maxchars : ℕ) (text : List UInt8) : Option (List UInt8) :=
  let name := text.takeWhile (· ≠ 0x3a)
  if ascii "irda" <+: text ∧ 0x3a ∈ text ∧ name.length < maxchars then some name else none

theorem devName_eq (maxchars : ℕ) (line : List UInt8) :
    devName maxchars line = textName maxchars ((cstr line).dropWhile isSpace) := rfl

theorem getIrdevname_eq (nsize : ℕ) (buf : List UInt8) :
    getIrdevname nsize buf = textName nsize ((cstr buf).dropWhile isSpace) := by
  simp only [getIrdevname, textName]
  generalize (cstr buf).dropWhile isSpace = text
  have hpre : ascii "irda" <+: text ↔ text.take 4 = ascii "irda" := by
    rw [List.prefix_iff_eq_take]
    exact eq_comm
  by_cases h1 : text.take 4 = ascii "irda"
  · by_cases h2 : 0x3a ∈ text
    · by_cases h3 : (text.takeWhile (· ≠ 0x3a)).length < nsize
      · have h3' : ¬ (text.takeWhile (· ≠ 0x3a)).length + 1 > nsize := by omega
        rw [if_neg (by simp [h1]), if_neg (by simp only [h2, not_true, false_or]; exact h3'),
          if_pos ⟨hpre.2 h1, h2, h3⟩]
      · have h3' : (text.takeWhile (· ≠ 0x3a)).length + 1 > nsize := by omega
        rw [if_neg (by simp [h1]), if_pos (.inr h3'), if_neg fun h => h3 h.2.2]
    · rw [if_neg (by simp [h1]), if_pos (.inl h2), if_neg (by simp [h2])]
  · rw [if_pos h1, if_neg (by simp [hpre, h1])]

/-- The end of the line, behind other text. -/
theorem textName_newline (maxchars : ℕ) (text : List UInt8) :
    textName maxchars (text ++ [0x0a]) = textName maxchars text := by
  have hpre : ascii "irda" <+: text ++ [0x0a] ↔ ascii "irda" <+: text := by
    constructor
    · intro h
      rcases List.prefix_concat_iff.1 h with e | h
      · have hl := congrArg List.getLast? e
        rw [List.getLast?_concat] at hl
        exact absurd hl (by decide)
      · exact h
    · intro h
      exact h.trans (List.prefix_append _ _)
  have hmem : 0x3a ∈ text ++ [0x0a] ↔ 0x3a ∈ text := by simp
  unfold textName
  by_cases hc : 0x3a ∈ text
  · have htake : (text ++ [0x0a]).takeWhile (· ≠ 0x3a) = text.takeWhile (· ≠ 0x3a) := by
      obtain ⟨l, rest, rfl, hl⟩ := List.eq_append_cons_of_mem hc
      have hpos : ∀ b ∈ l, (decide (b ≠ 0x3a)) = true := by
        intro b hb
        have hne : b ≠ 0x3a := by
          rintro rfl
          exact hl hb
        simpa using hne
      rw [List.append_assoc, List.cons_append, List.takeWhile_append_of_pos hpos,
        List.takeWhile_append_of_pos hpos, List.takeWhile_cons_of_neg (by simp),
        List.takeWhile_cons_of_neg (by simp)]
    simp only [hpre, hmem, htake]
  · simp only [hmem, hc, false_and, and_false, if_false]

theorem textName_nil (maxchars : ℕ) : textName maxchars [] = none := by
  rw [textName, if_neg (by simp)]

theorem getIrdevname_buffer {buff line : List UInt8} (h : Buffers buff line) (maxchars : ℕ) :
    getIrdevname maxchars buff = devName maxchars line := by
  rw [getIrdevname_eq, devName_eq]
  obtain ⟨-, rfl | rfl⟩ := h
  · rfl
  · rw [cstr, List.takeWhile_append]
    split_ifs with hlen
    · -- no zero byte: the end of the line is part of the string
      have hself : cstr line = line := (List.takeWhile_prefix _).eq_of_length hlen
      have hnl : ([0x0a] : List UInt8).takeWhile (· ≠ 0) = [0x0a] := by decide
      rw [hself, hnl, List.dropWhile_append]
      split_ifs with hempty
      · rw [List.isEmpty_iff.1 hempty]
        exact (textName_nil maxchars).symm ▸ rfl
      · exact textName_newline maxchars _
    · rfl

theorem getIrdevname_lines {buffs lines : List (List UInt8)} (h : List.Forall₂ Buffers buffs lines)
    (maxchars : ℕ) : buffs.filterMap (getIrdevname maxchars) = lines.filterMap (devName maxchars) := by
  induction h with
  | nil => rfl
  | cons hb _ ih => rw [List.filterMap_cons, List.filterMap_cons, getIrdevname_buffer hb, ih]

theorem devName_length {maxchars : ℕ} {line name : List UInt8} (h : devName maxchars line = some name) :
    name.length < maxchars ∧ ∀ b ∈ name, b ≠ 0 := by
  unfold devName at h
  simp only at h
  split_ifs at h with hc
  obtain rfl := Option.some.inj h
  refine ⟨hc.2.2, fun b hb => ?_⟩
  have hmem : b ∈ cstr line :=
    (List.dropWhile_sublist _).subset ((List.takeWhile_prefix _).subset hb)
  simpa using List.mem_takeWhile_imp hmem

theorem devNames_bytes {maxchars : ℕ} {s name : List UInt8} (h : name ∈ devNames maxchars s) :
    name.length < maxchars ∧ ∀ b ∈ name, b ≠ 0 := by
  obtain ⟨line, -, hl⟩ := List.mem_filterMap.1 h
  exact devName_length hl

/-! ### The rows -/

/-- The writes of the names to the rows from `k` on. -/
def rowsLog : ℕ → List (List UInt8) → Log
  | _, [] => []
  | k, name :: names => rowLog k name ++ rowsLog (k + 1) names

/-- The loop over buffers with names for all free rows, or with one too many. -/
theorem devlistLoop_run (maxchars maxnames : ℕ) (bs : List (List UInt8)) :
    ∀ k, k ≤ maxnames →
      (k + (bs.filterMap (getIrdevname maxchars)).length ≤ maxnames →
        devlistLoop maxchars maxnames bs k =
          (((k + (bs.filterMap (getIrdevname maxchars)).length : ℕ) : ℤ),
            rowsLog k (bs.filterMap (getIrdevname maxchars)))) ∧
      (maxnames < k + (bs.filterMap (getIrdevname maxchars)).length →
        (devlistLoop maxchars maxnames bs k).1 = -1 ∧
          ∃ w ∈ (devlistLoop maxchars maxnames bs k).2, rowSize * maxnames ≤ w.1) := by
  induction bs with
  | nil =>
    intro k hk
    refine ⟨fun _ => rfl, fun h => ?_⟩
    simp only [List.filterMap_nil, List.length_nil] at h
    omega
  | cons b bs ih =>
    intro k hk
    cases hb : getIrdevname maxchars b with
    | none =>
      have hnot : ¬ k > maxnames := by omega
      rw [devlistLoop, List.filterMap_cons_none hb]
      simp only [hb, if_neg hnot]
      exact ih k hk
    | some name =>
      rw [devlistLoop, List.filterMap_cons_some hb, List.length_cons]
      simp only [hb]
      by_cases hfull : k + 1 > maxnames
      · -- the row `maxnames` is written before the count is looked at
        obtain rfl : k = maxnames := by omega
        rw [if_pos hfull]
        refine ⟨fun h => by omega, fun _ => ⟨rfl, (rowSize * k + name.length, 0), ?_, ?_⟩⟩
        · simp [rowLog, textAt]
        · simp
      · rw [if_neg hfull]
        obtain ⟨hin, hover⟩ := ih (k + 1) (by omega)
        constructor
        · intro h
          rw [hin (by omega)]
          simp only [rowsLog, Prod.mk.injEq, and_true]
          push_cast
          ring
        · intro h
          obtain ⟨hret, w, hw, hle⟩ := hover (by omega)
          exact ⟨hret, w, List.mem_append_right _ hw, hle⟩

theorem mem_rowsLog {w : ℕ × UInt8} (names : List (List UInt8)) :
    ∀ {k : ℕ}, (∀ n ∈ names, n.length < rowSize) → w ∈ rowsLog k names →
      rowSize * k ≤ w.1 ∧ w.1 < rowSize * (k + names.length) := by
  induction names with
  | nil => intro k _ h; cases h
  | cons n names ih =>
    intro k hshort h
    have hn : n.length < rowSize := hshort n (by simp)
    rw [List.length_cons]
    rcases List.mem_append.1 h with h | h
    · have hw := mem_textAt h
      refine ⟨hw.1, ?_⟩
      calc w.1 ≤ rowSize * k + n.length := hw.2
        _ < rowSize * k + rowSize := by omega
        _ ≤ rowSize * (k + (names.length + 1)) := by
          rw [← Nat.mul_succ]
          exact Nat.mul_le_mul_left _ (by omega)
    · obtain ⟨h1, h2⟩ := ih (fun m hm => hshort m (by simp [hm])) h
      rw [show k + (names.length + 1) = k + 1 + names.length by omega]
      exact ⟨(Nat.mul_le_mul_left _ (Nat.le_succ k)).trans h1, h2⟩

/-- The rows hold the names, each with its end. -/
theorem load_rowsLog (names : List (List UInt8)) :
    ∀ (k : ℕ) (m : Mem), (∀ n ∈ names, n.length < rowSize) → ∀ (i : ℕ) (h : i < names.length),
      load (play m (rowsLog k names)) (rowSize * (k + i)) (names[i].length + 1) = names[i] ++ [0] := by
  induction names with
  | nil => intro k m _ i h; simp at h
  | cons n names ih =>
    intro k m hshort i hi
    have hrest : ∀ n' ∈ names, n'.length < rowSize := fun n' hn' => hshort n' (by simp [hn'])
    rw [rowsLog, play_append]
    cases i with
    | zero =>
      have hn : n.length < rowSize := hshort n (by simp)
      simp only [List.getElem_cons_zero, Nat.add_zero]
      refine Eq.trans (load_congr fun j hj => ?_) (load_textAt m (rowSize * k) n)
      -- the rows behind are written further on
      refine play_outside _ fun w hw => ?_
      have hlow := (mem_rowsLog names hrest hw).1
      rw [Nat.mul_succ] at hlow
      omega
    | succ i =>
      have h := ih (k + 1) (play m (rowLog k n)) hrest i (by simpa using hi)
      rw [show k + 1 + i = k + (i + 1) by omega] at h
      exact h

/-! ### The list -/

/-- A call as it should be: only rows of the array are written, and the names are found, or
the call fails when there are too many. -/
structure DevlistRight (maxchars maxnames : ℕ) (s : List UInt8) (r : ℤ × Log) : Prop where
  inside : Fits (rowSize * maxnames) r.2
  found : (devNames maxchars s).length ≤ maxnames → r.1 = (devNames maxchars s).length ∧
    ∀ (m : Mem) (i : ℕ) (h : i < (devNames maxchars s).length),
      load (play m r.2) (rowSize * i) ((devNames maxchars s)[i].length + 1) =
        (devNames maxchars s)[i] ++ [0]
  tooMany : maxnames < (devNames maxchars s).length → r.1 = -1

section List

variable {maxchars maxnames : ℕ} {s : List UInt8} (hshort : ∀ l ∈ textLines s, l.length < 1023)

include hshort

theorem getDevlist_names :
    ((fgetsAll 1022 s).drop 2).filterMap (getIrdevname maxchars) = devNames maxchars s :=
  getIrdevname_lines (List.forall₂_drop 2 (fgetsAll_lines _ s rfl hshort)) maxchars

theorem getDevlist_fit (h : (devNames maxchars s).length ≤ maxnames) :
    getDevlist (some s) maxchars maxnames =
      (((devNames maxchars s).length : ℤ), rowsLog 0 (devNames maxchars s)) := by
  have hloop := (devlistLoop_run maxchars maxnames ((fgetsAll 1022 s).drop 2) 0 (Nat.zero_le _)).1
  rw [getDevlist_names hshort, Nat.zero_add] at hloop
  exact hloop h

theorem getDevlist_over (h : maxnames < (devNames maxchars s).length) :
    (getDevlist (some s) maxchars maxnames).1 = -1 ∧
      ∃ w ∈ (getDevlist (some s) maxchars maxnames).2, rowSize * maxnames ≤ w.1 := by
  have hloop := (devlistLoop_run maxchars maxnames ((fgetsAll 1022 s).drop 2) 0 (Nat.zero_le _)).2
  rw [getDevlist_names hshort, Nat.zero_add] at hloop
  exact hloop h

end List

/-- With names that fit in a row, a call does as it should exactly when the file has no more
names than the array has rows. -/
theorem devlist_right_iff (maxchars maxnames : ℕ) (hrow : maxchars ≤ rowSize) (s : List UInt8)
    (hshort : ∀ l ∈ textLines s, l.length < 1023) :
    DevlistRight maxchars maxnames s (getDevlist (some s) maxchars maxnames) ↔
      (devNames maxchars s).length ≤ maxnames := by
  have hnames : ∀ n ∈ devNames maxchars s, n.length < rowSize :=
    fun n hn => (devNames_bytes hn).1.trans_le hrow
  constructor
  · intro hr
    by_contra hover
    obtain ⟨-, w, hw, hle⟩ := getDevlist_over hshort (Nat.lt_of_not_le hover)
    exact absurd (hr.inside w hw) (Nat.not_lt.2 hle)
  · intro h
    rw [getDevlist_fit hshort h]
    refine ⟨fun w hw => ?_, fun _ => ⟨rfl, fun m i hi => ?_⟩, fun hover => by omega⟩
    · have hlt := (mem_rowsLog _ hnames hw).2
      rw [Nat.zero_add] at hlt
      exact hlt.trans_le (Nat.mul_le_mul_left _ h)
    · have hload := load_rowsLog (devNames maxchars s) 0 m hnames i hi
      rwa [Nat.zero_add] at hload

/-- Two interfaces among others. -/
def twoFile : List UInt8 :=
  ascii "Inter-|   Receive\n face |bytes\n    lo: 0\n irda0: 12\n  eth0: 7\n irda1: 0\n"

theorem devlist_right_two :
    DevlistRight rowSize 2 twoFile (getDevlist (some twoFile) rowSize 2) ∧
      devNames rowSize twoFile = [ascii "irda0", ascii "irda1"] := by
  have hnames : devNames rowSize twoFile = [ascii "irda0", ascii "irda1"] := by decide +kernel
  exact ⟨(devlist_right_iff rowSize 2 le_rfl twoFile (by decide +kernel)).2 (by rw [hnames]; decide), hnames⟩

/-- An eleventh interface is written behind the ten rows of `before_names`. -/
def elevenFile : List UInt8 :=
  ascii "h\nh\nirda0:\nirda1:\nirda2:\nirda3:\nirda4:\nirda5:\nirda6:\nirda7:\nirda8:\nirda9:\nirda10:\n"

theorem devlist_eleventh_row :
    ¬ DevlistRight rowSize 10 elevenFile (getDevlist (some elevenFile) rowSize 10) := by
  have hover : 10 < (devNames rowSize elevenFile).length := by decide +kernel
  obtain ⟨-, w, hw, hle⟩ := getDevlist_over (by decide +kernel) hover
  intro hr
  exact absurd (hr.inside w hw) (Nat.not_lt.2 hle)

end Irattach
