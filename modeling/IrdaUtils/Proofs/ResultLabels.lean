import IrdaUtils.Spec.ChipInfo
import IrdaUtils.Spec.Gfindchip
import IrdaUtils.Proofs.Devlist

/-! What `gfindchip` makes of the line that `findchip` prints. There are eleven fields in every
such line, and names and buttons for eight. -/

namespace Gfindchip

open Decimal Findchip Irattach

/-! ### The line -/

/-- The fields that `print_info` puts between the commas. -/
def fields (info : ChipInfo) : List (List UInt8) :=
  [info.manufacturer, info.name, dec info.chipId ++ ascii "." ++ dec info.revision, hex info.cfgBase,
    hex info.sirBase, hex info.firBase, dec info.irq, dec info.dma, dec info.enabled,
    dec info.suspended, dec info.uartComp]

/-- The text with a comma between every two fields. -/
def joined (fs : List (List UInt8)) : List UInt8 := [0x2c].intercalate fs

theorem joined_one (f : List UInt8) : joined [f] = f := by
  simp [joined, List.intercalate]

theorem joined_cons (f g : List UInt8) (fs : List (List UInt8)) :
    joined (f :: g :: fs) = f ++ 0x2c :: joined (g :: fs) := by
  simp [joined, List.intercalate, List.intersperse]

theorem mem_joined {fs : List (List UInt8)} {b : UInt8} (h : b ∈ joined fs) :
    b = 0x2c ∨ ∃ f ∈ fs, b ∈ f := by
  induction fs with
  | nil => simp [joined, List.intercalate] at h
  | cons f fs ih =>
    cases fs with
    | nil =>
      rw [joined_one] at h
      exact .inr ⟨f, by simp, h⟩
    | cons g gs =>
      rw [joined_cons, List.mem_append, List.mem_cons] at h
      rcases h with h | rfl | h
      · exact .inr ⟨f, by simp, h⟩
      · exact .inl rfl
      · refine (ih h).imp_right ?_
        rintro ⟨f', hf', hb⟩
        exact ⟨f', List.mem_cons_of_mem _ hf', hb⟩

theorem printLine_eq (info : ChipInfo) : printLine info = joined (fields info) ++ [0x0a] := by
  have hcomma : ascii "," = [0x2c] := rfl
  have hend : ascii "\n" = [0x0a] := rfl
  unfold printLine
  simp only [hcomma, hend, fields, joined_cons, joined_one, List.append_assoc, List.cons_append, List.nil_append]

/-- No comma, end of line or end of text. -/
def Plain (text : List UInt8) : Prop := ∀ b ∈ text, b ≠ 0x2c ∧ b ≠ 0x0a ∧ b ≠ 0

instance (text : List UInt8) : Decidable (Plain text) :=
  List.decidableBAll (fun b => b ≠ 0x2c ∧ b ≠ 0x0a ∧ b ≠ 0) text

theorem Plain.append {s t : List UInt8} (hs : Plain s) (ht : Plain t) : Plain (s ++ t) := by
  intro b hb
  exact (List.mem_append.1 hb).elim (hs b) (ht b)

theorem isHexDigit_plain {s : List UInt8} (h : ∀ b ∈ s, isHexDigit b = true) : Plain s := by
  intro b hb
  have hd := h b hb
  refine ⟨?_, ?_, ?_⟩
  all_goals
    rintro rfl
    exact absurd hd (by decide)

theorem plain_dec (v : BitVec 32) : Plain (dec v) := by
  have hprint : ∀ n, Plain (print n) := by
    intro n
    refine isHexDigit_plain fun b hb => ?_
    rw [isHexDigit, print_digits n b hb, Bool.true_or]
  rw [dec, printInt]
  split_ifs
  · exact Plain.append (s := [0x2d]) (by decide) (hprint _)
  · exact hprint _

theorem plain_hex (v : BitVec 32) : Plain (hex v) :=
  Plain.append (by decide) (isHexDigit_plain (printHex_digits 1 v.toNat))

theorem dec_ne_nil (v : BitVec 32) : dec v ≠ [] := by
  rw [dec, printInt]
  split_ifs
  · simp
  · exact print_ne_nil _

/-- A record whose texts are plain, and whose line is shorter than 127 bytes. -/
structure OneLine (info : ChipInfo) : Prop where
  manufacturer : Plain info.manufacturer
  name : Plain info.name
  short : (joined (fields info)).length < 127

theorem OneLine.fields_plain {info : ChipInfo} (h : OneLine info) : ∀ f ∈ fields info, Plain f := by
  have hdot : Plain (ascii ".") := by decide
  simp only [fields, List.forall_mem_cons]
  exact ⟨h.manufacturer, h.name, ((plain_dec _).append hdot).append (plain_dec _), plain_hex _, plain_hex _,
    plain_hex _, plain_dec _, plain_dec _, plain_dec _, plain_dec _, plain_dec _, by simp⟩

theorem OneLine.joined_clean {info : ChipInfo} (h : OneLine info) :
    ∀ b ∈ joined (fields info), b ≠ 0x0a ∧ b ≠ 0 := by
  intro b hb
  rcases mem_joined hb with rfl | ⟨f, hf, hbf⟩
  · decide
  · exact (h.fields_plain f hf b hbf).2

/-! ### The loop -/

/-- Every field that is not empty in the label with its number. -/
def labelsFrom (i : ℕ) (fs : List (List UInt8)) : List ResultLabel :=
  (fs.zipIdx i).flatMap fun p => labelOf p.2 p.1

theorem splitLoop_last {p1 : List UInt8} (h : 0x2c ∉ p1) (i : ℕ) : splitLoop i p1 = (labelOf i p1, i) := by
  rw [splitLoop, if_neg h]

theorem splitLoop_comma {f : List UInt8} (h : 0x2c ∉ f) (i : ℕ) (p : List UInt8) :
    splitLoop i (f ++ 0x2c :: p) =
      (labelOf i f ++ (splitLoop (i + 1) p).1, (splitLoop (i + 1) p).2) := by
  have hpos : ∀ b ∈ f, decide (b ≠ 0x2c) = true := by
    intro b hb
    simp only [ne_eq, decide_not, Bool.not_eq_true', decide_eq_false_iff_not]
    rintro rfl
    exact h hb
  rw [splitLoop, if_pos (by simp), List.takeWhile_append_of_pos hpos, List.dropWhile_append_of_pos hpos]
  simp

/-- The loop over fields without commas. -/
theorem splitLoop_fields {fs : List (List UInt8)} (hfs : ∀ f ∈ fs, 0x2c ∉ f) (hne : fs ≠ []) :
    ∀ i, splitLoop i (joined fs) = (labelsFrom i fs, i + (fs.length - 1)) := by
  induction fs with
  | nil => exact absurd rfl hne
  | cons f fs ih =>
    intro i
    have hf : 0x2c ∉ f := hfs f (by simp)
    cases fs with
    | nil =>
      rw [joined_one, splitLoop_last hf]
      simp [labelsFrom]
    | cons g gs =>
      rw [joined_cons, splitLoop_comma hf, ih (fun f' h' => hfs f' (by simp [h'])) (by simp)]
      simp only [labelsFrom, List.zipIdx_cons, List.flatMap_cons, List.length_cons]
      congr 1
      omega

/-- The line is read as a whole, and split at its commas. -/
theorem showResult_line {info : ChipInfo} (h : OneLine info) (rest : List UInt8) :
    showResult (printInfo false info ++ rest) = some (labelsFrom 0 (fields info), false) := by
  have hclean := h.joined_clean
  have hout : printInfo false info ++ rest = joined (fields info) ++ 0x0a :: rest := by
    change printLine info ++ rest = _
    rw [printLine_eq, List.append_assoc]
    rfl
  have hne : printInfo false info ++ rest ≠ [] := by
    rw [hout]
    simp
  have hread : (readLine 127 (printInfo false info ++ rest)).1 = joined (fields info) ++ [0x0a] := by
    rw [hout, readLine_cons (fun hmem => (hclean _ hmem).1 rfl) rest 127 h.short]
  have hcstr : cstr (joined (fields info) ++ [0x0a]) = joined (fields info) ++ [0x0a] := by
    rw [cstr, List.takeWhile_append_of_pos fun b hb => decide_eq_true (hclean b hb).2]
    rfl
  have htext : (joined (fields info) ++ [0x0a]).takeWhile (· ≠ 0x0a) = joined (fields info) := by
    rw [List.takeWhile_append_of_pos fun b hb => decide_eq_true (hclean b hb).1]
    exact List.append_nil _
  rw [showResult, if_neg hne]
  simp only [hread, hcstr, htext]
  rw [splitLoop_fields (fun f hf hmem => (h.fields_plain f hf _ hmem).1 rfl) (by simp [fields])]
  simp [fields]

/-! ### The buttons -/

/-- Every field that is not empty is in its label, and every label in the array. -/
def Shown (info : ChipInfo) (rest : List UInt8) : Prop :=
  ∃ labels dialog, showResult (printInfo false info ++ rest) = some (labels, dialog) ∧
    (∀ i f, (fields info)[i]? = some f → f ≠ [] → makeResultLabel i f ∈ labels) ∧
    ∀ l ∈ labels, l.n < buttons

theorem labelOf_some {i : ℕ} {f : List UInt8} (h : f ≠ []) : labelOf i f = [makeResultLabel i f] := if_pos h

theorem labelOf_n {i : ℕ} {f : List UInt8} {l : ResultLabel} (h : l ∈ labelOf i f) : l.n = 2 * i + 1 := by
  unfold labelOf at h
  split_ifs at h
  · rw [List.mem_singleton.1 h]
    simp [makeResultLabel, Nat.mul_comm]
  · cases h

theorem labelsFrom_append (fs gs : List (List UInt8)) (i : ℕ) :
    labelsFrom i (fs ++ gs) = labelsFrom i fs ++ labelsFrom (i + fs.length) gs := by
  rw [labelsFrom, List.zipIdx_append, List.flatMap_append]
  rfl

theorem labelsFrom_lt {fs : List (List UInt8)} {l : ResultLabel} (h : l ∈ labelsFrom 0 fs) :
    l.n < 2 * fs.length := by
  obtain ⟨⟨f, i⟩, hp, hl⟩ := List.mem_flatMap.1 h
  have hi : i < fs.length := by simpa using (List.mem_zipIdx hp).2.1
  rw [labelOf_n hl]
  omega

/-- The last three fields are numbers, so that they have labels. -/
theorem labels_beyond (info : ChipInfo) :
    ((labelsFrom 0 (fields info)).map (·.n)).filter (buttons ≤ ·) = [17, 19, 21] := by
  set named := (fields info).take 8
  set numbers := [dec info.enabled, dec info.suspended, dec info.uartComp]
  have hsplit : fields info = named ++ numbers := rfl
  have hnamed : ((labelsFrom 0 named).map (·.n)).filter (buttons ≤ ·) = [] := by
    refine List.filter_eq_nil_iff.2 fun n hn => ?_
    obtain ⟨l, hl, rfl⟩ := List.mem_map.1 hn
    have hlt : l.n < buttons := labelsFrom_lt hl
    rw [decide_eq_true_eq]
    omega
  have hnumbers : (labelsFrom 8 numbers).map (·.n) = [17, 19, 21] := by
    simp [labelsFrom, numbers, labelOf_some (dec_ne_nil _), makeResultLabel]
  rw [hsplit, labelsFrom_append, List.map_append, List.filter_append, hnamed, List.nil_append]
  change ((labelsFrom 8 numbers).map (·.n)).filter (buttons ≤ ·) = _
  rw [hnumbers]
  rfl

/-- The record of the line is never shown as it should be: the labels have the fields, but the
last three are stored behind the end of the array. -/
theorem button_overrun (info : ChipInfo) (rest : List UInt8) :
    ¬ Shown info rest ∧ (OneLine info → ∃ labels,
      showResult (printInfo false info ++ rest) = some (labels, false) ∧
      labels = labelsFrom 0 (fields info) ∧ (labels.map (·.n)).filter (buttons ≤ ·) = [17, 19, 21]) := by
  refine ⟨?_, fun h => ⟨_, showResult_line h rest, rfl, labels_beyond info⟩⟩
  rintro ⟨labels, dialog, -, hshow, hin⟩
  have hmem : makeResultLabel 8 (dec info.enabled) ∈ labels := hshow 8 _ rfl (dec_ne_nil _)
  have : 17 < buttons := hin _ hmem
  exact absurd this (by decide)

/-- The record of a W83977ATF. -/
def w83977atf : ChipInfo :=
  ⟨manufacturer, ascii "W83977ATF", 0x97, 0x74, 0x3f0, 0x2f8, 0x2f8, 3, 1, 1, 1, 0, 0⟩

theorem w83977atf_oneLine : OneLine w83977atf := ⟨by decide, by decide, by decide⟩

theorem button_overrun_w83977atf : ∃ labels,
    showResult (printInfo false w83977atf ++ []) = some (labels, false) ∧
      labels = labelsFrom 0 (fields w83977atf) ∧
      (labels.map (·.n)).filter (buttons ≤ ·) = [17, 19, 21] :=
  (button_overrun w83977atf []).2 w83977atf_oneLine

/-- The label of `uart_comp` is stored in the element 21. -/
theorem label_outside : ¬ Shown w83977atf [] ∧ ∃ labels,
    showResult (printInfo false w83977atf ++ []) = some (labels, false) ∧
      makeResultLabel 10 (ascii "1") ∈ labels ∧ (makeResultLabel 10 (ascii "1")).n = 21 := by
  have hmem : makeResultLabel 10 (ascii "1") ∈ labelsFrom 0 (fields w83977atf) := by decide
  refine ⟨?_, _, showResult_line w83977atf_oneLine [], hmem, rfl⟩
  rintro ⟨labels, dialog, heq, -, hin⟩
  rw [showResult_line w83977atf_oneLine, Option.some.injEq, Prod.mk.injEq] at heq
  have : 21 < buttons := hin _ (heq.1 ▸ hmem)
  exact absurd this (by decide)

end Gfindchip
