import IrdaUtils.Spec.Irda

/-! What a run of `irda ias get` leaves behind: the rows that are printed with `-C`, read back as
the answers, and the file of the octets. -/

namespace Irda

open Columns Decimal Smcinit

variable {o : Options} {q : IasData} {r : Reply} {s : Run}

/-! ### What is asked in a run -/

theorem step_ended (h : s.ended ≠ none) (e : Event) : s.step o q e = s := by
  cases e with
  | turn r => exact if_pos h
  | signal => exact if_neg h

theorem foldl_ended (h : s.ended ≠ none) (es : List Event) : es.foldl (Run.step o q) s = s := by
  induction es with
  | nil => rfl
  | cons e es ih => rw [List.foldl_cons, step_ended h, ih]

theorem entry_ended (filename : List UInt8) (hok : r.ok = true) :
    (iriasListEntry o filename r).ended = none ↔ ¬ r.Ends o := by
  unfold iriasListEntry entryValue Reply.Ends
  simp only [hok, true_and]
  split_ifs with h0 h1 h2 h3
  · simp [h0]
  · simp [h1]
  · unfold entryOctets
    simp only [h2]
    split_ifs <;> simp
  · unfold entryString
    split
    · next hcol => simp [hcol, h3]
    · next hcol =>
      split
      · next hset => simpa [hcol, h3] using hset
      · next hset =>
        have := (List.getElem?_eq_some_iff.1 hset).1
        simp [hcol, h3, this]
  · have : 3 < r.query.irdaAttribType := by omega
    simp [this]

/-- How many turns still ask. -/
def left (o : Options) (s : Run) : ℕ :=
  if o.count = 0 then 1 else if o.delay = 0 then 0 else s.count.toNat

/-- What a list of answers is printed as. -/
def printed (o : Options) (filename : List UInt8) (rs : List Reply) : List UInt8 :=
  rs.flatMap fun r => (iriasListEntry o filename r).out

/-- What a list of answers makes of the file. -/
def filed (o : Options) (filename file : List UInt8) (rs : List Reply) : List UInt8 :=
  rs.foldl (fun f r => ((iriasListEntry o filename r).wrote.map (overwrite f)).getD f) file

/-- The state `s'` is reached from `s` by asking for `rs`. -/
structure Asked (o : Options) (q : IasData) (s : Run) (rs : List Reply) (s' : Run) : Prop where
  out : s'.out = s.out ++ printed o q.filename (rs.filter (·.ok))
  file : s'.file = filed o q.filename s.file (rs.filter (·.ok))

theorem Asked.none (s : Run) (count : BitVec 32) (ended : Option End) :
    Asked o q s [] { s with count := count, ended := ended } :=
  ⟨(List.append_nil s.out).symm, rfl⟩

theorem exec_asked (s : Run) (r : Reply) (count : BitVec 32) (ended : Option End) :
    Asked o q s [r] { iriasGetExec o q s r with count := count, ended := ended } := by
  cases hok : r.ok with
  | false => constructor <;> simp [iriasGetExec, hok, printed, filed]
  | true => constructor <;> simp [iriasGetExec, hok, printed, filed]

theorem Asked.trans {s' s'' : Run} {rs rs' : List Reply} (h : Asked o q s rs s')
    (h' : Asked o q s' rs' s'') : Asked o q s (rs ++ rs') s'' := by
  constructor
  · rw [h'.out, h.out, printed, printed, printed, List.filter_append, List.flatMap_append,
      List.append_assoc]
  · rw [h'.file, h.file, filed, filed, filed, List.filter_append, List.foldl_append]

theorem exec_ended (h : s.ended = none) : (iriasGetExec o q s r).ended = none ↔ ¬ r.Ends o := by
  cases hok : r.ok with
  | false => simp [iriasGetExec, hok, h, Reply.Ends]
  | true => simpa [iriasGetExec, hok] using entry_ended q.filename hok

theorem asked_zero (es : List Event) : asked o 0 es = [] := by cases es <;> rfl

theorem asked_signal (n : ℕ) (es : List Event) : asked o n (.signal :: es) = [] := by
  cases n <;> rfl

/-- An event asks for the replies in front of what is asked behind it. -/
def Asks (o : Options) (q : IasData) (s : Run) (e : Event) : Prop :=
  ∃ rs, Asked o q s rs (s.step o q e) ∧ ∀ es, asked o (left o s) (e :: es) =
    rs ++ if (s.step o q e).ended = none then asked o (left o (s.step o q e)) es else []

theorem signal_asks (hs : s.ended = none) : Asks o q s .signal := by
  refine ⟨[], ?_, fun es => ?_⟩
  · rw [Run.step, if_pos hs]
    exact .none s s.count _
  · rw [asked_signal, Run.step, if_pos hs]
    rfl

/-- Without `-c` there is one turn. -/
theorem single_asks (hs : s.ended = none) (hcount : o.count = 0) (r : Reply) :
    Asks o q s (.turn r) := by
  have hleft : left o s = 1 := if_pos hcount
  have hended : (s.step o q (.turn r)).ended ≠ none := by
    rw [Run.step, if_neg (not_not.2 hs), if_pos hcount]
    dsimp only
    split_ifs with hend
    · exact Option.some_ne_none _
    · exact hend
  refine ⟨[r], ?_, fun es => ?_⟩
  · rw [Run.step, if_neg (not_not.2 hs), if_pos hcount]
    dsimp only
    split_ifs
    · exact exec_asked s r _ _
    · exact exec_asked s r _ _
  · rw [if_neg hended, hleft, asked, asked_zero, ite_self]
    rfl

theorem exec_count : (iriasGetExec o q s r).count = s.count := by
  unfold iriasGetExec
  split <;> rfl

theorem alarm_asks (hs : s.ended = none) (hcount : o.count ≠ 0) (hdelay : o.delay ≠ 0)
    (r : Reply) : Asks o q s (.turn r) := by
  have hleft : ∀ s' : Run, left o s' = s'.count.toNat := fun s' => by
    rw [left, if_neg hcount, if_neg hdelay]
  have hstep : s.step o q (.turn r) = timeout o q s r := by
    rw [Run.step, if_neg (not_not.2 hs), if_neg hcount, if_neg hdelay]
  unfold Asks
  rw [hstep, timeout, hleft]
  by_cases hzero : s.count = 0
  · rw [if_neg (not_not.2 hzero)]
    refine ⟨[], .none s s.count _, fun es => ?_⟩
    rw [hzero]
    rfl
  obtain ⟨k, hk⟩ : ∃ k, s.count.toNat = k + 1 :=
    Nat.exists_eq_succ_of_ne_zero fun h => hzero (BitVec.eq_of_toNat_eq h)
  have hpred : (s.count - 1).toNat = k := by bv_omega
  rw [if_pos hzero, hk]
  dsimp only
  by_cases hend : r.Ends o
  · have hended := (exec_ended (q := q) hs).not.2 (not_not.2 hend)
    rw [if_neg hended]
    refine ⟨[r], exec_asked s r _ _, fun es => ?_⟩
    rw [asked, if_pos hend, if_neg hended]
    rfl
  · have hended := (exec_ended (q := q) hs).2 hend
    rw [if_pos hended]
    refine ⟨[r], exec_asked s r _ _, fun es => ?_⟩
    rw [asked, if_neg hend, if_pos hended, hleft, exec_count, hpred]
    rfl

theorem step_asks (hs : s.ended = none) (e : Event) : Asks o q s e := by
  cases e with
  | signal => exact signal_asks hs
  | turn r =>
    by_cases hcount : o.count = 0
    · exact single_asks hs hcount r
    by_cases hdelay : o.delay = 0
    · -- there is no alarm
      have hstep : s.step o q (.turn r) = s := by
        rw [Run.step, if_neg (not_not.2 hs), if_neg hcount, if_pos hdelay]
      have hleft : left o s = 0 := by rw [left, if_neg hcount, if_pos hdelay]
      refine ⟨[], ?_, fun es => ?_⟩
      · rw [hstep]
        exact .none s s.count s.ended
      · rw [hstep, hleft, asked_zero, asked_zero, ite_self]
        rfl
    · exact alarm_asks hs hcount hdelay r

/-- From any state, a run asks for the replies of the turns that are left. -/
theorem foldl_asked (es : List Event) (hs : s.ended = none) :
    Asked o q s (asked o (left o s) es) (es.foldl (Run.step o q) s) := by
  induction es generalizing s with
  | nil =>
    have : asked o (left o s) [] = [] := by cases left o s <;> rfl
    rw [this]
    exact .none s s.count s.ended
  | cons e es ih =>
    obtain ⟨rs, h, hes⟩ := step_asks (q := q) hs e
    rw [List.foldl_cons, hes]
    split_ifs with hend
    · exact h.trans (ih hend)
    · rwa [foldl_ended hend, List.append_nil]

theorem run_asked (o : Options) (q : IasData) (file : List UInt8) (es : List Event) :
    (run o q (.ok ()) file es).out = header o ++ printed o q.filename (answered o es) ∧
      (run o q (.ok ()) file es).file = filed o q.filename file (answered o es) := by
  have h := foldl_asked (o := o) (q := q) (s := start o (.ok ()) file) es rfl
  exact ⟨h.out, h.file⟩

/-! ### The file of the octets -/

theorem entryOctets_wrote (o : Options) (filename : List UInt8) (r : Reply) :
    (entryOctets o filename r).wrote =
      if string filename ≠ [] ∧ r.opens = true then some (r.query.octetSeq.take r.wlen)
      else none := by
  by_cases hname : string filename = []
  · cases hcol : o.fmtColumn <;> simp [entryOctets, hname, hcol]
  · cases hopens : r.opens <;> simp [entryOctets, hname, hopens]

theorem entryString_wrote (o : Options) (r : Reply) : (entryString o r).wrote = none := by
  unfold entryString
  split
  · rfl
  · split <;> rfl

theorem entry_wrote (o : Options) (filename : List UInt8) (r : Reply) :
    (iriasListEntry o filename r).wrote = r.stored filename := by
  change (entryValue o filename r).wrote = _
  by_cases h2 : r.query.irdaAttribType = 2
  · rw [entryValue, if_neg (by omega), if_neg (by omega), if_pos h2, entryOctets_wrote,
      Reply.stored]
    simp only [h2, true_and]
  · rw [Reply.stored, if_neg fun h => h2 h.1, entryValue]
    split_ifs
    · rfl
    · rfl
    · exact entryString_wrote o r
    · rfl

theorem filed_eq (o : Options) (filename file : List UInt8) (rs : List Reply) :
    filed o filename file rs = (rs.filterMap (Reply.stored filename)).foldl overwrite file := by
  unfold filed
  induction rs generalizing file with
  | nil => rfl
  | cons r rs ih =>
    rw [List.foldl_cons, ih, entry_wrote, List.filterMap_cons]
    cases r.stored filename <;> rfl

theorem length_overwrite (old bs : List UInt8) :
    (overwrite old bs).length = max old.length bs.length := by
  rw [overwrite, List.length_append, List.length_drop]
  omega

theorem length_foldl_overwrite (ws : List (List UInt8)) (file : List UInt8) (n : ℕ) :
    (ws.foldl overwrite file).length ≤ n ↔ ∀ w ∈ file :: ws, w.length ≤ n := by
  induction ws generalizing file with
  | nil => simp
  | cons w ws ih => simp [ih, length_overwrite, and_assoc]

theorem overwrite_eq_iff {old bs : List UInt8} : overwrite old bs = bs ↔ old.length ≤ bs.length := by
  rw [overwrite, List.append_right_eq_self, List.drop_eq_nil_iff]

/-- In the end the file holds the last octets alone if and only if neither the file at the start
nor what has been written before is longer. -/
theorem file_left_iff (o : Options) (q : IasData) (file : List UInt8) (es : List Event)
    {ws : List (List UInt8)} {bs : List UInt8}
    (h : (answered o es).filterMap (Reply.stored q.filename) = ws ++ [bs]) :
    (run o q (.ok ()) file es).file = bs ↔ ∀ w ∈ file :: ws, w.length ≤ bs.length := by
  rw [(run_asked o q file es).2, filed_eq, h, List.foldl_append, List.foldl_cons, List.foldl_nil,
    overwrite_eq_iff, length_foldl_overwrite]

/-- Octets for a file that are stored whole. -/
def octetsReply (bs : List UInt8) : Reply :=
  ⟨true, strncpy [] 320 ++ [2, 0, 0, 0, UInt8.ofNat bs.length, 0] ++ bs, true, bs.length⟩

theorem file_left_shorter :
    (run ⟨1, 2, true, false, char ':'⟩ ⟨true, 0, [], [], ascii "f", 1, 1⟩ (.ok ()) []
      [.turn (octetsReply [1, 2, 3]), .turn (octetsReply [4])]).file ≠ [4] := by
  have hstored : (answered ⟨1, 2, true, false, char ':'⟩
      [.turn (octetsReply [1, 2, 3]), .turn (octetsReply [4])]).filterMap
        (Reply.stored (ascii "f")) = [[1, 2, 3]] ++ [[4]] := by decide +kernel
  intro h
  exact absurd ((file_left_iff ⟨1, 2, true, false, char ':'⟩ ⟨true, 0, [], [], ascii "f", 1, 1⟩ [] _
    hstored).1 h) (by decide)

/-! ### Rows -/

def Value.kind : Value → List UInt8
  | .integer _ => ascii "integer"
  | .octets _ => ascii "octetseq"
  | .file _ => ascii "octetseq"
  | .text _ => ascii "string"

/-- The last column. -/
def Value.column : Value → List UInt8
  | .integer n => printInt n.toInt
  | .octets bs => bs.flatMap fun b => printHex 2 b.toNat ++ [char ' ']
  | .file name => ascii "(" ++ name ++ ascii ")"
  | .text s => s

def Attribute.row (sep : UInt8) (a : Attribute) : List UInt8 :=
  a.className ++ sep :: (a.name ++ sep :: (a.value.kind ++ sep :: a.value.column))

theorem printHex_two (b : UInt8) : ∃ h l, printHex 2 b.toNat = [h, l] ∧
    UInt8.ofNat (16 * digitValue h + digitValue l) = b := by
  have hall : ∀ n < 256, ∃ h l, printHex 2 n = [h, l] ∧ 16 * digitValue h + digitValue l = n := by
    intro n hn
    have hlist : (printHex 2 n).length = 2 ∧ 16 * digitValue ((printHex 2 n).getD 0 0) +
        digitValue ((printHex 2 n).getD 1 0) = n := by
      revert n
      decide +kernel
    obtain ⟨h, l, e⟩ := List.length_eq_two.1 hlist.1
    exact ⟨h, l, e, by simpa [e] using hlist.2⟩
  obtain ⟨h, l, e, hv⟩ := hall b.toNat b.toNat_lt
  exact ⟨h, l, e, by rw [hv, UInt8.ofNat_toNat]⟩

theorem readOctets_column (bs : List UInt8) : readOctets (Value.octets bs).column = bs := by
  induction bs with
  | nil => rfl
  | cons b bs ih =>
    obtain ⟨h, l, e, hb⟩ := printHex_two b
    rw [Value.column, List.flatMap_cons, e]
    change UInt8.ofNat _ :: readOctets (Value.octets bs).column = _
    rw [hb, ih]

theorem octets_head (bs : List UInt8) : (Value.octets bs).column.head? ≠ some (char '(') := by
  cases bs with
  | nil => simp [Value.column]
  | cons b bs =>
    obtain ⟨h, l, e, -⟩ := printHex_two b
    have hdigit := printHex_digits 2 b.toNat h (by simp [e])
    rw [Value.column, List.flatMap_cons, e]
    intro hh
    rw [Option.some.inj hh] at hdigit
    exact absurd hdigit (by decide)

theorem readValue_column (v : Value) : readValue v.kind v.column = some v := by
  cases v with
  | integer n =>
    rw [Value.kind, readValue, if_pos rfl, Value.column, scanUnsigned_printInt n (by decide) []]
    rfl
  | octets bs =>
    rw [Value.kind, readValue, if_neg (by decide), if_pos rfl, if_neg (octets_head bs),
      readOctets_column]
  | file name =>
    have hcolumn : (Value.file name).column = char '(' :: (name ++ [char ')']) := rfl
    rw [Value.kind, readValue, if_neg (by decide), if_pos rfl, hcolumn, List.head?_cons,
      if_pos rfl, List.tail_cons, List.dropLast_concat]
  | text s => rfl

theorem readRow_row {sep : UInt8} {a : Attribute} (hclass : sep ∉ a.className)
    (hname : sep ∉ a.name) (hkind : sep ∉ a.value.kind) : readRow sep (a.row sep) = some a := by
  rw [readRow, Attribute.row, cut_cons hclass, cut_cons hname, cut_cons hkind, cut]
  dsimp only
  rw [readValue_column]
  rfl

/-- The text in a value that is printed as it is. -/
def Value.strings : Value → List UInt8
  | .file name => name
  | .text s => s
  | _ => []

/-- No line feed and no separator in the texts of a reply, up to the last column. -/
structure Reply.Plain (sep : UInt8) (filename : List UInt8) (r : Reply) : Prop where
  classSep : sep ∉ r.query.irdaClassName
  nameSep : sep ∉ r.query.irdaAttribName
  kindSep : ∀ v ∈ r.value filename, sep ∉ v.kind
  classLine : char '\n' ∉ r.query.irdaClassName
  nameLine : char '\n' ∉ r.query.irdaAttribName
  valueLine : ∀ v ∈ r.value filename, char '\n' ∉ v.strings

theorem kind_line (v : Value) : char '\n' ∉ v.kind := by
  cases v <;> (rw [Value.kind]; decide)

theorem print_line (n : ℕ) : char '\n' ∉ print n := fun h =>
  absurd (print_digits n _ h) (by decide)

theorem column_line {v : Value} (h : char '\n' ∉ v.strings) : char '\n' ∉ v.column := by
  cases v with
  | integer n =>
    rw [Value.column, printInt]
    split_ifs
    · exact List.not_mem_cons_of_ne_of_not_mem (by decide) (print_line _)
    · exact print_line _
  | octets bs =>
    intro hmem
    obtain ⟨b, -, hb⟩ := List.mem_flatMap.1 hmem
    rcases List.mem_append.1 hb with hb | hb
    · exact absurd (printHex_digits 2 b.toNat _ hb) (by decide)
    · exact absurd hb (by decide)
  | file name =>
    have hopen : char '\n' ∉ ascii "(" := by decide
    have hclose : char '\n' ∉ ascii ")" := by decide
    simp only [Value.column, List.mem_append, not_or]
    exact ⟨⟨hopen, h⟩, hclose⟩
  | text s => exact h

theorem row_line {sep : UInt8} {a : Attribute} (hsep : sep ≠ char '\n')
    (hclass : char '\n' ∉ a.className) (hname : char '\n' ∉ a.name)
    (hvalue : char '\n' ∉ a.value.strings) : char '\n' ∉ a.row sep := by
  simp only [Attribute.row, List.mem_append, List.mem_cons, not_or]
  exact ⟨hclass, hsep.symm, hname, hsep.symm, kind_line _, hsep.symm, column_line hvalue⟩

/-! ### The answers and the rows -/

variable {filename : List UInt8}

theorem ascii_line : ascii "\n" = [char '\n'] := rfl

theorem value_shown (hcol : o.fmtColumn = true) {v : Value} (h : r.value filename = some v) :
    (entryValue o filename r).out =
      o.fmtSep :: (v.kind ++ o.fmtSep :: (v.column ++ [char '\n'])) := by
  unfold Reply.value at h
  split_ifs at h with h1 h2 hname hopens h3
  · cases h
    rw [entryValue, if_neg (by omega), if_pos h1, entryInteger, if_pos hcol]
    simp only [Value.kind, Value.column, ascii_line, List.cons_append, List.append_assoc]
  · cases h
    rw [entryValue, if_neg (by omega), if_neg h1, if_pos h2, entryOctets, if_neg (not_not.2 hname),
      if_pos hcol, if_pos hcol]
    simp only [Value.kind, Value.column, iriasShowOctetseq, ascii_line, List.cons_append,
      List.append_assoc, List.nil_append]
  · cases h
    rw [entryValue, if_neg (by omega), if_neg h1, if_pos h2, entryOctets, if_pos hname,
      if_pos hopens, if_pos hcol, if_pos hcol]
    have hclose : ascii ")\n" = ascii ")" ++ [char '\n'] := rfl
    simp only [Value.kind, Value.column, hclose, List.cons_append, List.append_assoc,
      List.nil_append]
  · cases h
    rw [entryValue, if_neg (by omega), if_neg h1, if_neg h2, if_pos h3, entryString, if_pos hcol]
    simp only [Value.kind, Value.column, ascii_line, List.cons_append, List.append_assoc]

theorem value_hidden (hcol : o.fmtColumn = true) (h : r.value filename = none) :
    (entryValue o filename r).out = [] ∨
      (entryValue o filename r).out = o.fmtSep :: (ascii "octetseq" ++ [o.fmtSep]) := by
  unfold Reply.value at h
  split_ifs at h with h1 h2 hname hopens h3
  · rw [entryValue, if_neg (by omega), if_neg h1, if_pos h2, entryOctets, if_pos hname,
      if_neg hopens, if_pos hcol]
    exact .inr rfl
  · rw [entryValue, if_neg h1, if_neg h2, if_neg h3]
    split_ifs
    · exact .inl rfl
    · exact .inl rfl

theorem entry_shown (hcol : o.fmtColumn = true) {a : Attribute}
    (h : r.attribute filename = some a) :
    (iriasListEntry o filename r).out = a.row o.fmtSep ++ [char '\n'] := by
  obtain ⟨v, hv, rfl⟩ := Option.map_eq_some_iff.1 h
  rw [iriasListEntry, entryNames, if_pos hcol, value_shown hcol hv]
  simp only [Attribute.row, List.cons_append, List.append_assoc]

/-- An answer without a value is printed without the end of its line. -/
theorem entry_hidden (hcol : o.fmtColumn = true) (hsep : o.fmtSep ≠ char '\n')
    (hr : r.Plain o.fmtSep filename) (h : r.value filename = none) :
    char '\n' ∉ (iriasListEntry o filename r).out := by
  have hkind : char '\n' ∉ ascii "octetseq" := by decide
  have hvalue : char '\n' ∉ (entryValue o filename r).out := by
    rcases value_hidden hcol h with e | e <;> rw [e]
    · exact List.not_mem_nil
    · simp [hkind, hsep.symm]
  rw [iriasListEntry, entryNames, if_pos hcol]
  simp only [List.mem_append, List.mem_cons, not_or]
  exact ⟨⟨hr.classLine, hsep.symm, hr.nameLine⟩, hvalue⟩

theorem Reply.Plain.row {a : Attribute} (hsep : o.fmtSep ≠ char '\n')
    (hr : r.Plain o.fmtSep filename) (h : r.attribute filename = some a) :
    char '\n' ∉ a.row o.fmtSep ∧ readRow o.fmtSep (a.row o.fmtSep) = some a := by
  obtain ⟨v, hv, rfl⟩ := Option.map_eq_some_iff.1 h
  exact ⟨row_line hsep hr.classLine hr.nameLine (hr.valueLine v hv),
    readRow_row hr.classSep hr.nameSep (hr.kindSep v hv)⟩

/-- Each answer with a value is printed as a row of its own. -/
theorem printed_rows (hcol : o.fmtColumn = true) {rs : List Reply}
    (h : ∀ r ∈ rs, r.value filename ≠ none) :
    ∃ as : List Attribute, rs.map (Reply.attribute filename) = as.map some ∧
      printed o filename rs = (as.map (Attribute.row o.fmtSep)).flatMap (· ++ [char '\n']) := by
  induction rs with
  | nil => exact ⟨[], rfl, rfl⟩
  | cons r rs ih =>
    obtain ⟨v, hv⟩ := Option.ne_none_iff_exists'.1 (h r (by simp))
    obtain ⟨as, has, hprinted⟩ := ih fun r' h' => h r' (by simp [h'])
    have ha : r.attribute filename = some ⟨_, _, v⟩ := congrArg (Option.map _) hv
    refine ⟨_ :: as, by rw [List.map_cons, List.map_cons, has, ha], ?_⟩
    rw [printed, List.flatMap_cons, entry_shown hcol ha, List.map_cons, List.flatMap_cons,
      ← hprinted, printed]

theorem count_printed (hcol : o.fmtColumn = true) (hsep : o.fmtSep ≠ char '\n') {rs : List Reply}
    (hplain : ∀ r ∈ rs, r.Plain o.fmtSep filename) :
    (printed o filename rs).count (char '\n') = rs.countP fun r => (r.value filename).isSome := by
  induction rs with
  | nil => rfl
  | cons r rs ih =>
    have hr := hplain r (by simp)
    rw [printed, List.flatMap_cons, List.count_append, List.countP_cons, Nat.add_comm]
    congr 1
    · exact ih fun r' h' => hplain r' (by simp [h'])
    · cases hv : r.value filename with
      | none => exact List.count_eq_zero.2 (entry_hidden hcol hsep hr hv)
      | some v =>
        have ha : r.attribute filename = some ⟨_, _, v⟩ := congrArg (Option.map _) hv
        rw [entry_shown hcol ha, List.count_append,
          List.count_eq_zero.2 (hr.row hsep ha).1]
        simp

/-- The names of the columns. -/
def headRows (o : Options) : List (List UInt8) :=
  if o.fmtNoHeader then []
  else
    [ascii "class" ++ o.fmtSep :: (ascii "attribute" ++ o.fmtSep :: (ascii "type" ++
      o.fmtSep :: ascii "value"))]

theorem header_rows (hcol : o.fmtColumn = true) :
    header o = (headRows o).flatMap (· ++ [char '\n']) := by
  have hline : ascii "value\n" = ascii "value" ++ [char '\n'] := rfl
  unfold header headRows
  cases hhead : o.fmtNoHeader <;> simp [hcol, hline]

theorem headRows_line (hsep : o.fmtSep ≠ char '\n') : ∀ row ∈ headRows o, char '\n' ∉ row := by
  have h1 : char '\n' ∉ ascii "class" := by decide
  have h2 : char '\n' ∉ ascii "attribute" := by decide
  have h3 : char '\n' ∉ ascii "type" := by decide
  have h4 : char '\n' ∉ ascii "value" := by decide
  intro row hrow
  unfold headRows at hrow
  split_ifs at hrow
  · cases hrow
  · rw [List.mem_singleton.1 hrow]
    simp [h1, h2, h3, h4, hsep.symm]

theorem length_headRows (o : Options) : (headRows o).length = if o.fmtNoHeader then 0 else 1 := by
  unfold headRows
  split_ifs <;> rfl

/-- With `-C` the rows of a run are read back as its answers if and only if each of them has a
value that is printed: none is missing, and none has octets for which the file does not open. -/
theorem rows_read_iff (o : Options) (q : IasData) (file : List UInt8) (es : List Event)
    (hcol : o.fmtColumn = true) (hsep : o.fmtSep ≠ char '\n')
    (hplain : ∀ r ∈ answered o es, r.Plain o.fmtSep q.filename) :
    readRows o (run o q (.ok ()) file es).out = (answered o es).map (Reply.attribute q.filename) ↔
      ∀ r ∈ answered o es, r.value q.filename ≠ none := by
  rw [readRows, ← length_headRows, (run_asked o q file es).1, header_rows hcol]
  constructor
  · intro h
    have hlen := congrArg List.length h
    have hhead : ((headRows o).flatMap (· ++ [char '\n'])).count (char '\n') =
        (headRows o).length := by
      rw [← length_lines, lines_rows (headRows_line hsep)]
    rw [List.length_drop, List.length_map, length_lines, List.count_append, hhead,
      Nat.add_sub_cancel_left, count_printed hcol hsep hplain, List.length_map,
      List.countP_eq_length] at hlen
    exact fun r hr => Option.isSome_iff_ne_none.1 (hlen r hr)
  · intro h
    obtain ⟨as, has, hprinted⟩ := printed_rows hcol h
    have hrows : ∀ a ∈ as, char '\n' ∉ a.row o.fmtSep ∧
        readRow o.fmtSep (a.row o.fmtSep) = some a := by
      intro a ha
      obtain ⟨r, hr, hra⟩ := List.mem_map.1 (has ▸ List.mem_map_of_mem ha :
        some a ∈ (answered o es).map (Reply.attribute q.filename))
      exact (hplain r hr).row hsep hra
    have hlines : ∀ row ∈ headRows o ++ as.map (Attribute.row o.fmtSep), char '\n' ∉ row := by
      intro row hrow
      rcases List.mem_append.1 hrow with hrow | hrow
      · exact headRows_line hsep row hrow
      · obtain ⟨a, ha, rfl⟩ := List.mem_map.1 hrow
        exact (hrows a ha).1
    rw [hprinted, ← List.flatMap_append, lines_rows hlines, List.map_append, has,
      List.drop_left' (List.length_map ..), List.map_map]
    exact List.map_congr_left fun a ha => (hrows a ha).2

/-- The name of a device, as it is stored in its IAS. -/
def deviceName : Reply :=
  ⟨true, strncpy (ascii "Device") 64 ++ strncpy (ascii "DeviceName") 256 ++
    [3, 0, 0, 0, 2, 0, 0x50, 0x43, 0], true, 0⟩

theorem rows_read_twice :
    readRows ⟨1, 2, true, false, char ':'⟩
      (run ⟨1, 2, true, false, char ':'⟩ ⟨true, 0, [], [], [], 1, 1⟩ (.ok ()) []
        [.turn deviceName, .turn deviceName]).out =
      [some ⟨ascii "Device", ascii "DeviceName", .text (ascii "PC")⟩,
        some ⟨ascii "Device", ascii "DeviceName", .text (ascii "PC")⟩] := by
  have hplain : deviceName.Plain (char ':') [] :=
    ⟨by decide +kernel, by decide +kernel, by decide +kernel, by decide +kernel,
      by decide +kernel, by decide +kernel⟩
  have hanswered : answered ⟨1, 2, true, false, char ':'⟩ [.turn deviceName, .turn deviceName] =
      [deviceName, deviceName] := by decide +kernel
  refine ((rows_read_iff ⟨1, 2, true, false, char ':'⟩ ⟨true, 0, [], [], [], 1, 1⟩ []
    [.turn deviceName, .turn deviceName] rfl (by decide) ?_).2 ?_).trans ?_
  · rw [hanswered]
    simpa using hplain
  · decide +kernel
  · decide +kernel

end Irda
