import IrdaUtils.Spec.Irsockets
import IrdaUtils.Proofs.Devlist

/-! What is printed of a text that is typed. The end mark is found only in front of what a call
returns: it is printed behind a text that does not end with a line, and by `irprintfx` also
whenever it comes together with the bytes before it. -/

namespace Irsockets

open Irattach

/-! ### Pieces of a text -/

theorem readLine_full {l : List UInt8} (h : 0x0a ∉ l) (s : List UInt8) :
    readLine l.length (l ++ s) = (l, s) := by
  induction l with
  | nil => rfl
  | cons b l ih =>
    have hb : b ≠ 0x0a := (List.ne_of_not_mem_cons h).symm
    rw [List.length_cons, List.cons_append, readLine, if_neg hb, ih (List.not_mem_of_not_mem_cons h)]

theorem fgetsAll_nil (n : ℕ) : fgetsAll n [] = [] := by
  rw [fgetsAll]

theorem fgetsAll_piece {n : ℕ} {s l rest : List UInt8} (hne : s ≠ [])
    (h : readLine (n + 1) s = (l, rest)) : fgetsAll n s = l :: fgetsAll n rest := by
  obtain ⟨b, t, rfl⟩ := List.exists_cons_of_ne_nil hne
  rw [fgetsAll, h]

/-- The last line, without its end. -/
theorem fgetsAll_last {n : ℕ} {l : List UInt8} (h : 0x0a ∉ l) (hne : l ≠ []) (hlen : l.length ≤ n + 1) :
    fgetsAll n l = [l] := by
  rw [fgetsAll_piece hne (readLine_last h (n + 1) hlen), fgetsAll_nil]

theorem fgetsAll_line {n : ℕ} {l : List UInt8} (h : 0x0a ∉ l) (hlen : l.length ≤ n) (s : List UInt8) :
    fgetsAll n (l ++ 0x0a :: s) = (l ++ [0x0a]) :: fgetsAll n s :=
  fgetsAll_piece (by simp) (readLine_cons h s (n + 1) (Nat.lt_succ_of_le hlen))

/-- The front of a line that is too long for the buffer. -/
theorem fgetsAll_full {n : ℕ} {l : List UInt8} (h : 0x0a ∉ l) (hlen : l.length = n + 1)
    (s : List UInt8) : fgetsAll n (l ++ s) = l :: fgetsAll n s := by
  have hne : l ++ s ≠ [] := by
    have : l ≠ [] := List.ne_nil_of_length_eq_add_one hlen
    simp [this]
  exact fgetsAll_piece hne (hlen ▸ readLine_full h s)

/-- Induction over a text as one `fgets` after the other takes it apart. -/
theorem fgets_induction (n : ℕ) {P : List UInt8 → Prop} (nil : P [])
    (last : ∀ l, 0x0a ∉ l → l ≠ [] → l.length ≤ n → P l)
    (line : ∀ l s, 0x0a ∉ l → l.length ≤ n → P s → P (l ++ 0x0a :: s))
    (full : ∀ l s, 0x0a ∉ l → l.length = n + 1 → P s → P (l ++ s)) : ∀ s, P s := by
  have hall : ∀ (k : ℕ) (s : List UInt8), s.length = k → P s := by
    intro k
    induction k using Nat.strong_induction_on with
    | _ k ih =>
      rintro s rfl
      -- a front of `n + 1` bytes without the end of a line
      have hlong : ∀ l, 0x0a ∉ l → l <+: s → n < l.length → P s := by
        rintro l hl ⟨rest, rfl⟩ hlen
        rw [← List.take_append_drop (n + 1) l, List.append_assoc]
        refine full _ _ (fun h => hl (List.mem_of_mem_take h)) ?_ (ih _ ?_ _ rfl)
        · rw [List.length_take]
          omega
        · simp only [List.length_append, List.length_drop]
          omega
      by_cases hnl : 0x0a ∈ s
      · obtain ⟨l, rest, e, hl⟩ := List.eq_append_cons_of_mem hnl
        rcases Nat.lt_or_ge n l.length with hlen | hlen
        · exact hlong l hl ⟨0x0a :: rest, e.symm⟩ hlen
        · have hrest : rest.length < s.length := by
            rw [e, List.length_append, List.length_cons]
            omega
          rw [e]
          exact line l rest hl hlen (ih _ hrest rest rfl)
      · rcases Nat.lt_or_ge n s.length with hlen | hlen
        · exact hlong s hnl (List.prefix_refl s) hlen
        · by_cases hs : s = []
          · rw [hs]
            exact nil
          · exact last s hnl hs hlen
  exact fun s => hall _ s rfl

/-! ### The sender -/

/-- Neither a zero nor an end mark. -/
def Plain (t : List UInt8) : Prop := ∀ b ∈ t, b ≠ 0 ∧ b ≠ endMark

theorem Plain.of_append {s t : List UInt8} (h : Plain (s ++ t)) : Plain s ∧ Plain t :=
  ⟨fun b hb => h b (List.mem_append_left _ hb), fun b hb => h b (List.mem_append_right _ hb)⟩

theorem Plain.append {s t : List UInt8} (hs : Plain s) (ht : Plain t) : Plain (s ++ t) := by
  intro b hb
  rcases List.mem_append.1 hb with h | h
  · exact hs b h
  · exact ht b h

theorem Plain.cstr {t : List UInt8} (h : Plain t) : cstr t = t := by
  rw [Irattach.cstr, List.takeWhile_eq_self_iff]
  intro b hb
  simpa using (h b hb).1

theorem Plain.head {t : List UInt8} (h : Plain t) {b : UInt8} (hb : b = 0 ∨ b = endMark) :
    t.head? ≠ some b := by
  intro he
  have hmem := h b (List.mem_of_mem_head? he)
  rcases hb with rfl | rfl
  · exact hmem.1 rfl
  · exact hmem.2 rfl

theorem fgetsAll_plain (n : ℕ) (s : List UInt8) (h : Plain s) : ∀ p ∈ fgetsAll n s, Plain p := by
  revert h
  refine fgets_induction n (P := fun s => Plain s → ∀ p ∈ fgetsAll n s, Plain p) ?_ ?_ ?_ ?_ s
  · intro _
    simp [fgetsAll_nil]
  · intro l hl hne hlen h
    rw [fgetsAll_last hl hne (by omega)]
    simpa using h
  · intro l s hl hlen ih h
    have hcut : l ++ 0x0a :: s = (l ++ [0x0a]) ++ s := by simp
    rw [fgetsAll_line hl hlen]
    rw [hcut] at h
    exact List.forall_mem_cons.2 ⟨h.of_append.1, ih h.of_append.2⟩
  · intro l s hl hlen ih h
    rw [fgetsAll_full hl hlen]
    exact List.forall_mem_cons.2 ⟨h.of_append.1, ih h.of_append.2⟩

/-- What is sent of a text: the pieces in front of the first that starts with a dot. -/
def typed (stdin : List UInt8) : List UInt8 :=
  ((fgetsAll 4094 stdin).takeWhile fun p => p.head? ≠ some dot).flatten

theorem irscanfLoop_flatten (ps : List (List UInt8)) (h : ∀ p ∈ ps, Plain p) :
    (irscanfLoop ps).flatten = (ps.takeWhile fun p => p.head? ≠ some dot).flatten ++ [endMark] := by
  induction ps with
  | nil => rfl
  | cons p ps ih =>
    obtain ⟨hp, hps⟩ := List.forall_mem_cons.1 h
    rw [irscanfLoop]
    by_cases hdot : p.head? = some dot
    · rw [if_pos hdot, List.takeWhile_cons_of_neg (by simpa using hdot)]
      rfl
    · rw [if_neg hdot, if_neg (hp.head (.inr rfl)), List.takeWhile_cons_of_pos (by simpa using hdot),
        List.flatten_cons, List.flatten_cons, ih hps, hp.cstr, List.append_assoc]

theorem irscanf_flatten {stdin : List UInt8} (h : Plain stdin) :
    (irscanf stdin).flatten = typed stdin ++ [endMark] :=
  irscanfLoop_flatten _ (fgetsAll_plain 4094 stdin h)

theorem typed_plain {stdin : List UInt8} (h : Plain stdin) : Plain (typed stdin) := by
  intro b hb
  obtain ⟨p, hp, hbp⟩ := List.mem_flatten.1 hb
  exact fgetsAll_plain 4094 stdin h p ((List.takeWhile_prefix _).subset hp) b hbp

/-! ### The end mark in the stream -/

/-- The bytes behind the last end of a line, when `n` stand in front of the text. -/
def columnFrom (n : ℕ) (t : List UInt8) : ℕ := t.foldl (fun n b => if b = 0x0a then 0 else n + 1) n

def column (t : List UInt8) : ℕ := columnFrom 0 t

theorem columnFrom_noline {l : List UInt8} (h : 0x0a ∉ l) (n : ℕ) : columnFrom n l = n + l.length := by
  induction l generalizing n with
  | nil => rfl
  | cons b l ih =>
    have hb : b ≠ 0x0a := (List.ne_of_not_mem_cons h).symm
    have hstep : columnFrom n (b :: l) = columnFrom (n + 1) l := by
      rw [columnFrom, List.foldl_cons, if_neg hb, columnFrom]
    rw [hstep, ih (List.not_mem_of_not_mem_cons h), List.length_cons]
    omega

theorem column_line (l s : List UInt8) : column (l ++ 0x0a :: s) = column s := by
  rw [column, columnFrom, List.foldl_append, List.foldl_cons, if_pos rfl, column, columnFrom]

theorem columnFrom_mod (k n : ℕ) (s : List UInt8) : columnFrom (n + k) s % k = columnFrom n s % k := by
  induction s generalizing n with
  | nil => exact Nat.add_mod_right n k
  | cons b s ih =>
    rw [columnFrom, columnFrom, List.foldl_cons, List.foldl_cons]
    by_cases hb : b = 0x0a
    · rw [if_pos hb, if_pos hb]
    · rw [if_neg hb, if_neg hb, Nat.add_right_comm]
      exact ih (n + 1)

theorem column_full {l : List UInt8} (h : 0x0a ∉ l) (s : List UInt8) :
    column (l ++ s) % l.length = column s % l.length := by
  have hcut : column (l ++ s) = columnFrom (0 + l.length) s := by
    rw [← columnFrom_noline h 0, column, columnFrom, List.foldl_append]
    rfl
  rw [hcut, columnFrom_mod, column]

/-! ### `irprintf` -/

theorem irprintfLoop_plain {p : List UInt8} (h : Plain p) (ps : List (List UInt8)) :
    irprintfLoop (p :: ps) = p ++ irprintfLoop ps := by
  rw [irprintfLoop, if_neg (h.head (.inr rfl)), if_neg (h.head (.inl rfl)), h.cstr]

/-- A piece with the end mark behind it. -/
theorem irprintfLoop_marked {l : List UInt8} (h : Plain l) (hne : l ≠ []) :
    irprintfLoop [l ++ [endMark]] = l ++ [endMark] := by
  obtain ⟨b, t, rfl⟩ := List.exists_cons_of_ne_nil hne
  have hmark : (b :: t ++ [endMark]).head? ≠ some endMark := h.head (.inr rfl)
  have hzero : (b :: t ++ [endMark]).head? ≠ some 0 := h.head (.inl rfl)
  have hcstr : cstr (b :: t ++ [endMark]) = b :: t ++ [endMark] := by
    rw [cstr, List.takeWhile_eq_self_iff]
    intro x hx
    rcases List.mem_append.1 hx with hx | hx
    · simpa using (h x hx).1
    · rw [List.mem_singleton.1 hx]
      rfl
  rw [irprintfLoop, if_neg hmark, if_neg hzero, hcstr, irprintfLoop, List.append_nil]

/-- What `irprintf` makes of a text with the end mark behind it. -/
theorem irprintf_marked (t : List UInt8) (h : Plain t) :
    irprintf (t ++ [endMark]) = t ++ if column t % 4097 = 0 then [] else [endMark] := by
  revert h
  refine fgets_induction 4096 (P := fun t => Plain t → irprintf (t ++ [endMark]) =
    t ++ if column t % 4097 = 0 then [] else [endMark]) ?_ ?_ ?_ ?_ t
  · intro _
    rw [irprintf, List.nil_append, fgetsAll_last (by decide) (by decide) (by decide)]
    rfl
  · intro l hl hne hlen h
    have hl' : 0x0a ∉ l ++ [endMark] := by
      intro hmem
      rcases List.mem_append.1 hmem with hmem | hmem
      · exact hl hmem
      · exact absurd (List.mem_singleton.1 hmem) (by decide)
    have hpos := List.length_pos_iff.2 hne
    have hcol : column l = l.length := (columnFrom_noline hl 0).trans (Nat.zero_add _)
    rw [irprintf, fgetsAll_last hl' (by simp) (by simp; omega), irprintfLoop_marked h hne, hcol,
      if_neg (by omega)]
  · intro l s hl hlen ih h
    have hcut : l ++ 0x0a :: s = (l ++ [0x0a]) ++ s := by simp
    have hplain := h
    rw [hcut] at hplain
    rw [column_line, irprintf, List.append_assoc, List.cons_append, fgetsAll_line hl hlen,
      irprintfLoop_plain hplain.of_append.1]
    change (l ++ [0x0a]) ++ irprintf (s ++ [endMark]) = _
    rw [ih hplain.of_append.2, hcut, List.append_assoc (l ++ [0x0a])]
  · intro l s hl hlen ih h
    have hcol : column (l ++ s) % 4097 = column s % 4097 := by
      have := column_full hl s
      rwa [hlen] at this
    rw [hcol, irprintf, List.append_assoc, fgetsAll_full hl hlen, irprintfLoop_plain h.of_append.1]
    change l ++ irprintf (s ++ [endMark]) = _
    rw [ih h.of_append.2, List.append_assoc]

/-! ### Short lines -/

/-- The text in front of the first line that starts with a dot. -/
def beforeDot : Bool → List UInt8 → List UInt8
  | _, [] => []
  | lineStart, b :: s => if lineStart ∧ b = dot then [] else b :: beforeDot (b = 0x0a) s

theorem beforeDot_inside {l : List UInt8} (h : 0x0a ∉ l) (s : List UInt8) :
    beforeDot false (l ++ 0x0a :: s) = l ++ 0x0a :: beforeDot true s ∧ beforeDot false l = l := by
  induction l with
  | nil => exact ⟨by simp [beforeDot], rfl⟩
  | cons b l ih =>
    have hb : b ≠ 0x0a := (List.ne_of_not_mem_cons h).symm
    obtain ⟨h1, h2⟩ := ih (List.not_mem_of_not_mem_cons h)
    constructor
    · rw [List.cons_append, beforeDot, if_neg (by simp), decide_eq_false hb, h1, List.cons_append]
    · rw [beforeDot, if_neg (by simp), decide_eq_false hb, h2]

theorem beforeDot_line {l : List UInt8} (h : 0x0a ∉ l) (s : List UInt8)
    (hdot : (l ++ 0x0a :: s).head? ≠ some dot) :
    beforeDot true (l ++ 0x0a :: s) = l ++ 0x0a :: beforeDot true s := by
  cases l with
  | nil =>
    rw [List.nil_append, beforeDot, if_neg (by decide)]
    rfl
  | cons b l =>
    have hb : b ≠ 0x0a := (List.ne_of_not_mem_cons h).symm
    have hd : b ≠ dot := by simpa using hdot
    rw [List.cons_append, beforeDot, if_neg (by simp [hd]), decide_eq_false hb,
      (beforeDot_inside (List.not_mem_of_not_mem_cons h) s).1, List.cons_append]

/-- Without long lines the pieces are the lines. -/
theorem typed_short (s : List UInt8) (h : ∀ l ∈ textLines s, l.length < 4095) :
    typed s = beforeDot true s := by
  revert h
  refine fgets_induction 4094 (P := fun s => (∀ l ∈ textLines s, l.length < 4095) →
    typed s = beforeDot true s) ?_ ?_ ?_ ?_ s
  · intro _
    rw [typed, fgetsAll_nil]
    rfl
  · intro l hl hne hlen _
    rw [typed, fgetsAll_last hl hne (by omega)]
    obtain ⟨b, t, rfl⟩ := List.exists_cons_of_ne_nil hne
    have hb : b ≠ 0x0a := (List.ne_of_not_mem_cons hl).symm
    by_cases hd : b = dot
    · subst hd
      rfl
    · rw [List.takeWhile_cons_of_pos (by simpa using hd), beforeDot, if_neg (by simp [hd]),
        decide_eq_false hb, (beforeDot_inside (List.not_mem_of_not_mem_cons hl) []).2]
      simp
  · intro l s hl hlen ih h
    rw [textLines_cons hl] at h
    rw [typed, fgetsAll_line hl hlen]
    have hhead : (l ++ [0x0a]).head? = (l ++ 0x0a :: s).head? := by
      cases l <;> rfl
    by_cases hd : (l ++ 0x0a :: s).head? = some dot
    · rw [List.takeWhile_cons_of_neg (by simpa [hhead] using hd)]
      obtain ⟨b, t, e⟩ := List.exists_cons_of_ne_nil (show l ++ 0x0a :: s ≠ [] by simp)
      rw [e] at hd ⊢
      rw [beforeDot, if_pos ⟨rfl, by simpa using hd⟩]
      rfl
    · rw [List.takeWhile_cons_of_pos (by simpa [hhead] using hd), beforeDot_line hl s hd,
        List.flatten_cons]
      change _ ++ typed s = _
      rw [ih fun l' h' => h l' (by simp [h'])]
      simp
  · intro l s hl hlen _ h
    exfalso
    by_cases hs : 0x0a ∈ s
    · obtain ⟨l', rest, rfl, hl'⟩ := List.eq_append_cons_of_mem hs
      have hno : 0x0a ∉ l ++ l' := by
        intro hmem
        exact (List.mem_append.1 hmem).elim hl hl'
      rw [← List.append_assoc, textLines_cons hno] at h
      have := h (l ++ l') (by simp)
      rw [List.length_append] at this
      omega
    · have hno : 0x0a ∉ l ++ s := by
        intro hmem
        exact (List.mem_append.1 hmem).elim hl hs
      have hne : l ++ s ≠ [] := by
        have : l ≠ [] := List.ne_nil_of_length_eq_add_one hlen
        simp [this]
      rw [textLines_last hno hne] at h
      have := h (l ++ s) (by simp)
      rw [List.length_append] at this
      omega

/-- For every text without zeros and end marks: `irprintf` prints the pieces in front of the
first that starts with a dot, and behind them the end mark, unless it comes at the start of a
piece of its own. Where all lines fit into the buffer of `irscanf`, these pieces are the lines
up to the first that starts with a dot. -/
theorem text_printed (stdin : List UInt8) (h : Plain stdin) :
    irprintf (irscanf stdin).flatten =
        typed stdin ++ (if column (typed stdin) % 4097 = 0 then [] else [endMark]) ∧
      ((∀ l ∈ textLines stdin, l.length < 4095) → typed stdin = beforeDot true stdin) := by
  refine ⟨?_, typed_short stdin⟩
  rw [irscanf_flatten h, irprintf_marked _ (typed_plain h)]

/-- A text of one short line that ends behind a second one with a dot. -/
theorem text_printed_dot :
    irprintf (irscanf [0x68, 0x69, 0x0a, 0x2e, 0x0a, 0x68]).flatten = [0x68, 0x69, 0x0a] := by
  have h : Plain [0x68, 0x69, 0x0a, 0x2e, 0x0a, 0x68] := by
    intro b hb
    simp only [List.mem_cons, List.not_mem_nil, or_false] at hb
    rcases hb with rfl | rfl | rfl | rfl | rfl | rfl <;> decide
  obtain ⟨hprint, hshort⟩ := text_printed [0x68, 0x69, 0x0a, 0x2e, 0x0a, 0x68] h
  rw [hprint, hshort (by decide)]
  rfl

/-! ### `irprintfx` -/

theorem irprintfx_plain {c : List UInt8} (h : Plain c) (hne : c ≠ []) (cs : List (List UInt8)) :
    irprintfx (c :: cs) = c ++ irprintfx cs := by
  rw [irprintfx, if_neg (not_or.2 ⟨hne, h.head (.inr rfl)⟩), if_neg (h.head (.inl rfl))]

/-- The text with its end mark in one read. -/
theorem irprintfx_last {t : List UInt8} (h : Plain t) :
    irprintfx [t ++ [endMark]] = if t = [] then [] else t ++ [endMark] := by
  cases t with
  | nil => rfl
  | cons b t =>
    have hmark : (b :: t ++ [endMark]).head? ≠ some endMark := h.head (.inr rfl)
    have hzero : (b :: t ++ [endMark]).head? ≠ some 0 := h.head (.inl rfl)
    rw [irprintfx, if_neg (not_or.2 ⟨by simp, hmark⟩), if_neg hzero, if_neg (by simp), irprintfx,
      List.append_nil]

/-- The first read has a front of the text, or is the last one, with all of the text. -/
theorem read_cases {t c r : List UInt8} (h : c ++ r <+: t ++ [endMark]) :
    (∃ t', t = c ++ t' ∧ r <+: t' ++ [endMark]) ∨ (c = t ++ [endMark] ∧ r = []) := by
  obtain ⟨z, e⟩ := h
  rw [List.append_assoc] at e
  rcases List.append_eq_append_iff.1 e with ⟨t', rfl, e'⟩ | ⟨u, rfl, e'⟩
  · exact .inl ⟨t', rfl, z, e'⟩
  · cases u with
    | nil => exact .inl ⟨[], by simp, z, by simpa using e'.symm⟩
    | cons b u =>
      rw [List.cons_append, List.cons.injEq] at e'
      obtain ⟨rfl, e''⟩ := e'
      obtain ⟨rfl, e3⟩ := List.append_eq_nil_iff.1 e''.symm
      exact .inr ⟨rfl, (List.append_eq_nil_iff.1 e3).1⟩

theorem irprintfx_reads (cs : List (List UInt8)) :
    ∀ t, Plain t → (∀ c ∈ cs, c ≠ []) → cs.flatten <+: t ++ [endMark] →
      irprintfx cs = if cs.getLast? = some [endMark] then t else cs.flatten := by
  induction cs with
  | nil => intro t _ _ _; rfl
  | cons c cs ih =>
    intro t h hne hpre
    obtain ⟨hc, hcs⟩ := List.forall_mem_cons.1 hne
    rw [List.flatten_cons] at hpre
    rcases read_cases hpre with ⟨t', rfl, hrest⟩ | ⟨rfl, hrest⟩
    · have hplain := h.of_append
      rw [irprintfx_plain hplain.1 hc, ih t' hplain.2 hcs hrest]
      cases cs with
      | nil =>
        have hmark : c ≠ [endMark] := by
          rintro rfl
          exact hplain.1.head (.inr rfl) rfl
        simp [hmark]
      | cons c' cs =>
        rw [List.getLast?_cons_cons, List.flatten_cons]
        split_ifs <;> rfl
    · have hcs0 : cs = [] := by
        cases cs with
        | nil => rfl
        | cons c' cs =>
          rw [List.flatten_cons] at hrest
          exact absurd (List.append_eq_nil_iff.1 hrest).1 (hcs c' (by simp))
      subst hcs0
      rw [irprintfx_last h]
      cases t with
      | nil => rfl
      | cons b t => simp

/-- For every text without zeros and end marks, and however the stream is cut into reads, also
when it breaks off: `irprintfx` prints all that is read, with the end mark, unless the end
mark is read by itself; only then it is not printed. -/
theorem reads_printed (stdin : List UInt8) (h : Plain stdin) (reads : List (List UInt8))
    (hne : ∀ c ∈ reads, c ≠ []) (hpre : reads.flatten <+: (irscanf stdin).flatten) :
    irprintfx reads = if reads.getLast? = some [endMark] then typed stdin else reads.flatten :=
  irprintfx_reads reads (typed stdin) (typed_plain h) hne (irscanf_flatten h ▸ hpre)

/-- The end mark comes together with the line before it. -/
theorem reads_printed_mark : irprintfx [[0x68], [0x69, 0x0a, 0x03]] = [0x68, 0x69, 0x0a, 0x03] := by
  have h : Plain [0x68, 0x69, 0x0a] := by
    intro b hb
    simp only [List.mem_cons, List.not_mem_nil, or_false] at hb
    rcases hb with rfl | rfl | rfl <;> decide
  have hsent : (irscanf [0x68, 0x69, 0x0a]).flatten = [0x68, 0x69, 0x0a, 0x03] := by
    rw [irscanf_flatten h, typed_short _ (by decide)]
    rfl
  exact reads_printed [0x68, 0x69, 0x0a] h [[0x68], [0x69, 0x0a, 0x03]] (by decide)
    (by rw [hsent]; exact List.prefix_rfl)

end Irsockets
