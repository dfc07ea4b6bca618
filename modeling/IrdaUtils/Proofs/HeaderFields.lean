import IrdaUtils.Lib.Masks
import IrdaUtils.Sanity.Header
import IrdaUtils.Sanity.Loop

/-! What a reader finds in the words of a line: the addresses on both sides of the arrow, and
the numbers behind the labels. The frames whose addresses keep their order whatever the arrow
show them the wrong way round, and `parse_frmr_frame` has its arguments in the wrong order. -/

namespace Irdadump

open Words

/-! ### Numbers -/

theorem fmtX_toList (w n : ℕ) :
    (fmtX w n).toList = List.replicate (w - (Nat.toDigits 16 n).length) '0' ++ Nat.toDigits 16 n :=
  String.toList_ofList

theorem mem_fmtX {w n : ℕ} {c : Char} (h : c ∈ (fmtX w n).toList) : ∃ d < 16, c = Nat.digitChar d := by
  rw [fmtX_toList, List.mem_append] at h
  rcases h with h | h
  · exact ⟨0, by decide, List.eq_of_mem_replicate h⟩
  · exact Decimal.mem_toDigits (by decide) h

theorem not_digitChar {c : Char} (h : digit c = none) {d : ℕ} (hd : d < 16) : c ≠ Nat.digitChar d := by
  rintro rfl
  rw [digit_digitChar hd] at h
  cases h

/-- A character that is no digit. -/
theorem not_mem_fmtX {c : Char} (h : digit c = none) (w n : ℕ) : c ∉ (fmtX w n).toList := by
  intro hc
  obtain ⟨d, hd, rfl⟩ := mem_fmtX hc
  exact not_digitChar h hd rfl

theorem readHex_fmtX (w n : ℕ) : readHex (fmtX w n).toList = some n := by
  have hx : ¬ ['0', 'x'] <+: (fmtX w n).toList := fun h =>
    not_mem_fmtX (by decide) w n (h.subset (by decide : 'x' ∈ ['0', 'x']))
  rw [readHex, if_neg hx, fmtX_toList]
  exact readNat_toDigits (by decide) (by decide) _ n

theorem readHex_fmtAltX (w n : ℕ) : readHex (fmtAltX w n).toList = some n := by
  unfold fmtAltX
  split_ifs with h
  · rw [readHex_fmtX, h]
  · have hpre : ("0x" ++ fmtX (w - 2) n).toList = ['0', 'x'] ++ (fmtX (w - 2) n).toList := by
      rw [String.toList_append]
      rfl
    rw [hpre, readHex, if_pos (List.prefix_append _ _)]
    change readNat 16 (fmtX (w - 2) n).toList = _
    rw [fmtX_toList]
    exact readNat_toDigits (by decide) (by decide) _ n

theorem readDec_toString (n : ℕ) : readDec (toString n).toList = some n := by
  rw [Nat.toString_eq_repr, Nat.toList_repr]
  exact readNat_toDigits (by decide) (by decide) 0 n

/-! ### Words -/

def Blankless (w : String) : Prop := ' ' ∉ w.toList

instance (w : String) : Decidable (Blankless w) := inferInstanceAs (Decidable (' ' ∉ w.toList))

@[simp]
theorem blankless_append (v w : String) : Blankless (v ++ w) ↔ Blankless v ∧ Blankless w := by
  rw [Blankless, String.toList_append, List.mem_append, not_or]
  rfl

@[simp]
theorem blankless_fmtX (w n : ℕ) : Blankless (fmtX w n) := not_mem_fmtX (by decide) w n

@[simp]
theorem blankless_fmtAltX (w n : ℕ) : Blankless (fmtAltX w n) := by
  unfold fmtAltX
  split_ifs
  · exact blankless_fmtX w 0
  · exact (blankless_append _ _).2 ⟨by decide, blankless_fmtX _ n⟩

@[simp]
theorem blankless_repr (n : ℕ) : Blankless n.repr := by
  rw [Blankless, Nat.toList_repr]
  intro h
  obtain ⟨d, hd, hc⟩ := Decimal.mem_toDigits (by decide) h
  exact not_digitChar (by decide) (by omega) hc

@[simp]
theorem blankless_dirText (type : ℤ) : Blankless (dirText type) := by
  unfold dirText
  split_ifs <;> decide

@[simp]
theorem blankless_cmdText (cmd : UInt8) : Blankless (cmdText cmd) := by
  unfold cmdText
  split_ifs <;> decide

theorem blankless_addressWords (type : ℤ) (a b : ℕ) : ∀ w ∈ addressWords type a b, Blankless w := by
  unfold addressWords
  split_ifs <;> simp +decide

theorem blankless_headWords (type : ℤ) (s : St) (k : FrameKind) : ∀ w ∈ headWords type s k, Blankless w := by
  cases k <;>
  simp +decide [headWords, sWords, uWords, plainWords, nameWord, caWord, altCaWord, pfWord, nrWord, nsWord]
  all_goals exact blankless_addressWords type _ _

/-- The line of a frame, read as words. -/
theorem words_irlapFrame (env : Env) (type : ℤ) (s : St) :
    ∃ t rest, (parseIrlapFrame env type s).str = s.str ++ t ∧
      words t = (headWords type s s.kind).map String.toList ++ rest := by
  obtain ⟨rest, hrest⟩ := starts_irlapFrame env type s
  exact ⟨_, words rest, hrest, words_sentence (blankless_headWords type s s.kind) rest⟩

/-! ### Addresses -/

/-- The source and the destination at the first arrow: the source is where it comes from. -/
def arrowFrom (before : List Char) : List (List Char) → Option (ℕ × ℕ)
  | [] => none
  | w :: ws =>
    let behind := ws.headD []
    if w = ['>'] then Option.map₂ Prod.mk (readHex before) (readHex behind)
    else if w = ['<'] then Option.map₂ Prod.mk (readHex behind) (readHex before)
    else arrowFrom w ws

def shownAddresses (t : String) : Option (ℕ × ℕ) := arrowFrom [] (words t)

def NoArrow (w : List Char) : Prop := w ≠ ['>'] ∧ w ≠ ['<']

theorem arrowFrom_skip {w : List Char} (h : NoArrow w) (before : List Char) (ws : List (List Char)) :
    arrowFrom before (w :: ws) = arrowFrom w ws := by
  rw [arrowFrom, if_neg h.1, if_neg h.2]

theorem noArrow_fmtX (w n : ℕ) : NoArrow (fmtX w n).toList := by
  have hright : '>' ∉ (fmtX w n).toList := not_mem_fmtX (by decide) w n
  have hleft : '<' ∉ (fmtX w n).toList := not_mem_fmtX (by decide) w n
  constructor
  · intro e
    exact hright (by simp [e])
  · intro e
    exact hleft (by simp [e])

/-- Words in front of the addresses are not looked at. -/
theorem arrowFrom_words {pre : List (List Char)} (hpre : ∀ w ∈ pre, NoArrow w) {x : List Char}
    (hx : NoArrow x) (ws : List (List Char)) : ∀ before, arrowFrom before (pre ++ x :: ws) = arrowFrom x ws := by
  induction pre with
  | nil => exact fun before => arrowFrom_skip hx before ws
  | cons w pre ih =>
    intro before
    rw [List.cons_append, arrowFrom_skip (hpre w (by simp))]
    exact ih (fun w' h' => hpre w' (by simp [h'])) w

theorem arrowFrom_right (x y : ℕ) (ws : List (List Char)) :
    arrowFrom (fmtX 8 x).toList (['>'] :: (fmtX 8 y).toList :: ws) = some (x, y) := by
  rw [arrowFrom, if_pos rfl]
  simp [readHex_fmtX]

theorem arrowFrom_left (x y : ℕ) (ws : List (List Char)) :
    arrowFrom (fmtX 8 x).toList (['<'] :: (fmtX 8 y).toList :: ws) = some (y, x) := by
  rw [arrowFrom, if_neg (by decide), if_pos rfl]
  simp [readHex_fmtX]

section Addresses

variable {pre : List String} (hpre : ∀ w ∈ pre, NoArrow w.toList)
include hpre

theorem arrow_addressWords (type : ℤ) (a b : ℕ) (rest : List (List Char)) :
    arrowFrom [] ((pre ++ addressWords type a b).map String.toList ++ rest) = some (a, b) := by
  have hpre' : ∀ w ∈ pre.map String.toList, NoArrow w := List.forall_mem_map.2 hpre
  rw [List.map_append, List.append_assoc, addressWords]
  split_ifs
  · exact (arrowFrom_words hpre' (noArrow_fmtX 8 a) _ []).trans (arrowFrom_right a b rest)
  · exact (arrowFrom_words hpre' (noArrow_fmtX 8 b) _ []).trans (arrowFrom_left b a rest)

theorem arrow_plainWords (type : ℤ) (a b : ℕ) (rest : List (List Char)) :
    arrowFrom [] ((pre ++ plainWords type a b).map String.toList ++ rest) =
      some (if type ≠ 0 then (a, b) else (b, a)) := by
  have hpre' : ∀ w ∈ pre.map String.toList, NoArrow w := List.forall_mem_map.2 hpre
  rw [List.map_append, List.append_assoc, plainWords, dirText]
  split_ifs
  · exact (arrowFrom_words hpre' (noArrow_fmtX 8 a) _ []).trans (arrowFrom_right a b rest)
  · exact (arrowFrom_words hpre' (noArrow_fmtX 8 a) _ []).trans (arrowFrom_left a b rest)

end Addresses

/-- What the arrow says in the line of a frame with addresses. -/
theorem arrow_headWords (type : ℤ) {s : St} {k : FrameKind} {src dst : ℕ}
    (h : s.addresses k = some (src, dst)) (rest : List (List Char)) :
    arrowFrom [] ((headWords type s k).map String.toList ++ rest) =
      some (if type = 0 ∧ (k = .test ∨ k = .rnrm) then (dst, src) else (src, dst)) := by
  have hxid : ∀ w ∈ [nameWord "xid" s], NoArrow w.toList := by simp [NoArrow, nameWord]
  have hsnrm : ∀ w ∈ [nameWord "snrm" s, caWord s, pfWord s], NoArrow w.toList := by
    simp [NoArrow, nameWord, caWord, pfWord]
  have hua : ∀ w ∈ [nameWord "ua" s, caWord s, pfWord s], NoArrow w.toList := by
    simp [NoArrow, nameWord, caWord, pfWord]
  have htest : ∀ w ∈ [nameWord "test" s, altCaWord s, pfWord s], NoArrow w.toList := by
    simp [NoArrow, nameWord, altCaWord, pfWord]
  cases k with
  | xid =>
    cases h
    rw [if_neg (by simp)]
    exact arrow_addressWords hxid type _ _ rest
  | snrm =>
    cases h
    rw [if_neg (by simp)]
    exact arrow_addressWords hsnrm type _ _ rest
  | ua =>
    cases h
    rw [if_neg (by simp)]
    exact arrow_addressWords hua type _ _ rest
  | rnrm =>
    cases h
    refine (arrow_plainWords hsnrm type _ _ rest).trans ?_
    by_cases htype : type = 0 <;> simp [htype]
  | test =>
    cases h
    refine (arrow_plainWords htest type _ _ rest).trans ?_
    by_cases htype : type = 0 <;> simp [htype]
  | _ => cases h

/-- For every frame with addresses: source and destination are shown as they are, except for
the `TEST` and `RNRM` frames of the other side with two different addresses. -/
theorem addresses_shown_iff (env : Env) (type : ℤ) (s : St) {src dst : ℕ}
    (h : s.addresses s.kind = some (src, dst)) :
    ∃ t, (parseIrlapFrame env type s).str = s.str ++ t ∧
      (shownAddresses t = some (src, dst) ↔
        type ≠ 0 ∨ (s.kind ≠ .test ∧ s.kind ≠ .rnrm) ∨ src = dst) := by
  obtain ⟨t, rest, hstr, hwords⟩ := words_irlapFrame env type s
  refine ⟨t, hstr, ?_⟩
  rw [shownAddresses, hwords, arrow_headWords type h, Option.some.injEq]
  split_ifs with hswap
  · have hpair : (dst, src) = (src, dst) ↔ src = dst := by
      rw [Prod.mk.injEq]
      exact ⟨And.right, fun e => ⟨e.symm, e⟩⟩
    rw [hpair]
    refine ⟨fun e => .inr (.inr e), ?_⟩
    rintro (htype | hkind | e)
    · exact absurd hswap.1 htype
    · exact absurd hswap.2 (not_or.2 hkind)
    · exact e
  · refine iff_of_true rfl ?_
    rw [not_and_or, not_or] at hswap
    exact hswap.imp_right Or.inl

/-- A `TEST` command with the poll bit, from 0x12345678 to 0x9abcdef0. -/
def testPacket : St := packet [0xff, 0xf3, 0x78, 0x56, 0x34, 0x12, 0xf0, 0xde, 0xbc, 0x9a]

theorem addresses_shown_sent : testPacket.kind = .test ∧
    ∃ t, (parseIrlapFrame (plainEnv {}) 1 testPacket).str = testPacket.str ++ t ∧
      shownAddresses t = some (0x12345678, 0x9abcdef0) := by
  obtain ⟨t, hstr, hiff⟩ := addresses_shown_iff (plainEnv {}) 1 testPacket
    (show testPacket.addresses testPacket.kind = some (0x12345678, 0x9abcdef0) by decide)
  exact ⟨by decide, t, hstr, hiff.2 (.inl (by decide))⟩

/-- Received, it is shown as coming from its destination. -/
theorem test_shown_backwards :
    testPacket.addresses testPacket.kind = some (0x12345678, 0x9abcdef0) ∧
      (parseIrlapFrame (plainEnv {}) 0 testPacket).str = "test:cmd ca=0xfe pf=1 12345678 < 9abcdef0 " ∧
      shownAddresses "test:cmd ca=0xfe pf=1 12345678 < 9abcdef0 " = some (0x9abcdef0, 0x12345678) := by
  refine ⟨by decide, by decide, by decide⟩

/-! ### Labels -/

inductive Label where
  | ca
  | pf
  | nr
  | ns
  deriving DecidableEq, Repr

namespace Label

def text : Label → String
  | ca => "ca="
  | pf => "pf="
  | nr => "nr="
  | ns => "ns="

/-- The address is printed in hexadecimal. -/
def read : Label → List Char → Option ℕ
  | ca => readHex
  | _ => readDec

end Label

/-- The number behind a label. -/
def shownAfter (t : String) (l : Label) : Option ℕ := (after l.text (words t)).bind l.read

/-- The labels in the line of a frame. -/
def FrameKind.labels : FrameKind → List Label
  | .i | .frmr => [.ca, .pf, .nr, .ns]
  | .rr | .rnr | .rej | .srej => [.ca, .pf, .nr]
  | .snrm | .rnrm | .dm | .disc | .rd | .test | .ua | .ui => [.ca, .pf]
  | .xid | .unknown => []

/-- The offset of the control byte that has `nr` and `ns`. -/
def FrameKind.counted : FrameKind → ℕ
  | .frmr => 2
  | _ => 1

/-- The bits of the header that a label stands for. -/
def St.field (s : St) (k : FrameKind) : Label → ℕ
  | .ca => (s.byte 0).toNat / 2 * 2
  | .pf => (s.byte 1).toNat / 16 % 2
  | .nr => (s.byte k.counted).toNat / 32
  | .ns => (s.byte k.counted).toNat / 2 % 8

section Bits

variable (s : St) (n : ℕ)

theorem caddr_toNat : s.caddr.toNat = (s.byte 0).toNat / 2 * 2 := by
  have h : ∀ b : UInt8, (b &&& 0xfe).toNat = b.toNat / 2 * 2 := Masks.forall_byte (by decide +kernel)
  exact h _

theorem pf_toNat : s.pf.toNat = (s.byte 1).toNat / 16 % 2 := by
  have h : ∀ b : UInt8, ((b &&& 0x10) >>> 4).toNat = b.toNat / 16 % 2 := Masks.forall_byte (by decide +kernel)
  exact h _

theorem nr_toNat : (s.byte n >>> 5).toNat = (s.byte n).toNat / 32 := by
  simp [Nat.shiftRight_eq_div_pow]

theorem ns_toNat : ((s.byte n >>> 1) &&& 0x07).toNat = (s.byte n).toNat / 2 % 8 := by
  have h : ∀ b : UInt8, ((b >>> 1) &&& 0x07).toNat = b.toNat / 2 % 8 := Masks.forall_byte (by decide +kernel)
  exact h _

end Bits

def StartsWith (l : Label) (w : String) : Prop := l.text.toList <+: w.toList

theorem not_startsWith_label {l l' : Label} (h : l ≠ l') (w : String) : ¬ StartsWith l (l'.text ++ w) := by
  cases l <;> cases l' <;> simp [StartsWith, Label.text] at h ⊢

/-- A word that starts with none of the labels. -/
def Unlabelled (w : String) : Prop := ∀ l, ¬ StartsWith l w

/-- The first characters of the labels. -/
theorem unlabelled_of_head {w : String} (h : ∀ c ∈ w.toList.head?, c ∉ ['c', 'p', 'n']) : Unlabelled w := by
  have hlabel : ∀ l : Label, ∃ c ∈ ['c', 'p', 'n'], l.text.toList.head? = some c := by
    intro l
    cases l <;> simp [Label.text]
  rintro l ⟨t, ht⟩
  obtain ⟨c, hc, hhead⟩ := hlabel l
  refine h c ?_ hc
  rw [← ht, List.head?_append, hhead]
  rfl

theorem unlabelled_nameWord {name : String} (h : name.toList.head? ∉ [none, some 'c', some 'p', some 'n'])
    (s : St) : Unlabelled (nameWord name s) := by
  refine unlabelled_of_head fun c hc hmem => h ?_
  rw [nameWord, String.toList_append, String.toList_append, List.append_assoc, List.head?_append] at hc
  cases hname : name.toList.head? with
  | none => simp
  | some c' =>
    rw [hname] at hc
    cases hc
    simpa using hmem

/-- What is found behind a label in the words of a header. -/
def shownIn (ws : List String) (rest : List (List Char)) (l : Label) : Option ℕ :=
  (after l.text (ws.map String.toList ++ rest)).bind l.read

/-- A number is found behind words that start otherwise. -/
theorem shownIn_words {l : Label} {pre : List String} (hpre : ∀ w ∈ pre, ¬ StartsWith l w) {w : String}
    {n : ℕ} (hread : l.read w.toList = some n) (ws : List String) (rest : List (List Char)) :
    shownIn (pre ++ (l.text ++ w) :: ws) rest l = some n := by
  have hw : l.text.toList <+: (l.text ++ w).toList := by
    rw [String.toList_append]
    exact List.prefix_append _ _
  have hskip : (pre.map String.toList).findSome?
      (fun w => if l.text.toList <+: w then some (w.drop l.text.toList.length) else none) = none := by
    rw [List.findSome?_eq_none_iff]
    intro v hv
    obtain ⟨w', hw', rfl⟩ := List.mem_map.1 hv
    exact if_neg (hpre w' hw')
  rw [shownIn, List.map_append, List.append_assoc, after, List.findSome?_append, hskip, Option.none_or,
    List.map_cons, List.cons_append, List.findSome?_cons, if_pos hw]
  simpa using hread

/-- Words with different labels, behind words without any. -/
theorem shownIn_items {lead : List String} (hlead : ∀ w ∈ lead, Unlabelled w)
    {items : List (Label × String)} (hnodup : (items.map Prod.fst).Nodup) {l : Label} {x : String} {n : ℕ}
    (hmem : (l, x) ∈ items) (hread : l.read x.toList = some n) (tail : List String) (rest : List (List Char)) :
    shownIn (lead ++ (items.map fun p => p.1.text ++ p.2) ++ tail) rest l = some n := by
  obtain ⟨pre, post, rfl⟩ := List.append_of_mem hmem
  have hpre : ∀ w ∈ lead ++ (pre.map fun p => p.1.text ++ p.2), ¬ StartsWith l w := by
    intro w hw
    rcases List.mem_append.1 hw with hw | hw
    · exact hlead w hw l
    · obtain ⟨p, hp, rfl⟩ := List.mem_map.1 hw
      refine not_startsWith_label ?_ p.2
      rintro rfl
      rw [List.map_append, List.map_cons, List.nodup_append] at hnodup
      exact hnodup.2.2 _ (List.mem_map_of_mem hp) _ (by simp) rfl
  have h := shownIn_words hpre hread ((post.map fun p => p.1.text ++ p.2) ++ tail) rest
  simpa [List.append_assoc] using h

/-- The words of a header with a label. -/
def headItems (s : St) : FrameKind → List (Label × String)
  | .i => [(.ca, fmtX 2 s.caddr.toNat), (.pf, toString s.pf.toNat), (.nr, toString (s.byte 1 >>> 5).toNat),
      (.ns, toString ((s.byte 1 >>> 1) &&& 0x07).toNat)]
  | .rr | .rnr | .rej | .srej =>
    [(.ca, fmtX 2 s.caddr.toNat), (.pf, toString s.pf.toNat), (.nr, toString (s.byte 1 >>> 5).toNat)]
  | .snrm | .rnrm | .ua | .ui => [(.ca, fmtX 2 s.caddr.toNat), (.pf, toString s.pf.toNat)]
  | .dm | .disc | .rd | .test => [(.ca, fmtAltX 2 s.caddr.toNat), (.pf, toString s.pf.toNat)]
  | .frmr => [(.ca, fmtX 2 s.caddr.toNat), (.pf, toString (s.byte 1).toNat)]
  | .xid | .unknown => []

theorem headWords_items (type : ℤ) (s : St) (k : FrameKind) :
    ∃ lead tail, headWords type s k = lead ++ ((headItems s k).map fun p => p.1.text ++ p.2) ++ tail ∧
      ∀ w ∈ lead, Unlabelled w := by
  have hdir : Unlabelled (dirText type) := by
    unfold dirText
    split_ifs <;> exact unlabelled_of_head (by simp)
  have hempty : Unlabelled "" := unlabelled_of_head (by simp)
  cases k with
  | i => exact ⟨[nameWord "i" s, "", dirText type], [], rfl, by simp +decide [hdir, hempty, unlabelled_nameWord]⟩
  | rr => exact ⟨[nameWord "rr" s, dirText type], [], rfl, by simp +decide [hdir, unlabelled_nameWord]⟩
  | rnr => exact ⟨[nameWord "rnr" s, dirText type], [], rfl, by simp +decide [hdir, unlabelled_nameWord]⟩
  | rej => exact ⟨[nameWord "rej" s, dirText type], [], rfl, by simp +decide [hdir, unlabelled_nameWord]⟩
  | srej => exact ⟨[nameWord "srej" s, dirText type], [], rfl, by simp +decide [hdir, unlabelled_nameWord]⟩
  | snrm => exact ⟨[nameWord "snrm" s], _, rfl, by simp +decide [unlabelled_nameWord]⟩
  | rnrm => exact ⟨[nameWord "snrm" s], _, rfl, by simp +decide [unlabelled_nameWord]⟩
  | dm => exact ⟨[nameWord "dm" s, dirText type], [], rfl, by simp +decide [hdir, unlabelled_nameWord]⟩
  | disc => exact ⟨[nameWord "disc" s, dirText type], [], rfl, by simp +decide [hdir, unlabelled_nameWord]⟩
  | rd => exact ⟨[nameWord "rd" s, dirText type], [], rfl, by simp +decide [hdir, unlabelled_nameWord]⟩
  | test => exact ⟨[nameWord "test" s], _, rfl, by simp +decide [unlabelled_nameWord]⟩
  | ua => exact ⟨[nameWord "ua" s], _, rfl, by simp +decide [unlabelled_nameWord]⟩
  | frmr => exact ⟨[nameWord "frmr" s, "", dirText type], _, rfl, by simp +decide [hdir, hempty, unlabelled_nameWord]⟩
  | ui => exact ⟨[nameWord "ui" s, dirText type], _, rfl, by simp +decide [hdir, unlabelled_nameWord]⟩
  | xid => exact ⟨[], _, rfl, by simp⟩
  | unknown => exact ⟨[], [], rfl, by simp⟩

theorem headItems_nodup (s : St) (k : FrameKind) : ((headItems s k).map Prod.fst).Nodup := by
  cases k <;> simp [headItems]

/-- Except for `FRMR`, every label has its own bits. -/
theorem headItems_read (s : St) {k : FrameKind} (hk : k ≠ .frmr) {l : Label} (hl : l ∈ k.labels) :
    ∃ x, (l, x) ∈ headItems s k ∧ l.read x.toList = some (s.field k l) := by
  have hca : readHex (fmtX 2 s.caddr.toNat).toList = some (s.field k .ca) := by
    rw [readHex_fmtX, caddr_toNat, St.field]
  have halt : readHex (fmtAltX 2 s.caddr.toNat).toList = some (s.field k .ca) := by
    rw [readHex_fmtAltX, caddr_toNat, St.field]
  have hpf : readDec (toString s.pf.toNat).toList = some (s.field k .pf) := by
    rw [readDec_toString, pf_toNat, St.field]
  have hcounted : k.counted = 1 := by
    cases k <;> simp [FrameKind.counted] at hk ⊢
  have hnr : readDec (toString (s.byte 1 >>> 5).toNat).toList = some (s.field k .nr) := by
    rw [readDec_toString, nr_toNat, St.field, hcounted]
  have hns : readDec (toString ((s.byte 1 >>> 1) &&& 0x07).toNat).toList = some (s.field k .ns) := by
    rw [readDec_toString, ns_toNat, St.field, hcounted]
  cases k with
  | frmr => exact absurd rfl hk
  | xid => cases hl
  | unknown => cases hl
  | i =>
    cases l with
    | ca => exact ⟨_, by simp [headItems], hca⟩
    | pf => exact ⟨_, by simp [headItems], hpf⟩
    | nr => exact ⟨_, by simp [headItems], hnr⟩
    | ns => exact ⟨_, by simp [headItems], hns⟩
  | rr | rnr | rej | srej =>
    cases l with
    | ca => exact ⟨_, by simp [headItems], hca⟩
    | pf => exact ⟨_, by simp [headItems], hpf⟩
    | nr => exact ⟨_, by simp [headItems], hnr⟩
    | ns => simp [FrameKind.labels] at hl
  | snrm | rnrm | ua | ui =>
    cases l with
    | ca => exact ⟨_, by simp [headItems], hca⟩
    | pf => exact ⟨_, by simp [headItems], hpf⟩
    | nr => simp [FrameKind.labels] at hl
    | ns => simp [FrameKind.labels] at hl
  | dm | disc | rd | test =>
    cases l with
    | ca => exact ⟨_, by simp [headItems], halt⟩
    | pf => exact ⟨_, by simp [headItems], hpf⟩
    | nr => simp [FrameKind.labels] at hl
    | ns => simp [FrameKind.labels] at hl

theorem shown_label (type : ℤ) (s : St) {k : FrameKind} {l : Label} {x : String} {n : ℕ}
    (hmem : (l, x) ∈ headItems s k) (hread : l.read x.toList = some n) (rest : List (List Char)) :
    shownIn (headWords type s k) rest l = some n := by
  obtain ⟨lead, tail, heq, hlead⟩ := headWords_items type s k
  rw [heq]
  exact shownIn_items hlead (headItems_nodup s k) hmem hread tail rest

theorem kind_zero {s : St} (h : s.byte 1 = 0) : s.kind = .i := by
  refine if_pos ?_
  rw [St.ctrl, h]
  decide

/-- For every frame: each label of its line has its own bits of the header, unless it is an
`FRMR` frame. -/
theorem labels_shown_iff (env : Env) (type : ℤ) (s : St) :
    ∃ t, (parseIrlapFrame env type s).str = s.str ++ t ∧
      ((∀ l ∈ s.kind.labels, shownAfter t l = some (s.field s.kind l)) ↔ s.kind ≠ .frmr) := by
  obtain ⟨t, rest, hstr, hwords⟩ := words_irlapFrame env type s
  have hshown : ∀ l, shownAfter t l = shownIn (headWords type s s.kind) rest l := by
    intro l
    rw [shownAfter, hwords, shownIn]
  refine ⟨t, hstr, ?_, ?_⟩
  · -- an `FRMR` frame shows its control byte behind `pf=`
    intro hall hk
    have hpf := hall .pf (by simp [hk, FrameKind.labels])
    have hitem : (Label.pf, toString (s.byte 1).toNat) ∈ headItems s s.kind := by simp [hk, headItems]
    rw [hshown, shown_label type s hitem (readDec_toString _) rest, Option.some.injEq] at hpf
    have hzero : (s.byte 1).toNat = (0 : UInt8).toNat := by
      change (s.byte 1).toNat = (s.byte 1).toNat / 16 % 2 at hpf
      change (s.byte 1).toNat = 0
      omega
    rw [kind_zero (UInt8.toNat_inj.1 hzero)] at hk
    cases hk
  · intro hk l hl
    obtain ⟨x, hmem, hread⟩ := headItems_read s hk hl
    rw [hshown]
    exact shown_label type s hmem hread rest

/-- An `FRMR` response with the final bit, for a control byte 0x54. -/
def frmrPacket : St := packet [0x02, 0x97, 0x54]

/-- It shows 151 behind `pf=`, and its final bit behind `nr=`. -/
theorem frmr_mislabelled :
    frmrPacket.kind = .frmr ∧
      (parseIrlapFrame (plainEnv {}) 0 frmrPacket).str = "frmr:rsp  < ca=02 pf=151 ctrl=02, nr=1 ns=2 " ∧
      shownAfter "frmr:rsp  < ca=02 pf=151 ctrl=02, nr=1 ns=2 " .pf = some 151 ∧
      frmrPacket.field .frmr .pf = 1 ∧
      shownAfter "frmr:rsp  < ca=02 pf=151 ctrl=02, nr=1 ns=2 " .nr = some 1 ∧
      frmrPacket.field .frmr .nr = 2 := by
  refine ⟨by decide, by decide, by decide, by decide, by decide, by decide⟩

end Irdadump
