import IrdaUtils.Lib.Runs
import IrdaUtils.Lib.Words
import IrdaUtils.Spec.DumpMain
import IrdaUtils.Proofs.FrameKept
import IrdaUtils.Proofs.TextCopies

/-! The dumps as a format: from a printed line, whatever the decoders have put in front, the
bytes of the frame are read back. Behind the length there is no bracket in a `-b` dump, and
the text row of a `-x` dump has no end of a line. A live run so prints each frame that it
takes, up to the length that is asked for, and no other, as long as no text in a frame is
too long for the array that it is copied to. -/

namespace Irdadump
open Memory Words Stores Runs

/-! ### Reading a line -/

/-- The part of a line behind the last `c`. -/
def behindLast (c : Char) (cs : List Char) : List Char := (cs.reverse.takeWhile (· ≠ c)).reverse

/-- The part in front of the last `c`. -/
def beforeLast (c : Char) (cs : List Char) : List Char := (cs.reverse.dropWhile (· ≠ c)).tail.reverse

theorem last_append {c : Char} {t : List Char} (ht : c ∉ t) (s : List Char) :
    behindLast c (s ++ c :: t) = t ∧ beforeLast c (s ++ c :: t) = s := by
  have hrev : (s ++ c :: t).reverse = t.reverse ++ c :: s.reverse := by simp
  have hall : ∀ x ∈ t.reverse, (decide (x ≠ c)) = true := by
    intro x hx
    rw [decide_eq_true_iff]
    rintro rfl
    exact ht (List.mem_reverse.1 hx)
  constructor
  · rw [behindLast, hrev, List.takeWhile_append_of_pos hall, List.takeWhile_cons_of_neg (by simp),
      List.append_nil, List.reverse_reverse]
  · rw [beforeLast, hrev, List.dropWhile_append_of_pos hall, List.dropWhile_cons_of_neg (by simp),
      List.tail_cons, List.reverse_reverse]

def isBlank (c : Char) : Bool := c == ' ' || c == '\t' || c == '\n'

/-- The bytes of a line with a `-b` dump. -/
def undumpBytes (line : String) : List UInt8 :=
  readBytes ((behindLast ')' line.toList).filter (!isBlank ·))

/-- The bytes of a line with a `-x` dump: they are in the last row but one. -/
def undumpFrame (line : String) : List UInt8 :=
  readBytes ((behindLast '\n' (beforeLast '\n' line.toList)).filter (!isBlank ·))

/-! ### Writing one -/

theorem fmtX_byte (b : UInt8) : (fmtX 2 b.toNat).toList = hexByte b := by
  have h : ∀ n : Fin 256, (fmtX 2 n).toList = [Nat.digitChar (n / 16), Nat.digitChar (n % 16)] := by
    decide +kernel
  exact h ⟨b.toNat, b.toNat_lt⟩

theorem hexByte_digits (b : UInt8) : ∀ c ∈ hexByte b, isBlank c = false ∧ c ≠ ')' := by
  have h : ∀ d < 16, isBlank (Nat.digitChar d) = false ∧ Nat.digitChar d ≠ ')' := by decide
  have hb := b.toNat_lt
  intro c hc
  simp only [hexByte, List.mem_cons, List.not_mem_nil, or_false] at hc
  rcases hc with rfl | rfl
  · exact h _ (by omega)
  · exact h _ (Nat.mod_lt _ (by decide))

theorem filter_hexByte (b : UInt8) : (hexByte b).filter (!isBlank ·) = hexByte b := by
  rw [List.filter_eq_self]
  intro c hc
  rw [(hexByte_digits b c hc).1]
  rfl

/-- The rows of a `-b` dump have the digits, and else only blanks. -/
theorem dumpBytesText_chars (cols : ℕ) (bs : List UInt8) (i : ℕ) :
    (dumpBytesText cols i bs).toList.filter (!isBlank ·) = bs.flatMap hexByte ∧
      ')' ∉ (dumpBytesText cols i bs).toList := by
  induction bs generalizing i with
  | nil => exact ⟨rfl, by simp [dumpBytesText]⟩
  | cons b bs ih =>
    obtain ⟨ih1, ih2⟩ := ih (i + 1)
    have hrow : (if i % cols = 0 then "\n\t" else "").toList.filter (!isBlank ·) = [] ∧
        ')' ∉ (if i % cols = 0 then "\n\t" else "").toList := by
      split_ifs <;> decide
    simp only [dumpBytesText, String.toList_append, List.filter_append, fmtX_byte, filter_hexByte,
      hrow.1, ih1, List.flatMap_cons, List.nil_append]
    constructor
    · rw [show (" ".toList.filter (!isBlank ·)) = [] by decide, List.append_nil]
    · simp only [List.mem_append, not_or]
      exact ⟨⟨⟨hrow.2, fun h => (hexByte_digits b _ h).2 rfl⟩, by decide⟩, ih2⟩

theorem undumpBytes_line (t : String) (cols : ℕ) (bs : List UInt8) :
    undumpBytes (t ++ ") " ++ dumpBytesText cols 0 bs) = bs := by
  obtain ⟨h1, h2⟩ := dumpBytesText_chars cols bs 0
  have hline : (t ++ ") " ++ dumpBytesText cols 0 bs).toList =
      t.toList ++ ')' :: (' ' :: (dumpBytesText cols 0 bs).toList) := by
    simp [String.toList_append]
  have hno : ')' ∉ ' ' :: (dumpBytesText cols 0 bs).toList := by
    rw [List.mem_cons, not_or]
    exact ⟨by decide, h2⟩
  rw [undumpBytes, hline, (last_append hno _).1, List.filter_cons_of_neg (by decide), h1,
    readBytes_flatMap]

theorem dumpChar_line (b : UInt8) : dumpChar b ≠ '\n' := by
  have h : ∀ n : Fin 256, dumpChar (UInt8.ofNat n) ≠ '\n' := by decide +kernel
  have hb := h ⟨b.toNat, b.toNat_lt⟩
  rwa [UInt8.ofNat_toNat] at hb

/-- The text row of a `-x` dump. -/
theorem textRow_line (bs : List UInt8) :
    '\n' ∉ (String.join (bs.map fun b => " " ++ String.singleton (dumpChar b))).toList := by
  rw [String.toList_join, List.flatMap_map]
  intro h
  obtain ⟨b, -, hb⟩ := List.mem_flatMap.1 h
  rw [String.toList_append, String.toList_singleton, List.mem_append] at hb
  rcases hb with hb | hb
  · exact absurd hb (by decide)
  · exact dumpChar_line b (List.mem_singleton.1 hb).symm

theorem undumpFrame_line (t : String) (bs : List UInt8) : undumpFrame (t ++ dumpFrameText bs) = bs := by
  set row := (String.join (bs.map fun b => " " ++ String.singleton (dumpChar b))).toList with hrow
  have hhex : (String.join (bs.map fun b => fmtX 2 b.toNat)).toList = bs.flatMap hexByte := by
    rw [String.toList_join, List.flatMap_map]
    exact List.flatMap_congr fun b _ => fmtX_byte b
  have hline : (t ++ dumpFrameText bs).toList =
      (t.toList ++ '\n' :: ('\t' :: bs.flatMap hexByte)) ++ '\n' :: ('\t' :: row) := by
    simp only [dumpFrameText, String.toList_append, hhex, ← hrow]
    simp
  have hlast : '\n' ∉ '\t' :: row := by
    rw [List.mem_cons, not_or]
    exact ⟨by decide, textRow_line bs⟩
  have hdigits : ∀ c ∈ bs.flatMap hexByte, isBlank c = false := by
    intro c hc
    obtain ⟨b, -, hb⟩ := List.mem_flatMap.1 hc
    exact (hexByte_digits b c hb).1
  have hno : '\n' ∉ '\t' :: bs.flatMap hexByte := by
    rw [List.mem_cons, not_or]
    exact ⟨by decide, fun h => absurd (hdigits _ h) (by decide)⟩
  have hfilter : (bs.flatMap hexByte).filter (!isBlank ·) = bs.flatMap hexByte := by
    rw [List.filter_eq_self]
    intro c hc
    rw [hdigits c hc]
    rfl
  rw [undumpFrame, hline, (last_append hlast _).2, (last_append hno _).1,
    List.filter_cons_of_neg (by decide), hfilter, readBytes_flatMap]

/-- The bytes of a line, where one of the two dumps is asked for. -/
def undump (cfg : Config) (line : String) : List UInt8 :=
  if cfg.dumpBytes then undumpBytes line else undumpFrame line

theorem undump_line {cfg : Config} (h : cfg.dumpBytes ≠ cfg.dumpFrame) (t : String) (bs : List UInt8) :
    undump cfg (t ++ ") " ++ dumpText cfg bs) = bs := by
  cases hb : cfg.dumpBytes with
  | true =>
    have hf : cfg.dumpFrame = false := by
      cases hf : cfg.dumpFrame with
      | true => exact absurd (hb.trans hf.symm) h
      | false => rfl
    simp only [undump, dumpText, hb, hf, if_true, Bool.false_eq_true, if_false, String.empty_append]
    exact undumpBytes_line t cfg.snapcols bs
  | false =>
    have hf : cfg.dumpFrame = true := by
      cases hf : cfg.dumpFrame with
      | true => rfl
      | false => exact absurd (hb.trans hf.symm) h
    simp only [undump, dumpText, hb, hf, if_true, Bool.false_eq_true, if_false, String.append_empty]
    exact undumpFrame_line _ bs

/-! ### The line of a frame -/

theorem shown_take (cfg : Config) (bs : List UInt8) : shown cfg bs = bs.take cfg.snaplen := by
  rw [shown, List.take_eq_take_iff]
  omega

theorem parseIrdaFrame_line (env : Env) (type : ℤ) {bs : List UInt8} {g : Dumper}
    (h : Holds g.st.buf bs) :
    ∃ t, (parseIrdaFrame env type bs.length g).st.str =
      t ++ ") " ++ dumpText env.cfg (bs.take env.cfg.snaplen) := by
  have hd := (decodeFrame_spec env type
    { g with frames := g.frames ++ [⟨type ≠ 0, bs.length, load g.st.buf.mem g.st.buf.head
      (bs.length : ℤ).toNat, g.time g.currTime⟩] }).1.bytes h
  refine ⟨(decodeFrame env type g).st.str ++ ("(" ++ toString (bs.length : ℤ)), ?_⟩
  simp only [parseIrdaFrame, Dumper.append, St.append]
  rw [shown_eq hd, decodeFrame_frames, shown_take]
  simp only [String.append_assoc]
  rfl

/-! ### Turns of the live loop -/

/-- The live path takes the packet; that the frame fits is left to `recvfrom`. -/
def Received.taken (o : ByteOrder.Order) (ifindex : ℤ) (r : Received) : Bool :=
  r.src.sllProtocol = ByteOrder.ntohs o ethPIrda ∧
    (ifindex = 0 ∨ r.src.sllIfindex = ifindex) ∧ 1 ≤ r.data.length

/-- What holds between the turns of a live run. -/
structure Live (ifindex : ℤ) (g : Dumper) : Prop where
  ready : Ready g
  live : g.captureread = none
  times : g.currTime ≠ g.prevTime
  interface : g.ifindex = ifindex

theorem live_skip {o : ByteOrder.Order} {ifindex : ℤ} {g : Dumper} {r : Received} (h : Live ifindex g)
    (hr : r.taken o ifindex = false) :
    ∃ g', irdadumpLoop o r.input g = (.skipped, g') ∧ Live ifindex g' := by
  obtain ⟨ifindex', w, fd, t1, t2, curr, prev, st, frames⟩ := g
  obtain ⟨hready, rfl, hne, rfl⟩ := h
  simp only [Received.taken, decide_eq_false_iff_not, not_and_or, not_or] at hr
  change ∃ g', (if r.src.sllProtocol ≠ ByteOrder.ntohs o ethPIrda then _
    else if ifindex' ≠ 0 ∧ r.src.sllIfindex ≠ ifindex' then _
    else if r.data.length = 0 then _ else _) = _ ∧ _
  by_cases hp : r.src.sllProtocol = ByteOrder.ntohs o ethPIrda
  · rw [if_neg (not_not.2 hp)]
    by_cases hi : ifindex' ≠ 0 ∧ r.src.sllIfindex ≠ ifindex'
    · rw [if_pos hi]
      exact ⟨_, rfl, hready, rfl, hne, rfl⟩
    · have hz : r.data.length = 0 := by
        rcases hr with hr | hr | hr
        · exact absurd hp hr
        · exact absurd hr hi
        · omega
      rw [if_neg hi, if_pos hz]
      exact ⟨_, rfl, hready, rfl, hne, rfl⟩
  · rw [if_pos hp]
    exact ⟨_, rfl, hready, rfl, hne, rfl⟩

theorem live_line {o : ByteOrder.Order} {ifindex : ℤ} {g : Dumper} {r : Received} (h : Live ifindex g)
    (hr : r.taken o ifindex = true) (hfit : r.data.length ≤ maxFrameSize) :
    ∃ g' t, irdadumpLoop o r.input g = (.ok, g') ∧ Live ifindex g' ∧
      g'.st.str = t ++ ") " ++ dumpText r.env.cfg (r.data.take r.env.cfg.snaplen) := by
  obtain ⟨hready, hlive, hne, hif⟩ := h
  have hacc : Accepted o g.ifindex r := by
    rw [Received.taken, decide_eq_true_iff] at hr
    rw [hif]
    exact ⟨hr.1, hr.2.1, hr.2.2, hfit⟩
  obtain ⟨g', e, hready', hlive', hif', hne', -⟩ := live_turn hready hlive hne hacc
  have hholds : Holds (r.stored g).st.buf r.data := by
    rw [Received.stored, setTime_st]
    exact (holds_put r.re { g.st.buf with mem := store g.st.buf.mem g.st.buf.head r.data } hready
      hfit (load_store _ _ _)).1
  obtain ⟨t, ht⟩ := parseIrdaFrame_line r.env r.src.sllPkttype.toNat hholds
  refine ⟨g', t, e, ⟨hready', hlive', hne', hif'.trans hif⟩, ?_⟩
  have hg' : captureFrame o r.input r.data.length r.src
      (parseIrdaFrame r.env r.src.sllPkttype.toNat r.data.length (r.stored g)) = g' :=
    congrArg Prod.snd ((live_turn_eq hlive hacc).symm.trans e)
  rw [← hg', captureFrame_eq]
  exact ht

/-! ### The run -/

theorem main_run {o : ByteOrder.Order} {ifindex : ℤ} {cfg : Config}
    (hx : cfg.dumpBytes ≠ cfg.dumpFrame) (rs : List Received) : ∀ p : Program,
    Live ifindex p.dumper → (∀ r ∈ rs, r.env.cfg = cfg) → (∀ r ∈ rs, r.data.length ≤ maxFrameSize) →
    ∃ p' lines, mainLoop o (rs.map Received.input) p = some p' ∧ p'.out = p.out ++ lines ∧
      p'.packets = p.packets + lines.length ∧
      lines.map (undump cfg) =
        (rs.filter (Received.taken o ifindex)).map fun r => r.data.take cfg.snaplen := by
  induction rs with
  | nil =>
    intro p _ _ _
    exact ⟨p, [], rfl, by simp, rfl, rfl⟩
  | cons r rs ih =>
    intro p h hcfg hfit
    have hcfg' := fun q hq => hcfg q (List.mem_cons_of_mem r hq)
    have hfit' := fun q hq => hfit q (List.mem_cons_of_mem r hq)
    rw [List.map_cons, mainLoop]
    cases ht : r.taken o ifindex with
    | false =>
      obtain ⟨g', e, h'⟩ := live_skip h ht
      rw [List.filter_cons_of_neg (by simp [ht]),
        show mainTurn o r.input p = some { p with dumper := g' } by simp only [mainTurn, e]]
      exact ih { p with dumper := g' } h' hcfg' hfit'
    | true =>
      obtain ⟨g', t, e, h', hline⟩ := live_line h ht (hfit r List.mem_cons_self)
      have hL : Live ifindex (truncateLine g') := ⟨h'.ready, h'.live, h'.times, h'.interface⟩
      obtain ⟨p', lines, hrun, hout, hcount, hlines⟩ :=
        ih ⟨truncateLine g', p.packets + 1, p.out ++ [g'.st.str]⟩ hL hcfg' hfit'
      refine ⟨p', g'.st.str :: lines, ?_, ?_, ?_, ?_⟩
      · rw [show mainTurn o r.input p = some ⟨truncateLine g', p.packets + 1, p.out ++ [g'.st.str]⟩
          by simp only [mainTurn, e]]
        exact hrun
      · rw [hout, List.append_assoc, List.singleton_append]
      · rw [hcount, List.length_cons]
        ring
      · rw [List.filter_cons_of_pos ht, List.map_cons, List.map_cons, hlines, hline,
          hcfg r List.mem_cons_self, undump_line hx]

theorem live_init {base : ℕ} {heap : Mem} {now time1 : Timeval} {ifindex : ℤ} {g : Dumper}
    (h : irdadumpInit base heap now ifindex time1 = some g) (w : Option (List UInt8)) :
    Live ifindex { g with capturewrite := w } := by
  obtain ⟨⟨hready, -, hne, -⟩, hif, -⟩ := capturing_start (o := .little) h
  obtain ⟨buf, -, rfl⟩ := Option.map_eq_some_iff.1 h
  exact ⟨hready, rfl, hne, hif⟩

/-- The state behind a turn; a live run has no other turns. -/
def programTurn (o : ByteOrder.Order) (p : Program) (r : Received) : Program :=
  (mainTurn o r.input p).getD p

def Received.texts (r : Received) (g : Dumper) : List TextSite :=
  decodeTexts r.env r.src.sllPkttype.toNat (r.stored g)

/-- If the packet is taken, no text in it is too long for its array. -/
def TakenShort (o : ByteOrder.Order) (ifindex : ℤ) (p : Program) (r : Received) : Prop :=
  r.taken o ifindex = true → ∀ t ∈ r.texts p.dumper, t.Short

/-- If the packet is taken, every store of a text is in its array. -/
def TakenFit (o : ByteOrder.Order) (ifindex : ℤ) (p : Program) (r : Received) : Prop :=
  r.taken o ifindex = true → ∀ t ∈ r.texts p.dumper, ∀ log ∈ t.logs, Fits sizeofText log

/-- With one of the two dumps asked for and no text that is too long, a live run keeps to the
arrays and prints a line for each packet that is taken, in order; from the line the frame is
read back as far as it is shown, and the count at the end is the one of the lines. -/
theorem dumps_read_back (o : ByteOrder.Order) {base : ℕ} {heap : Mem} {now time1 : Timeval}
    {ifindex : ℤ} {g : Dumper} (h : irdadumpInit base heap now ifindex time1 = some g)
    (w : Option (List UInt8)) {cfg : Config} (hx : cfg.dumpBytes ≠ cfg.dumpFrame)
    (rs : List Received) (hcfg : ∀ r ∈ rs, r.env.cfg = cfg)
    (hfit : ∀ r ∈ rs, r.data.length ≤ maxFrameSize)
    (htexts : Along (programTurn o) (TakenShort o ifindex) ⟨{ g with capturewrite := w }, 0, []⟩ rs) :
    Along (programTurn o) (TakenFit o ifindex) ⟨{ g with capturewrite := w }, 0, []⟩ rs ∧
    ∃ p, mainLoop o (rs.map Received.input) ⟨{ g with capturewrite := w }, 0, []⟩ = some p ∧
      p.packets = p.out.length ∧
      p.out.map (undump cfg) =
        (rs.filter (Received.taken o ifindex)).map fun r => r.data.take cfg.snaplen := by
  obtain ⟨p, lines, hrun, hout, hcount, hlines⟩ :=
    main_run (o := o) hx rs ⟨{ g with capturewrite := w }, 0, []⟩ (live_init h w) hcfg hfit
  rw [List.nil_append] at hout
  rw [Nat.zero_add] at hcount
  refine ⟨htexts.imp fun _ _ _ h ht t hmem => (h ht t hmem).fit, p, hrun, ?_, ?_⟩
  · rw [hcount, hout]
  · rw [hout, hlines]

/-- A query for TinyTP of the class Device. -/
def queryReceived : Received :=
  { rrReceived .little { dumpBytes := true } with
    data := [0x02, 0x10, 0x00, 0x10, 0x84, 6, 0x44, 0x65, 0x76, 0x69, 0x63, 0x65, 6, 0x54, 0x69, 0x6e,
      0x79, 0x54, 0x50] }

theorem dumps_read_back_query :
    Along (programTurn .little) (TakenFit .little 0) ⟨startedDumper, 0, []⟩ [queryReceived] ∧
    ∃ p, mainLoop .little ([queryReceived].map Received.input) ⟨startedDumper, 0, []⟩ = some p ∧
      p.packets = p.out.length ∧
      p.out.map (undump { dumpBytes := true }) =
        ([queryReceived].filter (Received.taken .little 0)).map fun r => r.data.take 32 := by
  have hx : ({ dumpBytes := true } : Config).dumpBytes ≠
      ({ dumpBytes := true } : Config).dumpFrame := by decide
  have hquery : queryReceived.texts startedDumper = [.ias _ 0x10 0x00] := rfl
  refine dumps_read_back .little startedDumper_init none hx [queryReceived]
    (by simp [queryReceived, rrReceived, plainEnv]) (by simp [queryReceived, maxFrameSize])
    ⟨fun _ => ?_, trivial⟩
  change ∀ t ∈ queryReceived.texts startedDumper, t.Short
  rw [hquery]
  refine List.forall_mem_singleton.2 ⟨fun _ _ => ?_, fun h => absurd rfl h⟩
  decide

end Irdadump
