import IrdaUtils.Proofs.ObexFraming
import IrdaUtils.Proofs.TimeDiff
import IrdaUtils.Spec.Writes

/-! The writes to the frame buffer. It is allocated for the longest frame that is asked of the
socket and not for the byte that ends the device information behind such a frame, and a record
of a capture file is read into it whatever length the record says. -/

namespace Irdadump
open Memory ByteOrder Runs

/-! ### The decoders -/

theorem mem_xidFrame (env : Env) (cmd : UInt8) (type : ℤ) {s : St} (h : s.buf.head ≤ s.buf.data) :
    (parseXidFrame env cmd type s).buf.mem =
      playWrites s.buf.head s.buf.mem (xidWrites cmd s.buf) := by
  have hbuf : (parseXidFrame env cmd type s).buf.mem =
      (if xidHasInfo cmd (s.byte 12) then parseXidInfo env s else (s, "")).1.buf.mem := by
    unfold parseXidFrame
    simp only
    split_ifs <;> rfl
  rw [hbuf, xidWrites]
  change _ = playWrites _ _ (if xidHasInfo cmd (s.byte 12) = true then _ else _)
  split_ifs
  · change store s.buf.mem (s.buf.data + s.buf.len) [0] =
      store s.buf.mem (s.buf.head + (s.buf.data - s.buf.head + s.buf.len)) [0]
    rw [← Nat.add_assoc, Nat.add_sub_cancel' h]
  · rfl

/-- The memory behind the decoding of a frame is what the writes have made of it. -/
theorem mem_irlapFrame (env : Env) (type : ℤ) {s : St} (h : s.buf.head ≤ s.buf.data) :
    (parseIrlapFrame env type s).buf.mem = playWrites s.buf.head s.buf.mem (irlapWrites s.buf) := by
  have hctrl : s.buf.byte 1 = s.byte 1 := rfl
  unfold parseIrlapFrame irlapWrites
  simp only [hctrl]
  split_ifs with hi hs hx
  · exact (still_iFrame env _ _ _ type s).mem
  · exact (still_sFrame env _ _ _ _ type s).mem
  · rw [parseUFrame, if_pos hx]
    exact mem_xidFrame env _ type h
  · exact (still_uFrame env _ _ _ _ type s hx).mem

/-- The tests for I and S frames let every XID frame pass. -/
theorem mem_irlapWrites {b : GNetBuf} {w : Write} : w ∈ irlapWrites b ↔
    xidWithInfo (b.byte 0) (b.byte 1) (b.byte 12) ∧
      w = ⟨b.data - b.head + b.len, [0], b.truesize⟩ := by
  unfold irlapWrites xidWithInfo xidWrites
  simp only
  generalize b.byte 1 &&& ~~~pfBit = ctrl
  by_cases hx : ctrl = xidRsp ∨ ctrl = xidCmd
  · have h1 : ¬ ctrl &&& 0x01 = 0 := by
      rcases hx with rfl | rfl <;> decide
    have h2 : ¬ ctrl &&& 0x02 = 0 := by
      rcases hx with rfl | rfl <;> decide
    rw [if_neg h1, if_neg h2, if_pos hx]
    split_ifs with hinfo
    · simp [hx, hinfo]
    · simp [hinfo]
  · rw [if_neg hx]
    simp [hx]

/-- The byte behind a frame is in the buffer unless the frame fills it. -/
theorem decode_inside_iff (env : Env) {b : GNetBuf} {bs : List UInt8} (h : Holds b bs)
    (hsize : b.truesize = maxFrameSize) (hle : bs.length ≤ maxFrameSize) :
    (∀ w ∈ decodeWrites env b, w.Inside) ↔ ¬ LeavesNoRoom env bs := by
  have hoff : b.data - b.head + b.len = bs.length := by
    rw [h.data, h.len, Nat.sub_self, Nat.zero_add]
  have hinside : (⟨b.data - b.head + b.len, [0], b.truesize⟩ : Write).Inside ↔
      bs.length < maxFrameSize := by
    unfold Write.Inside
    simp [hoff, hsize]
  have hbyte : ∀ i, i < bs.length → b.byte i = bs.getD i 0 := by
    intro i hi
    have hbytes : b.bytes = bs := by
      rw [GNetBuf.bytes, h.data, h.len, h.bytes]
    rw [byte_of_bytes (by rwa [h.len]), hbytes]
  unfold decodeWrites LeavesNoRoom
  split_ifs with hp
  · rcases Nat.lt_or_ge bs.length maxFrameSize with hlt | hge
    · constructor
      · rintro - ⟨hfull, -⟩
        omega
      · rintro - w hw
        obtain ⟨-, rfl⟩ := mem_irlapWrites.1 hw
        exact hinside.2 hlt
    · have hlen : bs.length = maxFrameSize := le_antisymm hle hge
      have hmax : maxFrameSize = 2050 := rfl
      rw [← hbyte 0 (by omega), ← hbyte 1 (by omega), ← hbyte 12 (by omega)]
      constructor
      · rintro hall ⟨-, -, hx⟩
        have := hinside.1 (hall _ (mem_irlapWrites.2 ⟨hx, rfl⟩))
        omega
      · intro hno w hw
        exact absurd ⟨hlen, hp, (mem_irlapWrites.1 hw).1⟩ hno
  · simp [hp]

/-! ### What a turn can do -/

/-- The buffer in which the frame `bs` has been put. -/
def Dumper.filled (g : Dumper) (re : Realloc) (bs : List UInt8) : GNetBuf :=
  (gNetbufPut re (gNetbufRecycle { g.st.buf with mem := store g.st.buf.mem g.st.buf.head bs })
    bs.length).2

/-- Nothing is stored. -/
structure TurnIdle (o : Order) (inp : LoopInput) (g : Dumper) : Prop where
  input : inputWrites o inp g = []
  put : turnBuf o inp g = none
  turn : (loopTurn o g inp).st.buf = gNetbufRecycle g.st.buf

/-- The frame `bs` is stored and goes no further. -/
structure TurnDrops (o : Order) (inp : LoopInput) (g : Dumper) (bs : List UInt8) : Prop where
  input : inputWrites o inp g = [⟨0, bs, g.st.buf.truesize⟩]
  put : turnBuf o inp g = none
  turn : (loopTurn o g inp).st.buf =
    { gNetbufRecycle g.st.buf with mem := store g.st.buf.mem g.st.buf.head bs }

/-- The frame `bs` is stored and put in the buffer, and decoded there if it has a stamp. -/
structure TurnTakes (o : Order) (inp : LoopInput) (g : Dumper) (bs : List UInt8) : Prop where
  input : inputWrites o inp g = [⟨0, bs, g.st.buf.truesize⟩]
  put : turnBuf o inp g = some (g.filled inp.re bs)
  turn : ∃ (type len : ℤ) (g₁ : Dumper), g₁.st.buf = g.filled inp.re bs ∧
    (loopTurn o g inp).st.buf =
      if turnDecodes inp g then (parseIrdaFrame inp.env type len g₁).st.buf else g₁.st.buf

/-- The packet passes the filters of the live path. -/
def PacketTaken (o : Order) (g : Dumper) (p : Recv) : Prop :=
  p.src.sllProtocol = ntohs o ethPIrda ∧ (g.ifindex = 0 ∨ p.src.sllIfindex = g.ifindex) ∧
    p.data.length ≠ 0

theorem filters_iff_taken {o : Order} {g : Dumper} {p : Recv} :
    (¬ p.src.sllProtocol ≠ ntohs o ethPIrda ∧
      ¬ (g.ifindex ≠ 0 ∧ p.src.sllIfindex ≠ g.ifindex) ∧ ¬ p.data.length = 0) ↔
      PacketTaken o g p := by
  unfold PacketTaken
  tauto

section live

variable {o : Order} {inp : LoopInput} {g : Dumper} (hlive : g.captureread = none)
include hlive

theorem live_idle (hrecv : inp.recv = none) : TurnIdle o inp g := by
  refine ⟨?_, ?_, ?_⟩
  · simp only [inputWrites, hlive, hrecv]
  · simp only [turnBuf, hlive, hrecv]
  · rw [loopTurn, live_loop_eq hlive, liveLoop, hrecv]
    rfl

variable {p : Recv} (hrecv : inp.recv = some p)
include hrecv

theorem live_input : inputWrites o inp g = [⟨0, p.data, g.st.buf.truesize⟩] := by
  simp only [inputWrites, hlive, hrecv]

theorem live_decodes : turnDecodes inp g = p.stamp.isSome := by
  rw [turnDecodes, hlive, hrecv, Option.bind_some]

theorem live_drops (h : ¬ PacketTaken o g p) : TurnDrops o inp g p.data := by
  have hnot := mt filters_iff_taken.1 h
  refine ⟨live_input hlive hrecv, ?_, ?_⟩
  · simp only [turnBuf, hlive, hrecv]
    split_ifs with h1 h2 h3
    · rfl
    · rfl
    · rfl
    · exact absurd ⟨h1, h2, h3⟩ hnot
  · rw [loopTurn, live_loop_eq hlive, liveLoop, hrecv]
    change (if p.src.sllProtocol ≠ ntohs o ethPIrda then _
      else if g.ifindex ≠ 0 ∧ p.src.sllIfindex ≠ g.ifindex then _
      else if p.data.length = 0 then _ else _ : Outcome × Dumper).2.st.buf = _
    split_ifs with h1 h2 h3
    · rfl
    · rfl
    · rfl
    · exact absurd ⟨h1, h2, h3⟩ hnot

theorem live_takes (h : PacketTaken o g p) : TurnTakes o inp g p.data := by
  obtain ⟨h1, h2, h3⟩ := filters_iff_taken.2 h
  refine ⟨live_input hlive hrecv, ?_, ?_⟩
  · simp only [turnBuf, hlive, hrecv, if_neg h1, if_neg h2, if_neg h3]
    rfl
  · rw [live_decodes hlive hrecv, loopTurn, live_loop_eq hlive, liveLoop, hrecv]
    simp only
    change ∃ (type len : ℤ) (g₁ : Dumper), _ ∧ (if p.src.sllProtocol ≠ ntohs o ethPIrda then _
      else if g.ifindex ≠ 0 ∧ p.src.sllIfindex ≠ g.ifindex then _
      else if p.data.length = 0 then _ else _ : Outcome × Dumper).2.st.buf = _
    rw [if_neg h1, if_neg h2, if_neg h3]
    cases p.stamp with
    | none => exact ⟨0, 0, { g with st := { g.st with buf := g.filled inp.re p.data } }, rfl, rfl⟩
    | some t =>
      refine ⟨p.src.sllPkttype.toNat, p.data.length, g.stamped (g.filled inp.re p.data) t, ?_, ?_⟩
      · rw [Dumper.stamped, setTime_st]
      · simp only [captureFrame_eq]
        rfl

end live

theorem capreadWrites_headless {o : Order} {c : Capread}
    (h : c.fd.length < sizeofPcaprecHdr + sizeofSllHeader) : capreadWrites o c = [] := by
  unfold capreadWrites
  by_cases h1 : (c.fd.take sizeofPcaprecHdr).length = sizeofPcaprecHdr
  · rw [if_neg (not_not.2 h1), if_pos (second_header_missing h h1)]
  · rw [if_pos h1]

theorem capreadWrites_headed {o : Order} {c : Capread}
    (h : sizeofPcaprecHdr + sizeofSllHeader ≤ c.fd.length) :
    capreadWrites o c = [⟨0, recordData o c.fd, c.frameBuf.truesize⟩] := by
  obtain ⟨h1, h2⟩ := both_headers h
  unfold capreadWrites
  rw [if_neg (not_not.2 h1), if_neg (not_not.2 h2)]

/-- A record that is complete, of the protocol and not empty gets to `g_netbuf_put`. -/
def RecordTaken (o : Order) (fd : List UInt8) : Prop :=
  ((recordData o fd).length : ℤ) = recordLen o fd ∧ recordProt o fd = ethPIrda.toNat ∧
    recordLen o fd ≠ 0

/-- The three tests behind `capread_get` come to this. -/
theorem tests_iff_taken {o : Order} {g : Dumper} {fd : List UInt8}
    (hl : sizeofPcaprecHdr + sizeofSllHeader ≤ fd.length) (hnonneg : 0 ≤ recordLen o fd) :
    (¬ (capreadGet o (g.capread fd)).1 < 0 ∧
      ¬ (capreadGet o (g.capread fd)).2.pprot ≠ ethPIrda.toNat ∧
      ¬ (capreadGet o (g.capread fd)).2.plen = 0) ↔ RecordTaken o fd := by
  have hget := capreadGet_headed (o := o) (c := g.capread fd) hl
  have hread : ¬ (capreadGet o (g.capread fd)).1 < 0 ↔
      ((recordData o fd).length : ℤ) = recordLen o fd := by
    rw [hget, ← recordRead_of_nonneg hnonneg]
    change ¬ (if recordRead o fd = recordLen o fd then (0 : ℤ) else -1) < 0 ↔ _
    split_ifs with hdata
    · simp [hdata]
    · simp [hdata]
  have hprot : ¬ (capreadGet o (g.capread fd)).2.pprot ≠ ethPIrda.toNat ↔
      recordProt o fd = ethPIrda.toNat := by
    rw [hget]
    exact not_not.trans Nat.cast_inj
  have hplen : (capreadGet o (g.capread fd)).2.plen = recordLen o fd := by
    rw [hget]
    rfl
  rw [hread, hprot, hplen]
  rfl

theorem read_buf (g : Dumper) (c : Capread) : (g.read c).st.buf = c.frameBuf := by
  rw [Dumper.read, setTime_st]

section replay

variable {o : Order} {inp : LoopInput} {g : Dumper} {fd : List UInt8}
  (hfd : g.captureread = some fd)
include hfd

theorem replay_input : inputWrites o inp g = capreadWrites o (g.capread fd) := by
  rw [inputWrites, hfd]

theorem replay_idle (hl : ¬ sizeofPcaprecHdr + sizeofSllHeader ≤ fd.length) : TurnIdle o inp g := by
  have hshort : (g.capread fd).fd.length < sizeofPcaprecHdr + sizeofSllHeader := Nat.lt_of_not_le hl
  obtain ⟨hget, hframe⟩ := capreadGet_headless (o := o) hshort
  have hneg : (capreadGet o (g.capread fd)).1 < 0 := by
    rw [hget]
    exact neg_one_lt_zero
  refine ⟨?_, ?_, ?_⟩
  · rw [replay_input hfd, capreadWrites_headless hshort]
  · simp only [turnBuf, hfd, if_pos hneg]
  · rw [loopTurn, replay_loop_eq hfd, if_pos hneg, read_buf, hframe]
    rfl

variable (hl : sizeofPcaprecHdr + sizeofSllHeader ≤ fd.length)
include hl

theorem replay_stored (inp : LoopInput) : inputWrites o inp g = [⟨0, recordData o fd, g.st.buf.truesize⟩] ∧
    (capreadGet o (g.capread fd)).2.frameBuf = gNetbufRecycle
      { g.st.buf with mem := store g.st.buf.mem g.st.buf.head (recordData o fd) } := by
  rw [replay_input hfd, capreadWrites_headed (c := g.capread fd) hl,
    capreadGet_headed (c := g.capread fd) hl]
  exact ⟨rfl, rfl⟩

variable (hnonneg : 0 ≤ recordLen o fd)
include hnonneg

theorem replay_drops (h : ¬ RecordTaken o fd) : TurnDrops o inp g (recordData o fd) := by
  have hnot := mt (tests_iff_taken (g := g) hl hnonneg).1 h
  obtain ⟨hinput, hframe⟩ := replay_stored (o := o) hfd hl inp
  refine ⟨hinput, ?_, ?_⟩
  · simp only [turnBuf, hfd]
    split_ifs with h1 h2 h3
    · rfl
    · rfl
    · rfl
    · exact absurd ⟨h1, h2, h3⟩ hnot
  · have hturn : loopTurn o g inp = g.read (capreadGet o (g.capread fd)).2 := by
      rw [loopTurn, replay_loop_eq hfd]
      split_ifs with h1 h2 h3
      · rfl
      · rfl
      · rfl
      · exact absurd ⟨h1, h2, h3⟩ hnot
    rw [hturn, read_buf, hframe]
    rfl

theorem replay_takes (h : RecordTaken o fd) : TurnTakes o inp g (recordData o fd) := by
  obtain ⟨h1, h2, h3⟩ := (tests_iff_taken (g := g) hl hnonneg).2 h
  obtain ⟨hinput, hframe⟩ := replay_stored (o := o) hfd hl inp
  have hplen : toU32 (capreadGet o (g.capread fd)).2.plen = (recordData o fd).length := by
    have hlt := recordLen_lt o fd
    have hlen := h.1
    rw [capreadGet_headed (o := o) (c := g.capread fd) hl]
    change toU32 (recordLen o fd) = _
    rw [← hlen, toU32_natCast (by omega)]
  have hdec : turnDecodes inp g = true := by rw [turnDecodes, hfd]
  refine ⟨hinput, ?_, ?_⟩
  · simp only [turnBuf, hfd, if_neg h1, if_neg h2, if_neg h3, hplen, hframe]
    rfl
  · refine ⟨(capreadGet o (g.capread fd)).2.pdir, (capreadGet o (g.capread fd)).2.plen,
      putFrame inp.re (recordData o fd).length (g.read (capreadGet o (g.capread fd)).2), ?_, ?_⟩
    · change (gNetbufPut inp.re (g.read _).st.buf _).2 = _
      rw [read_buf, hframe]
      rfl
    · rw [hdec, if_pos rfl, loopTurn, replay_loop_eq hfd, if_neg h1, if_neg h2, if_neg h3, hplen]

end replay

/-! ### Safe turns -/

theorem inside_front_iff {bs : List UInt8} {n : ℕ} : (⟨0, bs, n⟩ : Write).Inside ↔ bs.length ≤ n := by
  unfold Write.Inside
  simp only [Nat.zero_add]
  constructor
  · intro h
    by_contra hlt
    exact absurd (h n (by omega)) (lt_irrefl n)
  · intro h i hi
    omega

theorem not_leavesNoRoom_of_lt {env : Env} {bs : List UInt8} (h : bs.length < maxFrameSize) :
    ¬ LeavesNoRoom env bs := fun hno => absurd hno.1 (Nat.ne_of_lt h)

/-- A turn that does not get to `g_netbuf_put` has the writes of its input only. -/
theorem safe_iff_of_none {o : Order} {inp : LoopInput} {g : Dumper} (hnone : turnBuf o inp g = none) :
    TurnSafe o g inp ↔ ∀ w ∈ inputWrites o inp g, w.Inside := by
  have hwrites : turnWrites o inp g = inputWrites o inp g := by
    rw [turnWrites, hnone, List.append_nil]
  constructor
  · intro h
    rw [← hwrites]
    exact h.writes
  · intro h
    refine ⟨?_, ?_⟩
    · rw [hwrites]
      exact h
    · intro b hb
      rw [hnone] at hb
      cases hb

theorem TurnIdle.safe {o : Order} {inp : LoopInput} {g : Dumper} (h : TurnIdle o inp g) :
    TurnSafe o g inp := by
  rw [safe_iff_of_none h.put, h.input]
  exact List.forall_mem_nil _

theorem TurnDrops.safe_iff {o : Order} {inp : LoopInput} {g : Dumper} {bs : List UInt8}
    (h : TurnDrops o inp g bs) (hready : Ready g) : TurnSafe o g inp ↔ bs.length ≤ maxFrameSize := by
  rw [safe_iff_of_none h.put, h.input, List.forall_mem_singleton, inside_front_iff, hready]

/-- A frame that is longer than the buffer is written beyond it, and of a shorter one the
decoding is left. -/
theorem TurnTakes.safe_iff {o : Order} {inp : LoopInput} {g : Dumper} {bs : List UInt8}
    (h : TurnTakes o inp g bs) (hready : Ready g) :
    TurnSafe o g inp ↔ bs.length ≤ maxFrameSize ∧
      (turnDecodes inp g = true → ¬ LeavesNoRoom inp.env bs) := by
  have hwrites : turnWrites o inp g = ⟨0, bs, g.st.buf.truesize⟩ ::
      if turnDecodes inp g then decodeWrites inp.env (g.filled inp.re bs) else [] := by
    rw [turnWrites, h.put, h.input]
    rfl
  have hfront : (⟨0, bs, g.st.buf.truesize⟩ : Write).Inside ↔ bs.length ≤ maxFrameSize := by
    rw [inside_front_iff, hready]
  by_cases hle : bs.length ≤ maxFrameSize
  · have hbuf : { g.st.buf with mem := store g.st.buf.mem g.st.buf.head bs }.truesize =
        maxFrameSize := hready
    obtain ⟨hholds, hsize⟩ := holds_put inp.re _ hbuf hle (load_store _ _ _)
    have hdecode := decode_inside_iff inp.env hholds hsize hle
    simp only [hle, true_and]
    constructor
    · intro hs hd
      have hall := hs.writes
      rw [hwrites, if_pos hd] at hall
      exact hdecode.1 (List.forall_mem_cons.1 hall).2
    · intro hroom
      refine ⟨?_, ?_⟩
      · rw [hwrites]
        refine List.forall_mem_cons.2 ⟨hfront.2 hle, ?_⟩
        split_ifs with hd
        · exact hdecode.2 (hroom hd)
        · exact List.forall_mem_nil _
      · intro b hb
        rw [h.put] at hb
        cases hb
        rw [Dumper.filled, put_recycled inp.re hbuf hle]
        refine ⟨Nat.add_sub_cancel_left _ _, ?_⟩
        change g.st.buf.head + bs.length ≤ g.st.buf.head + g.st.buf.truesize
        rw [hready]
        omega
  · have hno : ¬ TurnSafe o g inp := by
      intro hs
      have hall := hs.writes
      rw [hwrites] at hall
      exact hle (hfront.1 (List.forall_mem_cons.1 hall).1)
    simp only [hno, hle, false_and]

/-- `recvfrom` stores at most the `MAX_FRAME_SIZE` bytes that it is allowed. -/
def RecvFits (inp : LoopInput) : Prop := ∀ p, inp.recv = some p → p.data.length ≤ maxFrameSize

theorem live_safe_iff {o : Order} {g : Dumper} {inp : LoopInput} (hready : Ready g)
    (hlive : g.captureread = none) (hrecv : RecvFits inp) : TurnSafe o g inp ↔ TurnFits o g inp := by
  unfold TurnFits
  rw [hlive]
  cases hp : inp.recv with
  | none =>
    refine iff_of_true (live_idle hlive hp).safe ?_
    simp
  | some p =>
    simp only [Option.some.injEq, forall_eq']
    by_cases htaken : PacketTaken o g p
    · have hdec : turnDecodes inp g = true ↔ p.stamp ≠ none := by
        rw [live_decodes hlive hp, Option.isSome_iff_ne_none]
      rw [(live_takes hlive hp htaken).safe_iff hready, hdec]
      simp only [hrecv p hp, htaken.1, htaken.2.1, true_and, true_implies]
    · refine iff_of_true (((live_drops hlive hp htaken).safe_iff hready).2 (hrecv p hp)) ?_
      intro hprot hif _
      -- a packet that passes the other filters is empty
      have h0 : p.data.length = 0 := by
        by_contra h0
        exact htaken ⟨hprot, hif, h0⟩
      exact not_leavesNoRoom_of_lt (by rw [h0]; decide)

theorem replay_safe_iff {o : Order} {g : Dumper} {inp : LoopInput} {fd : List UInt8}
    (hready : Ready g) (hfd : g.captureread = some fd) :
    RecordLong o g ∧ TurnSafe o g inp ↔ TurnFits o g inp := by
  have hlong : RecordLong o g ↔
      (sizeofPcaprecHdr + sizeofSllHeader ≤ fd.length → 0 ≤ recordLen o fd) := by
    unfold RecordLong
    rw [hfd]
    simp only [Option.some.injEq, forall_eq']
  unfold TurnFits
  rw [hlong, hfd]
  simp only
  by_cases hl : sizeofPcaprecHdr + sizeofSllHeader ≤ fd.length
  · simp only [hl, true_implies]
    refine and_congr_right fun hnonneg => ?_
    by_cases htaken : RecordTaken o fd
    · have hdec : turnDecodes inp g = true := by rw [turnDecodes, hfd]
      rw [(replay_takes hfd hl hnonneg htaken).safe_iff hready]
      simp only [hdec, htaken.1, htaken.2.1, true_implies]
    · rw [(replay_drops hfd hl hnonneg htaken).safe_iff hready]
      refine (and_iff_left ?_).symm
      intro hprot hdata
      -- a record that passes the other tests is empty
      have h0 : recordLen o fd = 0 := by
        by_contra h0
        exact htaken ⟨hdata, hprot, h0⟩
      exact not_leavesNoRoom_of_lt (by rw [maxFrameSize]; omega)
  · simp only [hl, false_implies, true_and, iff_true]
    exact (replay_idle hfd hl).safe

theorem turn_safe_iff {o : Order} {g : Dumper} {inp : LoopInput} (hready : Ready g)
    (hrecv : RecvFits inp) : RecordLong o g ∧ TurnSafe o g inp ↔ TurnFits o g inp := by
  cases hfd : g.captureread with
  | none =>
    have hlong : RecordLong o g := by
      intro fd h
      rw [hfd] at h
      cases h
    rw [live_safe_iff hready hfd hrecv]
    simp [hlong]
  | some fd => exact replay_safe_iff hready hfd

/-! ### Memory -/

/-- From `b` to `b'` the block is the same and the writes `ws` are made. -/
structure Wrote (b : GNetBuf) (ws : List Write) (b' : GNetBuf) : Prop where
  head : b'.head = b.head
  truesize : b'.truesize = b.truesize
  mem : b'.mem = playWrites b.head b.mem ws

theorem Wrote.then {b b' b'' : GNetBuf} {ws ws' : List Write} (h : Wrote b ws b')
    (h' : Wrote b' ws' b'') : Wrote b (ws ++ ws') b'' := by
  refine ⟨h'.head.trans h.head, h'.truesize.trans h.truesize, ?_⟩
  rw [h'.mem, h.head, h.mem]
  unfold playWrites
  rw [List.foldl_append]

theorem wrote_put (re : Realloc) {b : GNetBuf} {n : ℕ} (hb : b.truesize = maxFrameSize)
    (hn : n ≤ maxFrameSize) : Wrote b [] (gNetbufPut re (gNetbufRecycle b) n).2 := by
  rw [put_recycled re hb hn]
  exact ⟨rfl, rfl, rfl⟩

theorem wrote_irdaFrame (env : Env) (type len : ℤ) {g : Dumper}
    (h : g.st.buf.head ≤ g.st.buf.data) :
    Wrote g.st.buf (decodeWrites env g.st.buf) (parseIrdaFrame env type len g).st.buf := by
  have hstill := frameStill_irdaFrame env type len g
  refine ⟨hstill.head, hstill.truesize, ?_⟩
  set g₁ : Dumper := { g with frames := g.frames ++ [
    ⟨type ≠ 0, len, load g.st.buf.mem g.st.buf.head len.toNat, g.time g.currTime⟩] }
  obtain ⟨⟨t, ht⟩, -⟩ := printTimes_spec env g₁
  change (decodeFrame env type g₁).st.buf.mem = _
  unfold decodeFrame decodeWrites
  split_ifs
  · simp only [ht]
    exact mem_irlapFrame env type (s := g₁.st.append t) h
  · rw [ht]
    rfl

theorem TurnIdle.wrote {o : Order} {inp : LoopInput} {g : Dumper} (h : TurnIdle o inp g) :
    Wrote g.st.buf (turnWrites o inp g) (loopTurn o g inp).st.buf := by
  rw [turnWrites, h.put, h.input, h.turn]
  exact ⟨rfl, rfl, rfl⟩

theorem TurnDrops.wrote {o : Order} {inp : LoopInput} {g : Dumper} {bs : List UInt8}
    (h : TurnDrops o inp g bs) : Wrote g.st.buf (turnWrites o inp g) (loopTurn o g inp).st.buf := by
  rw [turnWrites, h.put, h.input, h.turn]
  exact ⟨rfl, rfl, rfl⟩

theorem TurnTakes.wrote {o : Order} {inp : LoopInput} {g : Dumper} {bs : List UInt8}
    (h : TurnTakes o inp g bs) (hready : Ready g) (hle : bs.length ≤ maxFrameSize) :
    Wrote g.st.buf (turnWrites o inp g) (loopTurn o g inp).st.buf := by
  obtain ⟨type, len, g₁, hg₁, hturn⟩ := h.turn
  have hbuf : { g.st.buf with mem := store g.st.buf.mem g.st.buf.head bs }.truesize =
      maxFrameSize := hready
  have hin : Wrote g.st.buf [⟨0, bs, g.st.buf.truesize⟩]
    { g.st.buf with mem := store g.st.buf.mem g.st.buf.head bs } := ⟨rfl, rfl, rfl⟩
  have hput : Wrote g.st.buf [⟨0, bs, g.st.buf.truesize⟩] g₁.st.buf := by
    rw [hg₁]
    exact hin.then (wrote_put inp.re hbuf hle)
  rw [turnWrites, h.put, h.input, hturn, ← hg₁]
  simp only
  split_ifs
  · refine hput.then (wrote_irdaFrame inp.env type len ?_)
    rw [hg₁, Dumper.filled, put_recycled inp.re hbuf hle]
    exact le_rfl
  · rw [List.append_nil]
    exact hput

/-- A turn on something that fits stores nothing, or a frame of at most the buffer's size. -/
theorem turn_cases {o : Order} {g : Dumper} {inp : LoopInput} (hrecv : RecvFits inp)
    (hfits : TurnFits o g inp) :
    TurnIdle o inp g ∨ ∃ bs, bs.length ≤ maxFrameSize ∧
      (TurnDrops o inp g bs ∨ TurnTakes o inp g bs) := by
  cases hfd : g.captureread with
  | none =>
    cases hp : inp.recv with
    | none => exact Or.inl (live_idle hfd hp)
    | some p =>
      refine Or.inr ⟨p.data, hrecv p hp, ?_⟩
      by_cases htaken : PacketTaken o g p
      · exact Or.inr (live_takes hfd hp htaken)
      · exact Or.inl (live_drops hfd hp htaken)
  | some fd =>
    by_cases hl : sizeofPcaprecHdr + sizeofSllHeader ≤ fd.length
    · unfold TurnFits at hfits
      rw [hfd] at hfits
      obtain ⟨hnonneg, hle, -⟩ := hfits hl
      refine Or.inr ⟨recordData o fd, hle, ?_⟩
      by_cases htaken : RecordTaken o fd
      · exact Or.inr (replay_takes hfd hl hnonneg htaken)
      · exact Or.inl (replay_drops hfd hl hnonneg htaken)
    · exact Or.inl (replay_idle hfd hl)

/-- The logged writes are all that a turn changes in memory, and they are made to a buffer of
the size that it was allocated with. -/
theorem turn_wrote {o : Order} {g : Dumper} {inp : LoopInput} (hready : Ready g)
    (hrecv : RecvFits inp) (hfits : TurnFits o g inp) :
    Wrote g.st.buf (turnWrites o inp g) (loopTurn o g inp).st.buf ∧
      ∀ w ∈ turnWrites o inp g, w.truesize = maxFrameSize := by
  rcases turn_cases hrecv hfits with h | ⟨bs, hle, h | h⟩
  · refine ⟨h.wrote, ?_⟩
    rw [turnWrites, h.put, h.input]
    exact List.forall_mem_nil _
  · refine ⟨h.wrote, ?_⟩
    rw [turnWrites, h.put, h.input]
    exact List.forall_mem_singleton.2 hready
  · refine ⟨h.wrote hready hle, ?_⟩
    have hbuf : { g.st.buf with mem := store g.st.buf.mem g.st.buf.head bs }.truesize =
        maxFrameSize := hready
    rw [turnWrites, h.put, h.input]
    refine List.forall_mem_append.2 ⟨List.forall_mem_singleton.2 hready, ?_⟩
    simp only [decodeWrites]
    split_ifs
    · intro w hw
      obtain ⟨-, rfl⟩ := mem_irlapWrites.1 hw
      exact (wrote_put inp.re hbuf hle).truesize.trans hready
    · exact List.forall_mem_nil _
    · exact List.forall_mem_nil _

theorem playWrites_outside {head a n : ℕ} (ha : a < head ∨ head + n ≤ a) (ws : List Write) :
    ∀ m : Mem, (∀ w ∈ ws, w.Inside) → (∀ w ∈ ws, w.truesize = n) → playWrites head m ws a = m a := by
  induction ws with
  | nil => intro m _ _; rfl
  | cons w ws ih =>
    intro m hin hsize
    obtain ⟨hw, hin⟩ := List.forall_mem_cons.1 hin
    obtain ⟨hn, hsize⟩ := List.forall_mem_cons.1 hsize
    change playWrites head (store m (head + w.offset) w.bytes) ws a = m a
    rw [ih _ hin hsize]
    refine if_neg ?_
    rintro ⟨h1, h2⟩
    have := hw (a - (head + w.offset)) (by omega)
    omega

/-- A turn on something that fits leaves the rest of the heap alone. -/
theorem turn_outside {o : Order} {g : Dumper} {inp : LoopInput} (hready : Ready g)
    (hrecv : RecvFits inp) (hfits : TurnFits o g inp) {a : ℕ}
    (ha : a < g.st.buf.head ∨ g.st.buf.head + maxFrameSize ≤ a) :
    (loopTurn o g inp).st.buf.mem a = g.st.buf.mem a := by
  obtain ⟨hwrote, hsize⟩ := turn_wrote hready hrecv hfits
  rw [hwrote.mem]
  exact playWrites_outside ha _ _ ((turn_safe_iff hready hrecv).2 hfits).2.writes hsize

/-! ### Runs -/

theorem run_safe_iff (o : Order) {inps : List LoopInput} {g : Dumper} (hready : Ready g)
    (hrecv : ∀ inp ∈ inps, RecvFits inp) :
    Along (loopTurn o) (fun g inp => RecordLong o g ∧ TurnSafe o g inp) g inps ↔
      Along (loopTurn o) (TurnFits o) g inps := by
  refine along_congr Ready ?_ ?_ hready
  · intro g inp hinp hready
    exact turn_safe_iff hready (hrecv inp hinp)
  · intro g inp hinp hready hfits
    exact (turn_wrote hready (hrecv inp hinp) hfits).1.truesize.trans hready

theorem ready_init {base : ℕ} {heap : Mem} {now time1 : Timeval} {ifindex : ℤ} {g : Dumper}
    (hg : irdadumpInit base heap now ifindex time1 = some g) (w r : Option (List UInt8)) :
    Ready { g with capturewrite := w, captureread := r } :=
  (capturing_start (o := .little) hg).1.ready

/-- Over a run of what fits, the heap outside of the frame buffer stays as it was. -/
theorem run_outside (o : Order) (inps : List LoopInput) : ∀ g : Dumper, Ready g →
    (∀ inp ∈ inps, RecvFits inp) → Along (loopTurn o) (TurnFits o) g inps →
    ∀ a, a < g.st.buf.head ∨ g.st.buf.head + maxFrameSize ≤ a →
      (inps.foldl (loopTurn o) g).st.buf.mem a = g.st.buf.mem a := by
  induction inps with
  | nil => intro g _ _ _ a _; rfl
  | cons inp inps ih =>
    intro g hready hrecv hfits a ha
    obtain ⟨hinp, hrecv⟩ := List.forall_mem_cons.1 hrecv
    have hwrote := (turn_wrote hready hinp hfits.1).1
    have ha' : a < (loopTurn o g inp).st.buf.head ∨
        (loopTurn o g inp).st.buf.head + maxFrameSize ≤ a := by rwa [hwrote.head]
    rw [List.foldl_cons, ih _ (hwrote.truesize.trans hready) hrecv hfits.2 a ha',
      turn_outside hready hinp hfits.1 ha]

/-- In every run, live or of a file, all turns write inside the frame buffer and leave it
filled as it should be if everything that the turns are given fits, and not otherwise. For
the second half every record has to say that it is as long as its own header: the count
that `read` gets for a shorter one is not one that it is made for. -/
theorem frame_writes_inside (o : Order) (base : ℕ) (heap : Mem) (now time1 : Timeval)
    (ifindex : ℤ) (g : Dumper) (w r : Option (List UInt8)) (inps : List LoopInput)
    (hg : irdadumpInit base heap now ifindex time1 = some g) (hrecv : ∀ inp ∈ inps, RecvFits inp) :
    (Along (loopTurn o) (TurnFits o) { g with capturewrite := w, captureread := r } inps →
      Along (loopTurn o) (TurnSafe o) { g with capturewrite := w, captureread := r } inps) ∧
    (Along (loopTurn o) (fun g _ => RecordLong o g) { g with capturewrite := w, captureread := r } inps →
      Along (loopTurn o) (TurnSafe o) { g with capturewrite := w, captureread := r } inps →
      Along (loopTurn o) (TurnFits o) { g with capturewrite := w, captureread := r } inps) := by
  have hrun := run_safe_iff o (ready_init hg w r) hrecv
  constructor
  · intro hfits
    exact (hrun.2 hfits).imp fun _ _ _ h => h.2
  · intro hlong hsafe
    exact hrun.1 (hlong.and hsafe)

/-- An XID response that fills the buffer. -/
def fullXid : Received :=
  { rrReceived .little {} with data := [0xfe, 0xbf] ++ List.replicate 2048 0 }

/-- A record with 2051 bytes of data. -/
def longRecord : List UInt8 :=
  [0, 0, 0, 0, 0, 0, 0, 0, 0x13, 0x08, 0, 0, 0x13, 0x08, 0, 0,
    0, 0, 0, 0, 0, 0, 0, 0, 0, 0, 0, 0, 0, 0, 0, 0x17] ++ List.replicate 2051 0

theorem fullXid_length : fullXid.data.length = maxFrameSize := by
  change ([0xfe, 0xbf] ++ List.replicate 2048 (0 : UInt8)).length = 2050
  rw [List.length_append, List.length_replicate]
  rfl

theorem fullXid_leavesNoRoom : LeavesNoRoom fullXid.env fullXid.data := by
  refine ⟨fullXid_length, rfl, Or.inl (by decide), ?_⟩
  -- a response always has device information
  have hcmd : fullXid.data.getD 0 0 &&& cmdFrame = 0 := by decide
  rw [hcmd, xidHasInfo]
  exact Bool.or_true _

theorem longRecord_length : (recordData .little longRecord).length = 2051 := by
  have hlen : toSize (recordLen .little longRecord) = 2051 := by decide +kernel
  have hrest : (longRecord.drop sizeofPcaprecHdr).drop sizeofSllHeader = List.replicate 2051 0 := rfl
  rw [recordData, hlen, hrest, readFd_of_lt (by decide), List.length_take, List.length_replicate, Nat.min_self]

/-- The string of the first is ended at 2050, and the last byte of the second is read to 2050. -/
theorem frame_writes_overrun :
    ¬ Along (loopTurn .little) (TurnSafe .little) startedDumper [fullXid.input] ∧
      ¬ Along (loopTurn .little) (TurnSafe .little)
        { startedDumper with captureread := some longRecord } [fullXid.input] := by
  constructor
  · rintro ⟨hsafe, -⟩
    have hrecv : RecvFits fullXid.input := by
      intro p hp
      cases hp
      exact fullXid_length.le
    have hfits := (live_safe_iff (g := startedDumper) (show Ready startedDumper from rfl) rfl
      hrecv).1 hsafe
    exact hfits _ rfl rfl (Or.inl rfl) (by simp) fullXid_leavesNoRoom
  · rintro ⟨hsafe, -⟩
    have hlong : RecordLong .little { startedDumper with captureread := some longRecord } := by
      intro fd hfd _
      cases hfd
      decide +kernel
    have hfits := (replay_safe_iff (g := { startedDumper with captureread := some longRecord })
      (show Ready startedDumper from rfl) rfl).1 ⟨hlong, hsafe⟩
    obtain ⟨-, hle, -⟩ := hfits (by decide +kernel)
    rw [longRecord_length] at hle
    exact absurd hle (by decide)

/-- An XID response with the name of the device. -/
def xidResponse : List UInt8 := [0xfe, 0xbf, 1, 1, 0, 0, 0, 2, 0, 0, 0, 1, 0, 0, 4, 0, 0x41]

/-- It comes from the socket. -/
def xidReceived : Received := { rrReceived .little {} with data := xidResponse }

/-- It stands in a file. -/
def xidRecord : List UInt8 :=
  [0, 0, 0, 0, 0, 0, 0, 0, 33, 0, 0, 0, 33, 0, 0, 0, 0, 0, 0, 0, 0, 0, 0, 0, 0, 0, 0, 0, 0, 0, 0x17, 0] ++
    xidResponse

theorem xidRecord_fits : 0 ≤ recordLen .little xidRecord ∧
    (recordData .little xidRecord).length = 17 := by
  decide +kernel

/-- Both ways the name is ended behind the last byte of the frame. -/
theorem frame_writes_inside_xid :
    Along (loopTurn .little) (TurnSafe .little) startedDumper [xidReceived.input] ∧
      Along (loopTurn .little) (TurnSafe .little)
        { startedDumper with captureread := some xidRecord } [xidReceived.input] := by
  have hrecv : ∀ inp ∈ [xidReceived.input], RecvFits inp := by
    intro inp hinp p hp
    rw [List.mem_singleton.1 hinp] at hp
    cases hp
    decide
  have hrun := fun r => (frame_writes_inside .little 8 (fun _ => 0) ⟨1, 0⟩ ⟨0, 0⟩ 0 startedDumper none r
    _ startedDumper_init hrecv).1
  refine ⟨hrun none ⟨?_, trivial⟩, hrun (some xidRecord) ⟨?_, trivial⟩⟩
  · rintro p hp - - - ⟨hlen, -⟩
    cases hp
    exact absurd hlen (by decide)
  · obtain ⟨hnonneg, hlen⟩ := xidRecord_fits
    refine fun _ => ⟨hnonneg, ?_, fun _ _ => not_leavesNoRoom_of_lt ?_⟩
    · rw [hlen]
      decide
    · rw [hlen]
      decide

end Irdadump
