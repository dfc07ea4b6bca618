import IrdaUtils.Sanity.Kept
import IrdaUtils.Spec.Irdadump
import IrdaUtils.Proofs.NetBuf

/-! What a turn of the loop leaves alone. The decoders write to the frame's memory at one
place only, the byte behind the frame where `parse_xid_frame` ends a string, so the
frame is as received when it is dumped and captured. -/

namespace Irdadump
open Memory

/-! ### Memory under the decoders -/

/-- From `s` to `s'` the memory and the block of the buffer are the same. -/
structure Still (s s' : St) : Prop where
  mem : s'.buf.mem = s.buf.mem
  head : s'.buf.head = s.buf.head
  truesize : s'.buf.truesize = s.buf.truesize

theorem Still.after {s s' s'' : St} (h' : Still s' s'') (h : Still s s') : Still s s'' :=
  ⟨h'.mem.trans h.mem, h'.head.trans h.head, h'.truesize.trans h.truesize⟩

theorem Calm.still {ps : List Parser} {s s' : St} (h : Calm ps s s') : Still s s' :=
  ⟨h.mem, h.head, h.truesize⟩

theorem still_kept : Kept Still where
  after := Still.after
  calm := Calm.still
  table _ _ := ⟨rfl, rfl, rfl⟩
  cache _ _ := ⟨rfl, rfl, rfl⟩
  pick _ _ := ⟨rfl, rfl, rfl⟩

theorem still_iFrame (env : Env) (caddr cmd pf : UInt8) (type : ℤ) (s : St) :
    Still s (parseIFrame env caddr cmd pf type s) := by
  have ht : ∀ (nr ns : ℤ) (s : St), Still s (trackI type nr ns s) := by
    intro nr ns s
    unfold trackI
    simp only
    split_ifs <;> exact ⟨rfl, rfl, rfl⟩
  have hu : ∀ t, Still s ((s.pull 2).append t) := still_kept.head s
  unfold parseIFrame
  simp only
  split_ifs
  · exact ((ht _ _ _).after (still_kept.irlmp env _ caddr type cmd)).after (hu _)
  · exact (ht _ _ _).after (hu _)
  · exact (still_kept.irlmp env _ caddr type cmd).after (hu _)
  · exact hu _

theorem still_sFrame (env : Env) (caddr cmd pf ctrl : UInt8) (type : ℤ) (s : St) :
    Still s (parseSFrame env caddr cmd pf ctrl type s) := by
  unfold parseSFrame parseRrFrame trackRr
  simp only
  split_ifs <;> exact ⟨rfl, rfl, rfl⟩

/-- From `s` to `s'` only the byte behind the frame may differ. -/
structure FrameStill (s s' : St) : Prop where
  mem : ∀ a, a ≠ s.buf.data + s.buf.len → s'.buf.mem a = s.buf.mem a
  head : s'.buf.head = s.buf.head
  truesize : s'.buf.truesize = s.buf.truesize

theorem Still.frame {s s' : St} (h : Still s s') : FrameStill s s' :=
  ⟨fun _ _ => by rw [h.mem], h.head, h.truesize⟩

theorem frameStill_xidFrame (env : Env) (cmd : UInt8) (type : ℤ) (s : St) :
    FrameStill s (parseXidFrame env cmd type s) := by
  have hpoke : FrameStill s (s.poke s.buf.len 0) := by
    refine ⟨?_, rfl, rfl⟩
    intro a ha
    refine store_outside ?_
    simp only [List.length_singleton]
    omega
  unfold parseXidFrame parseXidInfo
  simp only
  split_ifs
  all_goals first | exact ⟨hpoke.mem, rfl, rfl⟩ | exact ⟨fun _ _ => rfl, rfl, rfl⟩

/-- The other unnumbered frames write nothing. -/
theorem still_uFrame (env : Env) (caddr cmd pf ctrl : UInt8) (type : ℤ) (s : St)
    (hx : ¬ (ctrl = xidRsp ∨ ctrl = xidCmd)) : Still s (parseUFrame env caddr cmd pf ctrl type s) :=
  still_kept.uFrame env caddr cmd pf ctrl type s fun h => absurd h hx

theorem frameStill_uFrame (env : Env) (caddr cmd pf ctrl : UInt8) (type : ℤ) (s : St) :
    FrameStill s (parseUFrame env caddr cmd pf ctrl type s) := by
  by_cases hx : ctrl = xidRsp ∨ ctrl = xidCmd
  · rw [parseUFrame, if_pos hx]
    exact frameStill_xidFrame env cmd type s
  · exact (still_uFrame env caddr cmd pf ctrl type s hx).frame

theorem frameStill_irlapFrame (env : Env) (type : ℤ) (s : St) :
    FrameStill s (parseIrlapFrame env type s) := by
  unfold parseIrlapFrame
  simp only
  split_ifs
  · exact (still_iFrame env _ _ _ type s).frame
  · exact (still_sFrame env _ _ _ _ type s).frame
  · exact frameStill_uFrame env _ _ _ _ type s

/-! ### One frame -/

/-- The buffer holds the frame `bs`, at its head. -/
structure Holds (buf : GNetBuf) (bs : List UInt8) : Prop where
  data : buf.data = buf.head
  len : buf.len = bs.length
  bytes : load buf.mem buf.head bs.length = bs

/-- From `g` to `g'` the files and the record of frames are the same. -/
structure SameFiles (g g' : Dumper) : Prop where
  ifindex : g'.ifindex = g.ifindex
  capturewrite : g'.capturewrite = g.capturewrite
  captureread : g'.captureread = g.captureread
  frames : g'.frames = g.frames

theorem setTime_files (g : Dumper) (v : TimeVar) (t : Timeval) : SameFiles g (g.setTime v t) := by
  cases v <;> exact ⟨rfl, rfl, rfl, rfl⟩

theorem setTime_st (g : Dumper) (v : TimeVar) (t : Timeval) : (g.setTime v t).st = g.st := by
  cases v <;> rfl

theorem setTime_currTime (g : Dumper) (v : TimeVar) (t : Timeval) :
    (g.setTime v t).currTime = g.currTime := by
  cases v <;> rfl

theorem setTime_prevTime (g : Dumper) (v : TimeVar) (t : Timeval) :
    (g.setTime v t).prevTime = g.prevTime := by
  cases v <;> rfl

theorem time_setTime_self (g : Dumper) (v : TimeVar) (t : Timeval) :
    (g.setTime v t).time v = t := by
  cases v <;> rfl

theorem time_setTime_of_ne (g : Dumper) {v w : TimeVar} (t : Timeval) (h : w ≠ v) :
    (g.setTime v t).time w = g.time w := by
  cases v <;> cases w <;> first | rfl | exact absurd rfl h

theorem SameFiles.trans {g g' g'' : Dumper} (h : SameFiles g g') (h' : SameFiles g' g'') :
    SameFiles g g'' :=
  ⟨h'.ifindex.trans h.ifindex, h'.capturewrite.trans h.capturewrite,
    h'.captureread.trans h.captureread, h'.frames.trans h.frames⟩

theorem append_append (s : St) (t t' : String) : (s.append t).append t' = s.append (t ++ t') := by
  simp only [St.append, String.append_assoc]

theorem printDiffTime_spec (env : Env) (g : Dumper) :
    (∃ t, (printDiffTime env g).st = g.st.append t) ∧ SameFiles g (printDiffTime env g) := by
  unfold printDiffTime
  simp only
  refine ⟨⟨_, congrArg (St.append · _) ((setTime_st _ _ _).trans (setTime_st _ _ _))⟩, ?_⟩
  have h := (setTime_files g g.currTime (diffTime (g.time g.currTime) (g.time g.prevTime)).1).trans
    (setTime_files _ g.prevTime (diffTime (g.time g.currTime) (g.time g.prevTime)).2)
  exact ⟨h.ifindex, h.capturewrite, h.captureread, h.frames⟩

/-- Printing the times changes the line and the times only. -/
theorem printTimes_spec (env : Env) (g : Dumper) :
    (∃ t, (printTimes env g).st = g.st.append t) ∧ SameFiles g (printTimes env g) := by
  unfold printTimes
  simp only
  split_ifs
  · obtain ⟨⟨t, ht⟩, hf⟩ := printDiffTime_spec env (g.append (printTime (g.time g.currTime)))
    exact ⟨⟨_, ht.trans (append_append _ _ _)⟩,
      ⟨hf.ifindex, hf.capturewrite, hf.captureread, hf.frames⟩⟩
  · exact ⟨⟨_, rfl⟩, ⟨rfl, rfl, rfl, rfl⟩⟩

theorem decodeFrame_spec (env : Env) (type : ℤ) (g : Dumper) :
    FrameStill g.st (decodeFrame env type g).st ∧ SameFiles g (decodeFrame env type g) := by
  obtain ⟨⟨t, ht⟩, hf⟩ := printTimes_spec env g
  unfold decodeFrame
  simp only
  split_ifs
  · have h := frameStill_irlapFrame env type (printTimes env g).st
    rw [ht] at h
    refine ⟨?_, hf.ifindex, hf.capturewrite, hf.captureread, hf.frames⟩
    simp only [ht]
    exact ⟨h.mem, h.head, h.truesize⟩
  · refine ⟨?_, hf⟩
    rw [ht]
    exact ⟨fun _ _ => rfl, rfl, rfl⟩

/-- Decoding leaves the frame in the buffer as it is. -/
theorem FrameStill.bytes {s s' : St} {bs : List UInt8} (h : FrameStill s s')
    (hs : Holds s.buf bs) : load s'.buf.mem s'.buf.head bs.length = bs := by
  have e : load s'.buf.mem s'.buf.head bs.length = load s.buf.mem s.buf.head bs.length := by
    rw [h.head]
    refine load_congr fun i hi => h.mem _ ?_
    rw [hs.data, hs.len]
    omega
  rw [e, hs.bytes]

/-- The call that `parse_irda_frame` records for the frame `bs`. -/
def Dumper.call (g : Dumper) (type : ℤ) (bs : List UInt8) : FrameCall :=
  ⟨type ≠ 0, bs.length, bs, g.time g.currTime⟩

/-- The line and the dumps do not touch memory. -/
theorem frameStill_irdaFrame (env : Env) (type len : ℤ) (g : Dumper) :
    FrameStill g.st (parseIrdaFrame env type len g).st := by
  obtain ⟨hs, -⟩ := decodeFrame_spec env type { g with frames := g.frames ++ [
    ⟨type ≠ 0, len, load g.st.buf.mem g.st.buf.head len.toNat, g.time g.currTime⟩] }
  exact ⟨hs.mem, hs.head, hs.truesize⟩

theorem parseIrdaFrame_spec (env : Env) (type : ℤ) {bs : List UInt8} {g : Dumper}
    (h : Holds g.st.buf bs) :
    FrameStill g.st (parseIrdaFrame env type bs.length g).st ∧
      (parseIrdaFrame env type bs.length g).capturewrite = g.capturewrite ∧
      (parseIrdaFrame env type bs.length g).captureread = g.captureread ∧
      (parseIrdaFrame env type bs.length g).ifindex = g.ifindex ∧
      (parseIrdaFrame env type bs.length g).frames = g.frames ++ [g.call type bs] := by
  have hc : (⟨type ≠ 0, bs.length, load g.st.buf.mem g.st.buf.head (bs.length : ℤ).toNat,
      g.time g.currTime⟩ : FrameCall) = g.call type bs := by
    rw [Int.toNat_natCast, h.bytes]
    rfl
  unfold parseIrdaFrame
  simp only [hc]
  obtain ⟨hs, hf⟩ := decodeFrame_spec env type { g with frames := g.frames ++ [g.call type bs] }
  exact ⟨⟨hs.mem, hs.head, hs.truesize⟩, hf.capturewrite, hf.captureread, hf.ifindex, hf.frames⟩

/-! ### The buffer -/

/-- The block of the frame buffer is the one that `irdadump_init` has taken. -/
def Ready (g : Dumper) : Prop := g.st.buf.truesize = maxFrameSize

/-- A frame that fits is put into the recycled buffer without a move of the block. -/
theorem put_recycled (re : Realloc) {buf : GNetBuf} {n : ℕ} (hbuf : buf.truesize = maxFrameSize)
    (hn : n ≤ maxFrameSize) :
    (gNetbufPut re (gNetbufRecycle buf) n).2 =
      { gNetbufRecycle buf with tail := buf.head + n, len := n } := by
  have hlen : guint (0 + n) = n := by
    rw [Nat.zero_add]
    exact guint_of_lt (lt_of_le_of_lt hn (by decide))
  have hend : ¬ (buf.head + buf.truesize < buf.head + n) := by
    rw [hbuf]
    omega
  simp only [gNetbufPut, gNetbufRecycle, hlen, if_neg hend]

/-- What the socket or the file has stored at the head of the recycled buffer is the frame. -/
theorem holds_put (re : Realloc) (buf : GNetBuf) {bs : List UInt8}
    (hbuf : buf.truesize = maxFrameSize) (hn : bs.length ≤ maxFrameSize)
    (hb : load buf.mem buf.head bs.length = bs) :
    Holds (gNetbufPut re (gNetbufRecycle buf) bs.length).2 bs ∧
      (gNetbufPut re (gNetbufRecycle buf) bs.length).2.truesize = maxFrameSize := by
  rw [put_recycled re hbuf hn]
  exact ⟨⟨rfl, rfl, hb⟩, hbuf⟩

/-! ### A turn of the live loop -/

/-- A packet from the socket with its stamp, and the rest of what the turn is given. -/
structure Received where
  env : Env
  re : Realloc
  sll : SllHeader
  data : List UInt8
  src : SockaddrLl
  time : Timeval

def Received.input (r : Received) : LoopInput :=
  ⟨r.env, r.re, some ⟨r.data, r.src, some r.time⟩, r.sll⟩

/-- The live path takes the packet. -/
structure Accepted (o : ByteOrder.Order) (ifindex : ℤ) (r : Received) : Prop where
  protocol : r.src.sllProtocol = ByteOrder.ntohs o ethPIrda
  interface : ifindex = 0 ∨ r.src.sllIfindex = ifindex
  nonempty : 1 ≤ r.data.length
  fits : r.data.length ≤ maxFrameSize

def Received.call (r : Received) : FrameCall :=
  ⟨r.src.sllPkttype ≠ 0, r.data.length, r.data, r.time⟩

/-- The two times behind a frame with the stamp `t`, the one that is written first. -/
def timesAfter (printDiff : Bool) (t prev : Timeval) : Timeval × Timeval :=
  if printDiff then ((diffTime t prev).2, (diffTime t prev).1) else (t, prev)

theorem printTimes_time (env : Env) {g : Dumper} (hne : g.currTime ≠ g.prevTime) :
    (printTimes env g).currTime ≠ (printTimes env g).prevTime ∧
      ((printTimes env g).time (printTimes env g).currTime,
        (printTimes env g).time (printTimes env g).prevTime) =
        timesAfter env.cfg.printDiff (g.time g.currTime) (g.time g.prevTime) := by
  unfold printTimes timesAfter
  simp only
  split_ifs
  · obtain ⟨ifindex, w, r, t1, t2, curr, prev, st, frames⟩ := g
    cases curr <;> cases prev
    · exact absurd rfl hne
    · exact ⟨by simp [printDiffTime, Dumper.append, Dumper.setTime], rfl⟩
    · exact ⟨by simp [printDiffTime, Dumper.append, Dumper.setTime], rfl⟩
    · exact absurd rfl hne
  · exact ⟨hne, rfl⟩

/-- The times are settled before the frame is decoded. -/
theorem parseIrdaFrame_time (env : Env) (type len : ℤ) (g : Dumper) (hne : g.currTime ≠ g.prevTime) :
    (parseIrdaFrame env type len g).currTime ≠ (parseIrdaFrame env type len g).prevTime ∧
      ((parseIrdaFrame env type len g).time (parseIrdaFrame env type len g).currTime,
        (parseIrdaFrame env type len g).time (parseIrdaFrame env type len g).prevTime) =
        timesAfter env.cfg.printDiff (g.time g.currTime) (g.time g.prevTime) := by
  have h := printTimes_time env (g := { g with frames := g.frames ++ [
    ⟨type ≠ 0, len, load g.st.buf.mem g.st.buf.head len.toNat, g.time g.currTime⟩] }) hne
  unfold parseIrdaFrame decodeFrame
  simp only
  split_ifs <;> exact h

/-- Writing the record touches the file only. -/
theorem captureFrame_eq (o : ByteOrder.Order) (inp : LoopInput) (len : ℕ) (src : SockaddrLl)
    (g : Dumper) :
    captureFrame o inp len src g = { g with
      capturewrite := g.capturewrite.map
        (· ++ capwriteDump o inp.sll g.st.buf len src (g.time g.currTime)) } := by
  obtain ⟨ifindex, w, r, t1, t2, curr, prev, st, frames⟩ := g
  cases w <;> rfl

theorem live_loop_eq {o : ByteOrder.Order} {inp : LoopInput} {g : Dumper}
    (hlive : g.captureread = none) : irdadumpLoop o inp g = liveLoop o inp (recycle g) := by
  unfold irdadumpLoop
  simp only [recycle, hlive]

/-- The program as it is when it decodes the packet. -/
def Received.stored (r : Received) (g : Dumper) : Dumper :=
  Dumper.setTime
    { g with st := { g.st with buf := (gNetbufPut r.re (gNetbufRecycle
      { g.st.buf with mem := store g.st.buf.mem g.st.buf.head r.data }) r.data.length).2 } }
    g.currTime r.time

theorem live_turn_eq {o : ByteOrder.Order} {g : Dumper} {r : Received}
    (hlive : g.captureread = none) (ha : Accepted o g.ifindex r) :
    irdadumpLoop o r.input g =
      (.ok, captureFrame o r.input r.data.length r.src
        (parseIrdaFrame r.env r.src.sllPkttype.toNat r.data.length (r.stored g))) := by
  have hlen : ¬ (r.data.length = 0) := by
    have := ha.nonempty
    omega
  obtain ⟨ifindex, w, fd, t1, t2, curr, prev, st, frames⟩ := g
  subst hlive
  have hif : ¬ (ifindex ≠ 0 ∧ r.src.sllIfindex ≠ ifindex) := by
    rintro ⟨h0, h1⟩
    exact ha.interface.elim h0 h1
  change (if r.src.sllProtocol ≠ ByteOrder.ntohs o ethPIrda then _
    else if ifindex ≠ 0 ∧ r.src.sllIfindex ≠ ifindex then _
    else if r.data.length = 0 then _ else _) = _
  rw [if_neg (not_not.2 ha.protocol), if_neg hif, if_neg hlen]
  rfl

/-- A turn of the live loop on a packet that it takes: the frame is decoded once, with its
own bytes and stamp, and the capture file gets one record of it. The time in the record is
the current time after the decoding. -/
theorem live_turn {o : ByteOrder.Order} {g : Dumper} {r : Received} (hready : Ready g)
    (hlive : g.captureread = none) (hne : g.currTime ≠ g.prevTime)
    (ha : Accepted o g.ifindex r) :
    ∃ g', irdadumpLoop o r.input g = (.ok, g') ∧ Ready g' ∧ g'.captureread = none ∧
      g'.ifindex = g.ifindex ∧ g'.currTime ≠ g'.prevTime ∧
      (g'.time g'.currTime, g'.time g'.prevTime) =
        timesAfter r.env.cfg.printDiff r.time (g.time g.prevTime) ∧
      g'.frames = g.frames ++ [r.call] ∧
      ∀ file, g.capturewrite = some file → ∃ buf : GNetBuf,
        load buf.mem buf.head r.data.length = r.data ∧
        g'.capturewrite =
          some (file ++ capwriteDump o r.sll buf r.data.length r.src (g'.time g'.currTime)) := by
  obtain ⟨hholds, hsize⟩ := holds_put r.re
    { g.st.buf with mem := store g.st.buf.mem g.st.buf.head r.data } hready ha.fits
    (load_store _ _ _)
  have hst : (r.stored g).st.buf = (gNetbufPut r.re (gNetbufRecycle
      { g.st.buf with mem := store g.st.buf.mem g.st.buf.head r.data }) r.data.length).2 := by
    rw [Received.stored, setTime_st]
  rw [← hst] at hholds hsize
  have hcurr : (r.stored g).currTime = g.currTime := setTime_currTime _ _ _
  have hprev : (r.stored g).prevTime = g.prevTime := setTime_prevTime _ _ _
  have htime : (r.stored g).time (r.stored g).currTime = r.time := by
    rw [hcurr]
    exact time_setTime_self _ _ _
  have hptime : (r.stored g).time (r.stored g).prevTime = g.time g.prevTime := by
    rw [hprev]
    exact time_setTime_of_ne _ _ hne.symm
  have hfiles : SameFiles g (r.stored g) :=
    SameFiles.trans (by exact ⟨rfl, rfl, rfl, rfl⟩) (setTime_files _ g.currTime r.time)
  obtain ⟨hs, hw, hr, hi, hf⟩ := parseIrdaFrame_spec r.env r.src.sllPkttype.toNat hholds
  obtain ⟨hne', ht⟩ := parseIrdaFrame_time r.env r.src.sllPkttype.toNat r.data.length (r.stored g)
    (by rw [hcurr, hprev]; exact hne)
  rw [htime, hptime] at ht
  have hcall : (r.stored g).call r.src.sllPkttype.toNat r.data = r.call := by
    have hz : ((r.src.sllPkttype.toNat : ℤ) ≠ 0) ↔ r.src.sllPkttype ≠ 0 := by
      rw [Ne, Ne, ← UInt8.toNat_inj, Int.natCast_eq_zero]
      rfl
    simp only [Dumper.call, Received.call, htime, hz]
  refine ⟨_, live_turn_eq hlive ha, ?_⟩
  rw [captureFrame_eq]
  refine ⟨hs.truesize.trans hsize, hr.trans (hfiles.captureread.trans hlive),
    hi.trans hfiles.ifindex, hne', ht, ?_, ?_⟩
  · rw [← hcall, ← hfiles.frames]
    exact hf
  · intro file hfile
    refine ⟨_, hs.bytes hholds, ?_⟩
    simp only [hw, hfiles.capturewrite, hfile, Option.map_some]
    rfl

def liveStep (o : ByteOrder.Order) (g : Dumper) (r : Received) : Dumper :=
  (irdadumpLoop o r.input g).2

/-- What holds between the turns of a live run that writes a capture file. -/
structure Capturing (g : Dumper) : Prop where
  ready : Ready g
  live : g.captureread = none
  times : g.currTime ≠ g.prevTime
  file : g.capturewrite ≠ none

/-- The start of a live run with `-w`. -/
def captureStart (o : ByteOrder.Order) (g : Dumper) : Dumper :=
  { g with capturewrite := some (capwriteInit o) }

theorem capturing_start {o : ByteOrder.Order} {base : ℕ} {heap : Mem} {now time1 : Timeval}
    {ifindex : ℤ} {g : Dumper} (h : irdadumpInit base heap now ifindex time1 = some g) :
    Capturing (captureStart o g) ∧ (captureStart o g).ifindex = ifindex ∧
      (captureStart o g).time (captureStart o g).prevTime = now ∧
      (captureStart o g).frames = [] := by
  obtain ⟨buf, hbuf, rfl⟩ := Option.map_eq_some_iff.1 h
  have hsize : buf.truesize = maxFrameSize := by
    simp only [gNetbufNew, gMalloc, if_neg (show ¬ maxFrameSize = 0 by decide),
      Option.some.injEq] at hbuf
    rw [← hbuf]
    rfl
  exact ⟨⟨hsize, rfl, by simp [captureStart], by simp [captureStart]⟩, rfl, rfl, rfl⟩

theorem live_step {o : ByteOrder.Order} {g : Dumper} {r : Received} (h : Capturing g)
    (ha : Accepted o g.ifindex r) :
    Capturing (liveStep o g r) ∧ (liveStep o g r).ifindex = g.ifindex ∧
      ((liveStep o g r).time (liveStep o g r).currTime,
        (liveStep o g r).time (liveStep o g r).prevTime) =
        timesAfter r.env.cfg.printDiff r.time (g.time g.prevTime) ∧
      (liveStep o g r).frames = g.frames ++ [r.call] ∧
      ∃ buf : GNetBuf, load buf.mem buf.head r.data.length = r.data ∧
        ∀ file, g.capturewrite = some file →
          (liveStep o g r).capturewrite = some (file ++ capwriteDump o r.sll buf r.data.length r.src
            (timesAfter r.env.cfg.printDiff r.time (g.time g.prevTime)).1) := by
  obtain ⟨g', e, hready, hlive, hif, hne, ht, hf, hw⟩ := live_turn h.ready h.live h.times ha
  obtain ⟨file, hfile⟩ := Option.ne_none_iff_exists'.1 h.file
  obtain ⟨buf, hb, hw⟩ := hw file hfile
  have e' : liveStep o g r = g' := congrArg Prod.snd e
  have htime : g'.time g'.currTime =
      (timesAfter r.env.cfg.printDiff r.time (g.time g.prevTime)).1 := congrArg Prod.fst ht
  rw [e']
  refine ⟨⟨hready, hlive, hne, by simp [hw]⟩, hif, ht, hf, buf, hb, ?_⟩
  intro file' hfile'
  rw [hfile] at hfile'
  cases hfile'
  rw [hw, htime]

/-! ### A run of one frame -/

def plainEnv (cfg : Config) : Env :=
  { cfg := cfg, stack := fun _ => [], heapTop := 0, beyond := fun _ _ => 0, diffText := fun _ _ => "" }

/-- A supervisory frame of another host, one second past the epoch. -/
def rrReceived (o : ByteOrder.Order) (cfg : Config) : Received where
  env := plainEnv cfg
  re := fun _ _ _ => none
  sll := ⟨0, 0, 0, fun _ => 0, 0⟩
  data := [0x02, 0x11]
  src := ⟨ByteOrder.ntohs o ethPIrda, 1, 783, 0, 0, fun _ => 0⟩
  time := ⟨1, 500⟩

theorem rrReceived_accepted (o : ByteOrder.Order) (cfg : Config) : Accepted o 0 (rrReceived o cfg) :=
  ⟨rfl, Or.inl rfl, by simp [rrReceived], by simp [rrReceived, maxFrameSize]⟩

/-- A program that is started at time `⟨1, 0⟩`. -/
def startedDumper : Dumper where
  ifindex := 0
  capturewrite := none
  captureread := none
  time1 := ⟨0, 0⟩
  time2 := ⟨1, 0⟩
  currTime := .time1
  prevTime := .time2
  st := ⟨Decoder.init, gNetbufRecycle
    { data := 0, head := 8, tail := 0, end_ := 0, len := 0, truesize := 2050, mem := fun _ => 0 },
    "", [], [], []⟩
  frames := []

theorem startedDumper_init :
    irdadumpInit 8 (fun _ => 0) ⟨1, 0⟩ 0 ⟨0, 0⟩ = some startedDumper := rfl

end Irdadump
