import IrdaUtils.Sanity.Loop

/-! Decoding does not alter the frame: what is dumped and what is captured after the
decoding is the frame as it was received. -/

namespace Irdadump
open Memory

/-- The number of bytes that the dumps show. -/
def shown (cfg : Config) (bs : List UInt8) : List UInt8 := bs.take (min bs.length cfg.snaplen)

theorem shown_eq {cfg : Config} {bs : List UInt8} {m : Mem} {a : ℕ}
    (h : load m a bs.length = bs) :
    load m a (if (bs.length : ℤ) < cfg.snaplen then (bs.length : ℤ) else cfg.snaplen).toNat =
      shown cfg bs := by
  have e : (if (bs.length : ℤ) < cfg.snaplen then (bs.length : ℤ) else cfg.snaplen).toNat =
      min bs.length cfg.snaplen := by
    split_ifs <;> omega
  rw [e, shown, ← load_take m a bs.length _ (Nat.min_le_left _ _), h]

/-- The record of calls plays no part in the decoding. -/
theorem decodeFrame_frames (env : Env) (type : ℤ) (g : Dumper) (fs : List FrameCall) :
    (decodeFrame env type { g with frames := fs }).st = (decodeFrame env type g).st := by
  have e : (printTimes env { g with frames := fs }).st = (printTimes env g).st := by
    unfold printTimes
    simp only
    split_ifs
    · simp only [printDiffTime, Dumper.append, setTime_st]
      rfl
    · rfl
  unfold decodeFrame
  simp only
  split_ifs
  · simp only [e]
  · exact e

/-- On a buffer that holds the frame `bs`, `parse_irda_frame` leaves the frame where it is;
the line ends with the dumps of the received bytes, and a capture file gets the record of
the received frame. -/
theorem parseIrdaFrame_keeps_frame (env : Env) (type : ℤ) (bs : List UInt8) (g : Dumper)
    (h : Holds g.st.buf bs) :
    let g' := parseIrdaFrame env type bs.length g
    (g'.st.buf.head = g.st.buf.head ∧ load g'.st.buf.mem g'.st.buf.head bs.length = bs) ∧
      g'.st.str = (decodeFrame env type g).st.str ++ s!"({(bs.length : ℤ)}) " ++
        dumpText env.cfg (shown env.cfg bs) ∧
      ∀ (o : ByteOrder.Order) (inp : LoopInput) (src : SockaddrLl) (file : List UInt8),
        g.capturewrite = some file →
        (captureFrame o inp bs.length src g').capturewrite =
          some (file ++ capwriteDump o inp.sll g.st.buf bs.length src (g'.time g'.currTime)) := by
  intro g'
  obtain ⟨hs, hw, -, -, -⟩ := parseIrdaFrame_spec env type h
  have hb : load g'.st.buf.mem g'.st.buf.head bs.length = bs := hs.bytes h
  refine ⟨⟨hs.head, hb⟩, ?_, ?_⟩
  · have hd := (decodeFrame_spec env type
      { g with frames := g.frames ++ [⟨type ≠ 0, bs.length, load g.st.buf.mem g.st.buf.head
        (bs.length : ℤ).toNat, g.time g.currTime⟩] }).1.bytes h
    simp only [g', parseIrdaFrame, Dumper.append, St.append]
    rw [shown_eq hd, decodeFrame_frames]
  · intro o inp src file hfile
    have e : g'.capturewrite = some file := hw.trans hfile
    simp only [captureFrame, e, capwriteDump, hb, h.bytes]

/-- A device information frame: its string is ended behind the last byte. -/
def xidFrame : List UInt8 := [0x03, 0x3f, 0x01, 1, 2, 3, 4, 5, 6, 7, 8, 0x01, 0xff, 0x00, 0x04, 0x00, 0x50]

def xidEnv : Env :=
  { cfg := {}, stack := fun _ => [], heapTop := 2058, beyond := fun _ _ => 0, diffText := fun _ _ => "" }

def xidBuf : GNetBuf :=
  { data := 8, head := 8, tail := 25, end_ := 2058, len := 17, truesize := 2050,
    mem := store (fun _ => 0x20) 8 xidFrame }

def xidDumper : Dumper :=
  { ifindex := 0, capturewrite := some [], captureread := none, time1 := ⟨1, 0⟩, time2 := ⟨0, 0⟩,
    currTime := .time1, prevTime := .time2, st := ⟨Decoder.init, xidBuf, "", [], [], []⟩, frames := [] }

theorem parseIrdaFrame_keeps_frame_xid :
    load (parseIrdaFrame xidEnv 1 xidFrame.length xidDumper).st.buf.mem
      (parseIrdaFrame xidEnv 1 xidFrame.length xidDumper).st.buf.head xidFrame.length = xidFrame := by
  have h : Holds xidDumper.st.buf xidFrame := ⟨rfl, rfl, by decide⟩
  exact (parseIrdaFrame_keeps_frame xidEnv 1 xidFrame xidDumper h).1.2

end Irdadump
