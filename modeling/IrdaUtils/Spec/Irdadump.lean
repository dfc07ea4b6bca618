import IrdaUtils.Spec.Capture
import IrdaUtils.Spec.Irlap

/-! `irdadump.c`: the loop that takes packets from the socket or from a capture file,
decodes them and writes them to a capture file. -/

namespace Irdadump
open Memory ByteOrder

def ethPIrda : UInt16 := 0x0017
def maxFrameSize : ℕ := 2050

/-- The two variables that `curr_time` and `prev_time` point to. -/
inductive TimeVar where
  | time1
  | time2
  deriving DecidableEq, Repr

/-- The arguments and the time of one call of `parse_irda_frame`. -/
structure FrameCall where
  dir : Bool
  len : ℤ
  frame : List UInt8
  time : Timeval
  deriving DecidableEq

/-- The variables of the program. `capturewrite` and `captureread` are the open files,
`none` for `-1`; `frames` records the calls of `parse_irda_frame` and is not read. -/
structure Dumper where
  ifindex : ℤ
  capturewrite : Option (List UInt8)
  captureread : Option (List UInt8)
  time1 : Timeval
  time2 : Timeval
  currTime : TimeVar
  prevTime : TimeVar
  st : St
  frames : List FrameCall

def Dumper.time (g : Dumper) : TimeVar → Timeval
  | .time1 => g.time1
  | .time2 => g.time2

def Dumper.setTime (g : Dumper) (v : TimeVar) (t : Timeval) : Dumper :=
  match v with
  | .time1 => { g with time1 := t }
  | .time2 => { g with time2 := t }

def Dumper.append (g : Dumper) (t : String) : Dumper := { g with st := g.st.append t }

def printTime (t : Timeval) : String :=
  let s := Int.tmod t.tvSec 86400
  let s := (if s < 0 then s + 86400 else s).toNat
  s!"{fmtD 2 (s / 3600)}:{fmtD 2 (s % 3600 / 60)}:{fmtD 2 (s % 60)}." ++
    s!"{fmtD 6 (toU32 t.tvUsec)} "

/-- Both times after the subtraction: the current one with a borrow, the previous one
overwritten by the difference. -/
def diffTime (timev prevTimev : Timeval) : Timeval × Timeval :=
  let timev : Timeval :=
    if timev.tvUsec < prevTimev.tvUsec then ⟨timev.tvSec - 1, timev.tvUsec + 1000000⟩ else timev
  (timev, ⟨timev.tvSec - prevTimev.tvSec, timev.tvUsec - prevTimev.tvUsec⟩)

def printDiffTime (env : Env) (g : Dumper) : Dumper :=
  let r := diffTime (g.time g.currTime) (g.time g.prevTime)
  let g := (g.setTime g.currTime r.1).setTime g.prevTime r.2
  g.append s!"({env.diffText r.2.tvSec r.2.tvUsec} ms) "

def irdadumpInit (base : ℕ) (heap : Mem) (now : Timeval) (ifindex : ℤ) (time1 : Timeval) :
    Option Dumper :=
  (gNetbufNew base heap maxFrameSize).map fun buf =>
    { ifindex := ifindex
      capturewrite := none
      captureread := none
      time1 := time1
      time2 := now
      currTime := .time1
      prevTime := .time2
      st := ⟨Decoder.init, buf, "", [], [], []⟩
      frames := [] }

/-! ### One frame -/

/-- A byte of the text dump. -/
def dumpChar (b : UInt8) : Char := if b < 32 ∨ 126 < b then '.' else Char.ofNat b.toNat

/-- The `-x` dump. -/
def dumpFrameText (bs : List UInt8) : String :=
  "\n\t" ++ String.join (bs.map fun b => fmtX 2 b.toNat) ++ "\n\t" ++
    String.join (bs.map fun b => " " ++ String.singleton (dumpChar b))

/-- The `-b` dump from byte number `i` on. -/
def dumpBytesText (snapcols : ℕ) : ℕ → List UInt8 → String
  | _, [] => ""
  | i, b :: bs =>
    (if i % snapcols = 0 then "\n\t" else "") ++ fmtX 2 b.toNat ++ " " ++
      dumpBytesText snapcols (i + 1) bs

def dumpText (cfg : Config) (bs : List UInt8) : String :=
  (if cfg.dumpFrame then dumpFrameText bs else "") ++
    (if cfg.dumpBytes then dumpBytesText cfg.snapcols 0 bs else "")

/-- The captured time and, with `-d`, the difference; the pointers are then swapped. -/
def printTimes (env : Env) (g : Dumper) : Dumper :=
  let g := g.append (printTime (g.time g.currTime))
  if env.cfg.printDiff then
    let g := printDiffTime env g
    { g with currTime := g.prevTime, prevTime := g.currTime }
  else g

/-- Everything before the dumps: the times and the decoding. -/
def decodeFrame (env : Env) (type : ℤ) (g : Dumper) : Dumper :=
  let g := printTimes env g
  if env.cfg.printIrlap then { g with st := parseIrlapFrame env type g.st } else g

def parseIrdaFrame (env : Env) (type : ℤ) (len : ℤ) (g : Dumper) : Dumper :=
  let g := { g with frames := g.frames ++ [
    { dir := type ≠ 0
      len := len
      frame := load g.st.buf.mem g.st.buf.head len.toNat
      time := g.time g.currTime }] }
  let g := decodeFrame env type g
  let g := g.append s!"({len}) "
  let maxlen := (if len < env.cfg.snaplen then len else env.cfg.snaplen).toNat
  g.append (dumpText env.cfg (load g.st.buf.mem g.st.buf.head maxlen))

/-! ### The loop -/

/-- A packet: what `recvfrom` stores, and the stamp that `SIOCGSTAMP` gives for it. -/
structure Recv where
  data : List UInt8
  src : SockaddrLl
  stamp : Option Timeval

/-- What one turn of the loop gets from outside; `recv` is `none` when `recvfrom`
fails, and `sll` is the stack where `capwrite_dump` puts its header. -/
structure LoopInput where
  env : Env
  re : Realloc
  recv : Option Recv
  sll : SllHeader

inductive Outcome where
  | ok
  | skipped
  | exit
  deriving DecidableEq, Repr

def recycle (g : Dumper) : Dumper :=
  { g with st := { g.st with buf := gNetbufRecycle g.st.buf } }

/-- `g_netbuf_put (frame_buf, len)`; the answer is not looked at. -/
def putFrame (re : Realloc) (len : ℕ) (g : Dumper) : Dumper :=
  { g with st := { g.st with buf := (gNetbufPut re g.st.buf len).2 } }

def replayLoop (o : Order) (inp : LoopInput) (fd : List UInt8) (g : Dumper) : Outcome × Dumper :=
  let r := capreadGet o
    { fd := fd, frameBuf := g.st.buf, plen := 0, pdir := 0, pprot := 0
      currTime := g.time g.currTime }
  let g := { g with captureread := some r.2.fd, st := { g.st with buf := r.2.frameBuf } }
  let g := g.setTime g.currTime r.2.currTime
  if r.1 < 0 then (.exit, g)
  else if r.2.pprot ≠ ethPIrda.toNat then (.skipped, g)
  else if r.2.plen = 0 then (.skipped, g)
  else (.ok, parseIrdaFrame inp.env r.2.pdir r.2.plen (putFrame inp.re (toU32 r.2.plen) g))

/-- What `capread_get` is called with. -/
def Dumper.capread (g : Dumper) (fd : List UInt8) : Capread where
  fd := fd
  frameBuf := gNetbufRecycle g.st.buf
  plen := 0
  pdir := 0
  pprot := 0
  currTime := g.time g.currTime

/-- The capture file is written when the frame has been decoded. -/
def captureFrame (o : Order) (inp : LoopInput) (len : ℕ) (src : SockaddrLl) (g : Dumper) :
    Dumper :=
  match g.capturewrite with
  | none => g
  | some file =>
    let record := capwriteDump o inp.sll g.st.buf len src (g.time g.currTime)
    { g with capturewrite := some (file ++ record) }

def liveLoop (o : Order) (inp : LoopInput) (g : Dumper) : Outcome × Dumper :=
  match inp.recv with
  | none => (.exit, g)
  | some p =>
    let g := { g with st := { g.st with buf :=
      { g.st.buf with mem := store g.st.buf.mem g.st.buf.data p.data } } }
    if p.src.sllProtocol ≠ ntohs o ethPIrda then (.skipped, g)
    else if g.ifindex ≠ 0 ∧ p.src.sllIfindex ≠ g.ifindex then (.skipped, g)
    else if p.data.length = 0 then (.skipped, g)
    else
      let g := putFrame inp.re p.data.length g
      match p.stamp with
      | none => (.exit, g)
      | some t =>
        let g := g.setTime g.currTime t
        let g := parseIrdaFrame inp.env p.src.sllPkttype.toNat p.data.length g
        (.ok, captureFrame o inp p.data.length p.src g)

def irdadumpLoop (o : Order) (inp : LoopInput) (g : Dumper) : Outcome × Dumper :=
  let g := recycle g
  match g.captureread with
  | some fd => replayLoop o inp fd g
  | none => liveLoop o inp g

end Irdadump
