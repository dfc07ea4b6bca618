import IrdaUtils.Lib.ByteOrder
import IrdaUtils.Lib.Decimal
import IrdaUtils.Lib.Stores

/-! `irdaping.c`: the test frame that `timeout` builds in `self.buf`, and what the receive
loop of `main` makes of the answer. The frame is laid out by two packed structures, so that
the places of its fields depend on the size of a `struct timeval`. -/

namespace Irdaping

open Memory ByteOrder Stores

/-- The two ABIs: fields of a `struct timeval` are of four or of eight bytes. -/
inductive Abi where
  | ilp32
  | lp64
  deriving DecidableEq, Repr

def Abi.field : Abi → ℕ
  | .ilp32 => 4
  | .lp64 => 8

def Abi.sizeofTimeval (a : Abi) : ℕ := 2 * a.field
def sizeofTimezone : ℕ := 8

def sizeofTestFrame : ℕ := 10
def Abi.sizeofTestInfo (a : Abi) : ℕ := 2 + a.sizeofTimeval

def cmdFrame : UInt8 := 0x01
def testFrame : UInt8 := 0xe3
def pfBit : UInt8 := 0x10
def cbroadcast : UInt8 := 0xfe

/-- A time of day, as `gettimeofday` gives it. -/
structure Timeval (a : Abi) where
  sec : ℕ
  usec : ℕ
  sec_lt : sec < 2 ^ (8 * a.field - 1)
  usec_lt : usec < 1000000

def Timeval.micros {a : Abi} (t : Timeval a) : ℤ := t.sec * 1000000 + t.usec

def Timeval.bytes {a : Abi} (o : Order) (t : Timeval a) : List UInt8 :=
  bytesOf o a.field t.sec ++ bytesOf o a.field t.usec

/-- The part of `struct instance` that the frame is made of. -/
structure Instance where
  packets : BitVec 32
  hwaddr : ℕ
  daddr : ℕ
  framelen : ℕ
  buf : Mem

/-- `main` up to its loop. -/
def start (a : Abi) (hwaddr daddr framelen : ℕ) : Instance where
  packets := 0
  hwaddr := hwaddr
  daddr := daddr
  framelen := if framelen < 12 + a.sizeofTimeval then 12 + a.sizeofTimeval else framelen
  buf := fun _ => 0

/-- The offsets of `info->pkt_nr`, `info->time` and `info->info` in the frame. -/
def pktNrAt : ℕ := sizeofTestFrame
def timeAt : ℕ := pktNrAt + 2
def Abi.fillAt (a : Abi) : ℕ := sizeofTestFrame + a.sizeofTestInfo

/-- The test frame of the time `now`. -/
def buildFrame (o : Order) (a : Abi) (self : Instance) (now : Timeval a) : Mem :=
  let buf := store self.buf 0 [cbroadcast ||| cmdFrame]
  let buf := store buf 1 [testFrame ||| pfBit]
  let buf := store buf 2 (leBytes 4 self.hwaddr)
  let buf := store buf 6 (leBytes 4 self.daddr)
  let buf := store buf pktNrAt (leBytes 2 self.packets.toNat)
  let buf := store buf timeAt ((now.bytes o).take sizeofTimezone)
  let rest := self.framelen - sizeofTestFrame - a.sizeofTestInfo
  store buf a.fillAt ((List.range rest).map UInt8.ofNat)

def timeout (o : Order) (a : Abi) (self : Instance) (now : Timeval a) : Instance :=
  { self with packets := self.packets + 1, buf := buildFrame o a self now }

/-- What `timeout` sends. -/
def Instance.frame (self : Instance) : List UInt8 := load self.buf 0 self.framelen

/-- The frame unchanged, but as a response. -/
def echo : List UInt8 → List UInt8
  | [] => []
  | b :: bs => (b &&& ~~~cmdFrame) :: bs

/-- A signed integer of `k` bytes, and the value that it has behind an operation. -/
def wrap (k : ℕ) (z : ℤ) : ℤ := z.bmod (2 ^ (8 * k))

structure Answer where
  irdaSeq : ℕ
  tvSec : ℤ
  tvUsec : ℤ
  deriving DecidableEq, Repr

/-- One turn of the receive loop, up to the numbers it prints. `old` is what `buf` held. -/
def answer (o : Order) (a : Abi) (old : Mem) (frame : List UInt8) (now : Timeval a) :
    Option Answer :=
  let buf := store old 0 frame
  if buf 0 &&& cmdFrame ≠ 0 ∨ buf 1 ≠ testFrame ||| pfBit then none
  else if frame.length < sizeofTestFrame then none
  else if frame.length < sizeofTestFrame + a.sizeofTestInfo then none
  else
    let k := a.field
    let sec := wrap k (ofBytes o (load buf timeAt k))
    let usec := wrap k (ofBytes o (load buf (timeAt + k) k))
    let (nowSec, nowUsec) : ℤ × ℤ :=
      if usec > now.usec then (wrap k (now.sec - 1), wrap k (now.usec + 1000000))
      else (now.sec, now.usec)
    some { irdaSeq := ofLeBytes (load buf pktNrAt 2), tvSec := wrap k (nowSec - sec),
           tvUsec := wrap k (nowUsec - usec) }

/-! ### The size of the frame

`self.framelen` is an `int`, and is compared and computed with as a `size_t`. -/

/-- The bits of a `long` and of a `size_t`. -/
def Abi.bits (a : Abi) : ℕ := 8 * a.field

/-- An integer as a `size_t`. -/
def Abi.sizeT (a : Abi) (z : ℤ) : ℤ := z % 2 ^ a.bits

def sizeofBuf : ℕ := 2048

/-- The options that come back to the loop. -/
inductive Opt where
  | s (optarg : List UInt8)
  | i (optarg : List UInt8)
  | unknown
  deriving DecidableEq, Repr

def option (a : Abi) (framelen : ℤ) : Opt → ℤ
  | .s optarg => wrap 4 (Decimal.strtol a.bits optarg)
  | .i _ => framelen
  | .unknown => framelen

/-- `self.framelen` behind the option loop. -/
def framelenOf (a : Abi) (opts : List Opt) : ℤ := opts.foldl (option a) 32

def correctFramesize (a : Abi) (framelen : ℤ) : ℤ :=
  if a.sizeT framelen < 12 + a.sizeofTimeval then 12 + a.sizeofTimeval else framelen

/-- The variable `rest` of `timeout`. -/
def restOf (a : Abi) (framelen : ℤ) : ℤ :=
  wrap 4 (a.sizeT (a.sizeT framelen - sizeofTestFrame - a.sizeofTestInfo))

/-- The writes of `timeout` to `self.buf`. -/
def frameLog (o : Order) (a : Abi) (self : Instance) (framelen : ℤ) (now : Timeval a) : Log :=
  copyTo 0 [cbroadcast ||| cmdFrame] ++ copyTo 1 [testFrame ||| pfBit] ++
    copyTo 2 (leBytes 4 self.hwaddr) ++ copyTo 6 (leBytes 4 self.daddr) ++
    copyTo pktNrAt (leBytes 2 self.packets.toNat) ++
    copyTo timeAt ((now.bytes o).take sizeofTimezone) ++
    copyTo a.fillAt ((List.range (restOf a framelen).toNat).map UInt8.ofNat)

end Irdaping
