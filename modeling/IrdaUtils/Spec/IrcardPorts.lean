import IrdaUtils.Lib.Banked
import IrdaUtils.Spec.Ircard

/-! `ircard_cs.c` and `ircard_cs.h`, as what the driver does to the registers of the chip and to
the shared memory window: the change of speed, the transmission, the reception and the interrupt
handler. The delays, also the one for the turnaround time, and the times that they are computed
from are left out, and so is what irport does with the ports of the UART. -/

namespace Ircard
open Banked

/-! ### Registers -/

def mcrIntrEn : UInt8 := 0x80
def mcrTxEn : UInt8 := 0x40
def mcrRxEn : UInt8 := 0x20
def mcrBankMask : UInt8 := 0x1f

def msr : Reg := ⟨0, 1⟩
def msrRxCondId : UInt8 := 0x08
def msrRxDataId : UInt8 := 0x0a
def msrTxCondId : UInt8 := 0x0e
def msrIdMask : UInt8 := 0x0e

def misc : Reg := ⟨0, 1⟩

def txCtrl1 : Reg := ⟨0, 3⟩
def txCtrl1Rts : UInt8 := 0x80
def txCtrl1UndrEomI : UInt8 := 0x20

def txCtrl2 : Reg := ⟨0, 4⟩
def txCtrl2EnTxCrc : UInt8 := 0x40
def txCtrl2EarlyEom16 : UInt8 := 0x01

def txStat : Reg := ⟨0, 5⟩
def txStatFifoUndr : UInt8 := 0x08
def txStatEom : UInt8 := 0x04

def rxCtrl : Reg := ⟨0, 6⟩
def rxCtrlCondI : UInt8 := 0x01
def rxCtrlEnCrc : UInt8 := 0x40

def reset : Reg := ⟨0, 7⟩
def resetRxSpecBits : UInt8 := 0x30
def resetRxRfp : UInt8 := 0x40
def resetTxSpecBits : UInt8 := 0x50

def rxRingFrmPtrLow : Reg := ⟨1, 4⟩
def rxRingFrmPtrHigh : Reg := ⟨1, 5⟩
def txByteCountLow : Reg := ⟨1, 6⟩
def txByteCountHigh : Reg := ⟨1, 7⟩

def irConf : Reg := ⟨2, 1⟩
def irConfSir : UInt8 := 0x00
def irConfMir : UInt8 := 0x02
def irConfFir : UInt8 := 0x04
def irConfMir1152 : UInt8 := 0x00
def irConfMir576 : UInt8 := 0x10

def irTransCtrl : Reg := ⟨2, 2⟩
def irTransCtrlTxdFrc : UInt8 := 0x02
def irTransCtrlXcvroff : UInt8 := 0x10

def shMemPage : Reg := ⟨3, 1⟩
def txDmaAddrLow : Reg := ⟨3, 2⟩
def txDmaAddrHigh : Reg := ⟨3, 3⟩
def revisionId : Reg := ⟨3, 7⟩

def setMcr (itr bank : UInt8) : Prog Unit := outMaster (itr ||| bank)

/-- `__switch_bank`: the other bits of the master register are cleared. -/
def rawSwitchBank (bank : UInt8) : Prog Unit := outMaster bank

def switchBank (bank : UInt8) : Prog UInt8 := do
  let mcr ← inMaster
  let oldBank := mcr &&& mcrBankMask
  setMcr (mcr &&& ~~~mcrBankMask) bank
  pure oldBank

def restoreBank (bank : UInt8) : Prog UInt8 := switchBank bank

/-! ### The driver -/

inductive Direction where
  | xmit
  | recv
  deriving DecidableEq, Repr

structure Stats where
  txErrors : ℕ
  txFifoErrors : ℕ
  txPackets : ℕ
  txBytes : ℕ
  rxErrors : ℕ
  rxFrameErrors : ℕ
  rxFifoErrors : ℕ
  rxPackets : ℕ
  deriving DecidableEq, Repr

/-- The `irda_device` with the driver's own data. `fir` tells whether `ircard_hard_xmit` is the
handler for transmission, and `received` has the frames that went to `netif_rx`. `log` records
what happens to the transmit queue; the driver does not read it. -/
structure Idev where
  txQ : ShmQueue
  membase : ℕ
  data : ℤ
  baudrate : ℕ
  fir : Bool
  direction : Direction
  tbusy : Bool
  interrupt : Bool
  mediaBusy : Bool
  txBuffLen : ℕ
  stats : Stats
  received : List (List UInt8)
  log : List Event

/-- What the kernel answers in a turn of the interrupt handler: whether `dev_alloc_skb` has a
buffer, and `irda_device_txqueue_empty`. -/
structure Turn where
  skb : Bool
  txqueueEmpty : Bool

/-- `ircard_probe`, with the revision that it prints. -/
def probe : Prog UInt8 := do
  let _ ← switchBank 3
  let revision ← inReg revisionId
  outReg shMemPage 0
  let _ ← switchBank 0
  outReg txCtrl2 txCtrl2EnTxCrc
  let _ ← switchBank 3
  outReg shMemPage 0
  outReg txDmaAddrLow 0
  outReg txDmaAddrHigh (.ofNat pageDisable)
  pure revision

def sirToFir : Prog Unit := do
  rawSwitchBank 2
  outReg irTransCtrl irTransCtrlXcvroff
  outReg irTransCtrl (irTransCtrlXcvroff ||| irTransCtrlTxdFrc)
  outReg irTransCtrl irTransCtrlTxdFrc
  outReg irTransCtrl 0

def firToSir : Prog Unit := do
  rawSwitchBank 2
  outReg irTransCtrl irTransCtrlXcvroff
  outReg irTransCtrl 0

/-- `ircard_dma_write` -/
def Idev.dmaWrite (self : Idev) : Prog Idev := do
  let frame := self.txQ.queue self.txQ.ptr
  let _ ← switchBank 0
  outReg misc 0
  let self : Idev := { self with direction := .xmit }
  setMcr (mcrIntrEn ||| mcrTxEn) 0
  outReg txCtrl2 (txCtrl2EnTxCrc ||| txCtrl2EarlyEom16)
  let _ ← switchBank 1
  outReg txByteCountLow (.ofNat (frame.len &&& 0xff))
  outReg txByteCountHigh (.ofNat ((frame.len >>> 8) &&& 0x1f))
  let _ ← switchBank 3
  outReg shMemPage 0
  let addr := frame.start - self.membase
  outReg txDmaAddrLow (.ofNat (addr &&& 0xff))
  outReg txDmaAddrHigh (.ofNat (pageDisable ||| ((addr >>> 8) &&& 0x3f)))
  let _ ← switchBank 0
  outReg misc 0xc0
  let _ ← switchBank 0
  outReg txCtrl1 (txCtrl1Rts ||| txCtrl1UndrEomI)
  pure self

/-- `ircard_receive` -/
def Idev.receive (self : Idev) : Prog Idev := do
  let bank ← switchBank 0
  setMcr mcrIntrEn bank
  let self : Idev := { self with txQ :=
    { self.txQ with ptr := 0, len := 0, free := 0, tail := shmemTxStart + self.membase } }
  outReg reset resetRxSpecBits
  outReg reset resetRxRfp
  setMcr (mcrRxEn ||| mcrIntrEn) bank
  let _ ← switchBank 0
  outReg rxCtrl (rxCtrlEnCrc ||| rxCtrlCondI)
  outReg misc 0xc0
  pure { self with direction := .recv }

/-- `ircard_hard_xmit`: the answer is `-EBUSY` for a device that is locked. -/
def Idev.hardXmit (self : Idev) (skb : List UInt8) : Prog (Bool × Idev) :=
  if self.tbusy then pure (false, self)
  else do
    let _ ← switchBank 0
    let q := self.txQ
    copyTo q.tail skb
    let self : Idev := { self with
      txQ := { queue := Function.update q.queue q.free ⟨q.tail, skb.length⟩
               ptr := q.ptr
               len := q.len + 1
               free := q.free + 1
               tail := q.tail + skb.length }
      log := self.log ++ [.xmit skb] }
    let self ← (if self.txQ.len = 1 then self.dmaWrite else pure self)
    pure (true, { self with tbusy := false })

/-- `Spin until EOM`, with at most that many reads. -/
def spin : ℕ → UInt8 → Prog UInt8
  | 0, stat => pure stat
  | n + 1, stat =>
    if stat &&& txStatEom ≠ 0 then pure stat
    else do
      let stat ← inReg txStat
      spin n stat

/-- `ircard_xmit_complete` -/
def Idev.xmitComplete (self : Idev) (turn : Turn) : Prog Idev := do
  let bank ← switchBank 0
  let stat ← inReg txStat
  let stats := self.stats
  let stats ← (if stat &&& txStatFifoUndr ≠ 0 then
      pure { stats with txErrors := stats.txErrors + 1, txFifoErrors := stats.txFifoErrors + 1 }
    else do
      let _ ← spin 1001 stat
      pure { stats with txPackets := stats.txPackets + 1, txBytes := stats.txBytes + self.txBuffLen })
  setMcr mcrIntrEn bank
  outReg misc 0
  outReg reset resetTxSpecBits
  let self : Idev := { self with
    stats := stats
    tbusy := false
    mediaBusy := false
    txQ := { self.txQ with ptr := self.txQ.ptr + 1, len := self.txQ.len - 1 }
    log := self.log ++ [.complete turn.txqueueEmpty] }
  if self.txQ.len ≠ 0 then self.dmaWrite
  else if turn.txqueueEmpty then do
    outReg txCtrl1 0
    self.receive
  else pure self

/-- The frame is skipped. -/
def Idev.rxError (self : Idev) : Idev :=
  { self with stats := { self.stats with
      rxErrors := self.stats.rxErrors + 1
      rxFrameErrors := self.stats.rxFrameErrors + 1 } }

/-- `ircard_receive_complete` -/
def Idev.receiveComplete (self : Idev) (turn : Turn) : Prog (Bool × Idev) := do
  let _ ← switchBank 1
  let low ← inReg rxRingFrmPtrLow
  let high ← inReg rxRingFrmPtrHigh
  let ptr := low.toNat ||| ((high.toNat &&& 0x3f) <<< 8)
  if ptr = 0 then pure (false, self)
  else do
    let stat ← peek (self.membase + ptr)
    let lenLow ← peek (self.membase + ptr - 1)
    let len := ((stat.toNat &&& 0x1f) <<< 8) ||| lenLow.toNat
    if stat &&& 0x80 ≠ 0 then pure (false, self.rxError)   -- abort
    else if stat &&& 0x40 ≠ 0 then pure (false, self.rxError)
    else if stat &&& 0x20 ≠ 0 then do   -- overrun
      let _ ← switchBank 0
      outReg reset resetRxSpecBits
      pure (false, { self with stats := { self.stats with
        rxErrors := self.stats.rxErrors + 1
        rxFifoErrors := self.stats.rxFifoErrors + 1 } })
    else if len ≤ 5 then pure (false, self)
    else do
      let start : ℤ := self.membase + ptr - len - 1
      let self : Idev := { self with data := ptr + 1 }
      let len := min (len - 4) 2050   -- without the CRC
      if turn.skb then do
        let skb ← copyFrom start len
        pure (true, { self with
          stats := { self.stats with rxPackets := self.stats.rxPackets + 1 }
          received := self.received ++ [skb] })
      else pure (false, self)

/-! ### The interrupt handler -/

/-- The `switch` on the interrupt status. -/
def Idev.handle (self : Idev) (turn : Turn) (id : UInt8) : Prog Idev :=
  if id = msrTxCondId then self.xmitComplete turn
  else if id = msrRxDataId ∨ id = msrRxCondId then do
    let r ← self.receiveComplete turn
    pure r.2
  else pure self

/-- The loop of the interrupt handler from the status `id` on, with so many turns left; it breaks
when there is none. -/
def Idev.turns (turn : ℕ → Turn) : ℕ → Idev → UInt8 → Prog Idev
  | 0, self, _ => pure self
  | n + 1, self, id =>
    if id = 0 then pure self
    else do
      let self ← self.handle (turn n) id
      if n = 0 then pure self
      else do
        let id ← inReg msr
        Idev.turns turn n self (id &&& msrIdMask)

/-- `bogus++ > 10` breaks the loop behind the twelfth turn. -/
def maxTurns : ℕ := 12

/-- `ircard_interrupt`; at the speeds of the UART irport takes over. -/
def Idev.onInterrupt (self : Idev) (turn : ℕ → Turn) : Prog Idev :=
  if self.baudrate ≤ 115200 then pure self
  else do
    let bank ← switchBank 0
    let id ← inReg msr
    let self ← Idev.turns turn maxTurns { self with interrupt := true } (id &&& msrIdMask)
    let _ ← restoreBank bank
    pure { self with interrupt := false }

/-! ### The speed -/

/-- The value for the infrared configuration register; all speeds that are not known, and those
of the UART, get the first. -/
def confOf (speed : ℕ) : UInt8 :=
  if speed = 576000 then irConfMir576 ||| irConfMir
  else if speed = 1152000 then irConfMir1152 ||| irConfMir
  else if speed = 4000000 then irConfFir
  else irConfSir

/-- `ircard_change_speed` -/
def Idev.changeSpeed (self : Idev) (speed : ℕ) : Prog Idev := do
  let _ ← (if 1152000 < self.baudrate ∧ speed < 4000000 then firToSir
    else if self.baudrate < 4000000 ∧ 1152000 < speed then sirToFir
    else pure ())
  let self : Idev := { self with baudrate := speed, fir := 115200 < speed }
  rawSwitchBank 0
  outReg reset 0x07
  rawSwitchBank 2
  outReg irConf (confOf speed)
  let self : Idev := { self with tbusy := false }
  if 115200 < speed then self.receive else pure self

/-! ### Runs -/

inductive Op where
  | changeSpeed (speed : ℕ)
  | hardXmit (skb : List UInt8)
  | interrupt (turn : ℕ → Turn)

def Idev.op (self : Idev) : Op → Prog Idev
  | .changeSpeed speed => self.changeSpeed speed
  | .hardXmit skb => do
    let r ← self.hardXmit skb
    pure r.2
  | .interrupt turn => self.onInterrupt turn

def Idev.ops (self : Idev) : List Op → Prog Idev
  | [] => pure self
  | op :: ops => do
    let self ← self.op op
    self.ops ops

end Ircard
