import IrdaUtils.Lib.Memory

/-! The transmit queue of `ircard_cs.c`. Frames are copied into the transmit half of the
shared memory window, one behind the other, and started by DMA one at a time. -/

namespace Ircard

open Memory

/-- Offset of the transmit half, and the size of the window that `ircard_config` maps. -/
def shmemTxStart : ℕ := 0x4000
def windowSize : ℕ := 0x8000
def maxWindow : ℕ := 8
def pageDisable : ℕ := 0x40

structure FrameCb where
  start : ℕ
  len : ℕ
  deriving DecidableEq, Repr

structure ShmQueue where
  queue : ℤ → FrameCb
  ptr : ℤ
  len : ℤ
  free : ℤ
  tail : ℕ

/-- A start of the host DMA controller: the bytes that stand in the shared memory at that
time, and the values of the byte count and address registers. -/
structure Dma where
  data : List UInt8
  byteCountLow : ℕ
  byteCountHigh : ℕ
  addrLow : ℕ
  addrHigh : ℕ
  deriving DecidableEq, Repr

/-- The driver with the shared memory and the DMA controller. `queued` has all frames that
were handed over, `since` those behind the last reset of the queue; the driver reads
neither. -/
structure Cb where
  txQ : ShmQueue
  membase : ℕ
  mem : Mem
  dma : List Dma
  inFlight : ℕ
  queued : List (List UInt8)
  since : List (List UInt8)

/-- The transmit queue as `ircard_config` leaves it. -/
def Cb.config (membase : ℕ) (mem : Mem) (queue : ℤ → FrameCb) : Cb where
  txQ := ⟨queue, 0, 0, 0, shmemTxStart + membase⟩
  membase := membase
  mem := mem
  dma := []
  inFlight := 0
  queued := []
  since := []

def dmaWrite (self : Cb) : Cb :=
  let frame := self.txQ.queue self.txQ.ptr
  let addr := frame.start - self.membase
  { self with
    dma := self.dma ++
      [{ data := load self.mem frame.start frame.len
         byteCountLow := frame.len &&& 0xff
         byteCountHigh := (frame.len >>> 8) &&& 0x1f
         addrLow := addr &&& 0xff
         addrHigh := pageDisable ||| ((addr >>> 8) &&& 0x3f) }]
    inFlight := self.inFlight + 1 }

/-- The first half of `ircard_hard_xmit`: the frame is registered and copied. -/
def enqueue (self : Cb) (skb : List UInt8) : Cb :=
  let q := self.txQ
  { self with
    txQ := { queue := Function.update q.queue q.free ⟨q.tail, skb.length⟩
             ptr := q.ptr
             len := q.len + 1
             free := q.free + 1
             tail := q.tail + skb.length }
    mem := store self.mem q.tail skb
    queued := self.queued ++ [skb]
    since := self.since ++ [skb] }

def hardXmit (self : Cb) (skb : List UInt8) : Cb :=
  let self := enqueue self skb
  if self.txQ.len = 1 then dmaWrite self else self

/-- The reset of the queue, when the device gets ready for receiving. -/
def receive (self : Cb) : Cb :=
  { self with
    txQ := { self.txQ with ptr := 0, len := 0, free := 0, tail := shmemTxStart + self.membase }
    since := [] }

/-- Finished with this frame. -/
def retire (self : Cb) : Cb :=
  { self with
    txQ := { self.txQ with ptr := self.txQ.ptr + 1, len := self.txQ.len - 1 }
    inFlight := self.inFlight - 1 }

/-- `txqueueEmpty` is the answer of `irda_device_txqueue_empty`. -/
def xmitComplete (self : Cb) (txqueueEmpty : Bool) : Cb :=
  let self := retire self
  if self.txQ.len ≠ 0 then dmaWrite self
  else if txqueueEmpty then receive self
  else self

inductive Event where
  | xmit (skb : List UInt8)
  | complete (txqueueEmpty : Bool)

def step (self : Cb) : Event → Cb
  | .xmit skb => hardXmit self skb
  | .complete txqueueEmpty => xmitComplete self txqueueEmpty

/-- What the network layer and the device promise: frames of 1 to 2050 bytes, no more than
`MAX_WINDOW` of them between two resets, and one completion for each DMA. -/
def Allowed (self : Cb) : Event → Prop
  | .xmit skb => 1 ≤ skb.length ∧ skb.length ≤ 2050 ∧ self.since.length < maxWindow
  | .complete _ => self.inFlight ≠ 0

instance (self : Cb) : (e : Event) → Decidable (Allowed self e)
  | .xmit skb =>
    inferInstanceAs (Decidable (1 ≤ skb.length ∧ skb.length ≤ 2050 ∧ self.since.length < maxWindow))
  | .complete _ => inferInstanceAs (Decidable (self.inFlight ≠ 0))

end Ircard
