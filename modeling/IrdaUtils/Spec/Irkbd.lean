import Mathlib.Tactic

/-! `irkbd.c`: the connection, the data handler and the watchdog timer. The handlers run as
the signals come in; a data handler that reads past the memory it runs in ends the process. -/

namespace Irkbd

inductive KbdState where
  | idle
  | initKbd
  | initMouse
  | ready
  | polling
  deriving DecidableEq, Repr

def cmdInitKbd : UInt8 := 0xfe
def cmdInitMouse : UInt8 := 0xff
def cmdEnable : UInt8 := 0x41

def rate : ℕ := 15000
def idleRate : ℕ := 100000
def timeout : ℕ := 1

/-- `struct irkbd_cb` with `power_save`; the timer holds what is left of `it_value`, and
`it_interval` is zero, so that it expires once. -/
structure Cb where
  state : KbdState
  connected : Bool
  powerSave : ℕ
  timer : Option (ℕ × ℕ)
  sent : List UInt8
  fifo : List UInt8
  typed : List UInt8
  deriving DecidableEq, Repr

/-- What `irkbd_init` leaves. -/
def Cb.init : Cb := ⟨.idle, false, 0, none, [], [], []⟩

/-- `setitimer`, which stops the timer for a zero time. -/
def startWatchdogTimer (sec usec : ℕ) (s : Cb) : Cb :=
  { s with timer := if sec = 0 ∧ usec = 0 then none else some (sec, usec) }

def dataRequest (cmd : UInt8) (s : Cb) : Cb := { s with sent := s.sent ++ [cmd] }

/-! ### Data -/

def handleResponse (s : Cb) (rsp : UInt8) : Cb :=
  if rsp = 0x41 then
    let rate := if s.powerSave > 100 then idleRate else rate
    startWatchdogTimer 0 rate { s with powerSave := s.powerSave + 1 }
  else if rsp = 0x11 ∨ rsp = 0x12 then
    startWatchdogTimer 0 rate { s with state := .initMouse }
  else if rsp = 0x21 ∨ rsp = 0x22 then
    startWatchdogTimer 0 100000 { s with state := .ready }
  else s

/-- A subframe of the type `subtype` with its records. -/
def handleSubframe (subtype : UInt8) (bytes : List UInt8) (s : Cb) : Cb :=
  if subtype = 0x80 ∨ subtype = 0xc0 then
    startWatchdogTimer 0 rate { s with fifo := s.fifo ++ bytes, powerSave := 0 }
  else if subtype = 0x40 then
    startWatchdogTimer 0 rate { s with typed := s.typed ++ bytes, powerSave := 0 }
  else bytes.foldl handleResponse s

/-- Mouse records have three bytes. -/
def recordBytes (subtype sublen : UInt8) : ℕ :=
  if subtype = 0x80 ∨ subtype = 0xc0 then 3 * sublen.toNat else sublen.toNat

/-- The loop of the data handler over the memory `mem` from the next subframe on; `len` has
eight bits and wraps when a subframe is longer than what is left of it. -/
def parseFrame (len : UInt8) (mem : List UInt8) (s : Cb) : Option Cb :=
  if len = 0 then some s
  else
    match mem with
    | [] => none
    | b :: mem =>
      let sublen := b &&& ~~~0xc0
      let subtype := b &&& 0xc0
      let k := recordBytes subtype sublen
      if mem.length < k then none
      else
        parseFrame (len - 1 - UInt8.ofNat k) (mem.drop k) (handleSubframe subtype (mem.take k) s)
termination_by mem.length
decreasing_by simp

/-- `irkbd_data_indication`: `mem` is the memory from `self->frame` on behind the `recv`. A
failed `recv` disconnects, and the old frame is parsed again. -/
def dataIndication (received : Bool) (mem : List UInt8) (s : Cb) : Option Cb :=
  let s := if received then s else { s with connected := false }
  match mem with
  | [] => none
  | len :: mem => parseFrame len mem s

/-! ### What the data handler hands on

`irkbd_handle_mouse` writes a byte to the fifo, `handle_scancode` types it on the console and
`irkbd_handle_response` looks at it. Here the loop of the data handler leaves a log of these
calls, with the places of their bytes in the frame. -/

inductive Target where
  | fifo
  | console
  | response
  deriving DecidableEq, Repr

structure Delivery where
  target : Target
  index : ℕ
  byte : UInt8
  deriving DecidableEq, Repr

/-- A subframe that the loop has come to; its records begin at `start`. -/
structure Visit where
  subtype : UInt8
  start : ℕ
  bytes : List UInt8
  deriving DecidableEq, Repr

def subframeTarget (subtype : UInt8) : Target :=
  if subtype = 0x80 ∨ subtype = 0xc0 then .fifo
  else if subtype = 0x40 then .console
  else .response

def Visit.deliveries (v : Visit) : List Delivery :=
  (v.bytes.zipIdx v.start).map fun p => ⟨subframeTarget v.subtype, p.2, p.1⟩

/-- The loop over the memory from `n` on. -/
def visits (len : UInt8) (n : ℕ) (mem : List UInt8) : Option (List Visit) :=
  if len = 0 then some []
  else
    match mem with
    | [] => none
    | b :: mem =>
      let sublen := b &&& ~~~0xc0
      let subtype := b &&& 0xc0
      let k := recordBytes subtype sublen
      if mem.length < k then none
      else
        (visits (len - 1 - UInt8.ofNat k) (n + 1 + k) (mem.drop k)).map
          (⟨subtype, n + 1, mem.take k⟩ :: ·)
termination_by mem.length
decreasing_by simp

/-- The calls of one `irkbd_data_indication`, from the memory behind its `recv`. -/
def deliveries (mem : List UInt8) : Option (List Delivery) :=
  match mem with
  | [] => none
  | len :: mem => (visits len 1 mem).map (·.flatMap Visit.deliveries)

/-! ### The frame buffer -/

def bufSize : ℕ := 4096
def recvSize : ℕ := 2048

/-- `self->frame`, which `irkbd_init` clears. No `recv` writes behind its first half. -/
structure Frame where
  bytes : List UInt8
  length_eq : bytes.length = bufSize
  clean : ∀ b ∈ bytes.drop recvSize, b = 0

def Frame.init : Frame where
  bytes := List.replicate bufSize 0
  length_eq := List.length_replicate
  clean := fun _ hb => List.eq_of_mem_replicate (List.mem_of_mem_drop hb)

/-- The outcome of a `recv`. -/
inductive Recv where
  | error
  | eof
  | data (bytes : List UInt8) (ne : bytes ≠ []) (le : bytes.length ≤ recvSize)

/-- The bytes that came in. -/
def Recv.bytes : Recv → List UInt8
  | .error => []
  | .eof => []
  | .data bytes _ _ => bytes

theorem Recv.bytes_le (r : Recv) : r.bytes.length ≤ recvSize := by
  cases r with
  | error => exact Nat.zero_le _
  | eof => exact Nat.zero_le _
  | data bytes ne le => exact le

/-- The bytes that came in lie over the old ones. -/
def Frame.recv (f : Frame) (r : Recv) : Frame where
  bytes := r.bytes ++ f.bytes.drop r.bytes.length
  length_eq := by
    have h := r.bytes_le
    have hf := f.length_eq
    simp only [recvSize] at h
    simp only [bufSize] at hf
    simp only [List.length_append, List.length_drop, bufSize]
    omega
  clean := by
    have h : r.bytes.drop recvSize = [] := List.drop_eq_nil_iff.2 r.bytes_le
    rw [List.drop_append, h, List.nil_append, List.drop_drop, Nat.add_sub_cancel' r.bytes_le]
    exact f.clean

theorem Frame.recv_bytes (f : Frame) (r : Recv) :
    (f.recv r).bytes = r.bytes ++ f.bytes.drop r.bytes.length := rfl

/-! ### The timer and the main loop -/

def watchdogTimerExpired (s : Cb) : Cb :=
  match s.state with
  | .polling => startWatchdogTimer timeout 0 (dataRequest cmdEnable s)
  | .idle => s
  | .initKbd => dataRequest cmdInitKbd s
  | .initMouse => dataRequest cmdInitMouse s
  | .ready => { dataRequest cmdEnable s with state := .polling }

/-- A successful connect request and what `main` does behind it. -/
def connect (s : Cb) : Cb :=
  startWatchdogTimer timeout 0 { s with connected := true, state := .initMouse }

inductive Event where
  | connect
  | data (received : Bool) (mem : List UInt8)
  | expire
  deriving DecidableEq, Repr

/-- `main` connects only when it is not connected, and only a running timer expires. -/
def step (s : Cb) : Event → Option Cb
  | .connect => some (if s.connected then s else connect s)
  | .data received mem => dataIndication received mem s
  | .expire =>
    match s.timer with
    | none => some s
    | some _ => some (watchdogTimerExpired { s with timer := none })

/-- The process after an event; nothing comes behind its end. -/
def next (p : Option Cb) (e : Event) : Option Cb := p.bind fun s => step s e

end Irkbd
