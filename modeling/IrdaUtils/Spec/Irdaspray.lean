import Mathlib.Tactic

/-! `irdaspray.c`: the client, which forks into a transmitter and a receiver for the echo
service, and the child of the server that has its connection. A connection of type
`SOCK_SEQPACKET` is a queue of messages in each direction, with room for `upRoom` and
`downRoom` of them; a call may send only the front of a message, or fail. -/

namespace Irdaspray

abbrev Message := List UInt8

/-- `buf[8200]` of one process. -/
def Buffer : Type := { bytes : List UInt8 // bytes.length = 8200 }

def Buffer.zero : Buffer := ⟨List.replicate 8200 0, List.length_replicate⟩

/-- The bytes that `recv` takes of a message; the others are lost. -/
def received (m : Message) : Message := m.take 8200

def Buffer.recv (buf : Buffer) (m : Message) : Buffer :=
  ⟨received m ++ buf.1.drop m.length, by simp [received, buf.2]; omega⟩

/-- The options of the client, and the room of the two queues. The buffer has no more bytes
than `frame_size` may ask for. -/
structure Config where
  frameSize : ℕ
  frameNumber : ℕ
  echo : Bool
  upRoom : ℕ
  downRoom : ℕ
  frameSize_le : frameSize ≤ 8200

/-- What `send` or `recv` returns, with the bytes that are sent or received. -/
inductive Answer where
  | message (m : Message)
  | ended
  | failed
  deriving DecidableEq, Repr

def Answer.actual : Answer → BitVec 32
  | .message m => BitVec.ofNat 32 m.length
  | .ended => 0
  | .failed => -1

/-- The variables of `irdaspray_transmit` and of `irdaspray_receive`; `calls` has the answers
of all calls so far, and is not read. -/
structure Counter where
  i : ℕ
  total : BitVec 32
  calls : List Answer

def Counter.start : Counter := ⟨0, 0, []⟩

def Counter.count (s : Counter) (a : Answer) : Counter :=
  ⟨s.i + 1, s.total + a.actual, s.calls ++ [a]⟩

/-- Where the child of the server is. -/
inductive Server where
  | receiving
  | echoing (actual : ℕ)
  | closed
  deriving DecidableEq, Repr

structure World where
  buf : Buffer
  tx : Counter
  rx : Counter
  server : Server
  serverBuf : Buffer
  up : List Message
  down : List Message

def World.start : World := ⟨.zero, .start, .start, .receiving, .zero, [], []⟩

/-- Both processes of the client have ended, and with them their socket. -/
def World.clientEnded (c : Config) (w : World) : Prop :=
  w.tx.i = c.frameNumber ∧ (c.echo = true → w.rx.i = c.frameNumber)

instance (c : Config) (w : World) : Decidable (w.clientEnded c) :=
  inferInstanceAs (Decidable (_ ∧ _))

/-- What the server does with the bytes it has: `actual <= 0` ends the loop. -/
def Server.after (c : Config) (actual : ℕ) : Server :=
  if actual = 0 then .closed else if c.echo then .echoing actual else .receiving

inductive Action where
  | transmit (sent : ℕ)
  | transmitFails
  | receive
  | receiveEnds
  | receiveFails
  | serverReceive
  | serverReceiveEnds
  | serverReceiveFails
  | serverSend (sent : ℕ)
  | serverSendFails
  deriving DecidableEq, Repr

/-- One call of one of the processes, where it can be made. -/
def step (c : Config) (w : World) : Action → Option World
  | .transmit sent =>
    if w.tx.i < c.frameNumber ∧ sent ≤ c.frameSize ∧ w.up.length < c.upRoom then
      some { w with
        tx := w.tx.count (.message (w.buf.1.take sent)), up := w.up ++ [w.buf.1.take sent] }
    else none
  | .transmitFails =>
    if w.tx.i < c.frameNumber then some { w with tx := w.tx.count .failed } else none
  | .receive =>
    match w.down with
    | [] => none
    | m :: down =>
      if c.echo ∧ w.rx.i < c.frameNumber then
        some { w with rx := w.rx.count (.message (received m)), down := down }
      else none
  | .receiveEnds =>
    if c.echo ∧ w.rx.i < c.frameNumber ∧ w.down = [] ∧ w.server = .closed then
      some { w with rx := w.rx.count .ended }
    else none
  | .receiveFails =>
    if c.echo ∧ w.rx.i < c.frameNumber then some { w with rx := w.rx.count .failed } else none
  | .serverReceive =>
    match w.server, w.up with
    | .receiving, m :: up =>
      some { w with
        server := .after c (received m).length, serverBuf := w.serverBuf.recv m, up := up }
    | _, _ => none
  | .serverReceiveEnds =>
    if w.server = .receiving ∧ w.up = [] ∧ w.clientEnded c then some { w with server := .closed }
    else none
  | .serverReceiveFails =>
    if w.server = .receiving then some { w with server := .closed } else none
  | .serverSend sent =>
    match w.server with
    | .echoing actual =>
      if sent ≤ actual ∧ w.down.length < c.downRoom then
        some { w with
          server := if sent = 0 then .closed else .receiving
          down := w.down ++ [w.serverBuf.1.take sent] }
      else none
    | _ => none
  | .serverSendFails =>
    match w.server with
    | .echoing _ => some { w with server := .closed }
    | _ => none

/-- The states that are reached in any order of the calls. -/
def Reachable (c : Config) : World → Prop :=
  Relation.ReflTransGen (fun w w' => ∃ a, step c w a = some w') .start

end Irdaspray
