import IrdaUtils.Lib.Decimal

/-! `irpsion5.c`: `sendfile` and `handle_client` as two processes joined by two byte streams.
The processes interleave freely; a read blocks while its stream is empty and the other side
has not closed it. -/

namespace Psion

open Decimal

/-- The size of both buffers. -/
def buflen : ℕ := 2044

/-- A C string, up to its terminating zero. -/
def cstr (bs : List UInt8) : List UInt8 := bs.takeWhile (· ≠ 0)

/-- What `sendfile` is given: the name, and the file with its `stat`. -/
structure Job where
  filename : List UInt8
  content : List UInt8
  writable : Bool
  mtime : BitVec 64

def Job.fdatell (j : Job) : BitVec 64 :=
  62168263200000000 + 1000000 * (j.mtime &&& 0x00000000FFFFFFFF)

def Job.header (j : Job) : List UInt8 :=
  ascii "FILE " ++ printInt (BitVec.ofNat 32 j.content.length).toInt ++
    ascii " " ++ print (32 ||| if j.writable then 0 else 1) ++
    ascii " " ++ print (j.fdatell >>> 32).toNat ++
    ascii " " ++ print (j.fdatell &&& 0x00000000FFFFFFFF).toNat ++
    ascii " " ++ cstr j.filename

/-! ### The header at the other side -/

structure Header where
  fsize : BitVec 32
  fmode : BitVec 32
  fdate1 : BitVec 32
  fdate2 : BitVec 32
  fname : List UInt8
  deriving DecidableEq

def Header.fdatell (h : Header) : BitVec 64 := (h.fdate1.setWidth 64 <<< 32) + h.fdate2.setWidth 64

def Header.fdate (h : Header) : BitVec 32 := ((h.fdatell - 62168263200000000) / 1000000).setWidth 32

/-- Behind the word `FILE` of the format. -/
def scanFile (s : List UInt8) : Option Header := do
  let (fsize, s) ← scanUnsigned s
  let (fmode, s) ← scanUnsigned s
  let (fdate1, s) ← scanUnsigned s
  let (fdate2, s) ← scanUnsigned s
  pure ⟨fsize, fmode, fdate1, fdate2, skipSpace s⟩

/-- Behind the word `DATA` of the format; mode and date are not looked at then. -/
def scanData (s : List UInt8) : Option Header := do
  let (fsize, _) ← scanInt s
  pure ⟨fsize, 0, 0, 0, ascii "/tmp/psion5-data"⟩

def parseHeader (buf : List UInt8) : Option Header :=
  let s := cstr buf
  if s.take 5 = ascii "FILE " then scanFile (s.drop 4)
  else if s.take 5 = ascii "DATA " then scanData (s.drop 4)
  else none

/-! ### The two processes -/

inductive SenderPc where
  | header
  | ack
  | loop
  | lastRead
  | closed
  | failed
  deriving DecidableEq, Repr

inductive ClientPc where
  | header
  | ack
  | loop
  | closed
  | failed
  deriving DecidableEq, Repr

def SenderPc.Gone (p : SenderPc) : Prop := p = .closed ∨ p = .failed
def ClientPc.Gone (p : ClientPc) : Prop := p = .closed ∨ p = .failed

structure World where
  sender : SenderPc
  /-- What `fread` has not returned yet. -/
  file : List UInt8
  eof : Bool
  sent : BitVec 32
  senderWarned : Bool
  toClient : List UInt8
  toSender : List UInt8
  client : ClientPc
  hdr : Header
  out : List UInt8
  cnt : BitVec 32
  clientWarned : Bool

def World.init (j : Job) : World where
  sender := .header
  file := j.content
  eof := false
  sent := 0
  senderWarned := false
  toClient := []
  toSender := []
  client := .header
  hdr := ⟨0, 0, 0, 0, []⟩
  out := []
  cnt := 0
  clientWarned := false

/-- The reply that lets `sendfile` go on. -/
def ackText : List UInt8 := ascii "ACK Y"

/-- The handshake texts arrive in one read each. The data is cut freely, by `fread` and
again by the reads of the client. -/
inductive Step (j : Job) : World → World → Prop where
  | writeHeader {w} : w.sender = .header →
      Step j w { w with sender := .ack, toClient := w.toClient ++ j.header }
  | readAck {w} : w.sender = .ack → w.toSender ≠ [] →
      Step j w { w with
        sender := if cstr (w.toSender.take (buflen - 1)) = ackText then .loop else .failed
        toSender := w.toSender.drop (buflen - 1) }
  | ackEof {w} : w.sender = .ack → w.toSender = [] → w.client.Gone →
      Step j w { w with sender := .failed }
  | fread {w} (chunk rest : List UInt8) (eof : Bool) : w.sender = .loop → w.eof = false →
      w.file = chunk ++ rest → chunk ≠ [] → chunk.length ≤ buflen → (eof = true → rest = []) →
      Step j w { w with
        file := rest, eof := eof, sent := w.sent + BitVec.ofNat 32 chunk.length
        toClient := w.toClient ++ chunk }
  | freadEof {w} : w.sender = .loop → w.eof = false → w.file = [] →
      Step j w { w with eof := true }
  | leaveLoop {w} : w.sender = .loop → w.eof = true →
      Step j w { w with
        sender := .lastRead, senderWarned := decide (w.sent.toInt ≠ j.content.length) }
  | lastData {w} : w.sender = .lastRead → w.toSender ≠ [] →
      Step j w { w with sender := .failed, toSender := w.toSender.drop buflen }
  | lastEof {w} : w.sender = .lastRead → w.toSender = [] → w.client.Gone →
      Step j w { w with sender := .closed }
  | readHeader {w} : w.client = .header → w.toClient ≠ [] → w.toClient.length < buflen →
      Step j w { w with
        client := if (parseHeader w.toClient).isSome then .ack else .failed
        hdr := (parseHeader w.toClient).getD w.hdr
        toClient := [] }
  | headerTooLong {w} : w.client = .header → buflen ≤ w.toClient.length →
      Step j w { w with client := .failed }
  | headerEof {w} : w.client = .header → w.toClient = [] → w.sender.Gone →
      Step j w { w with client := .failed }
  | writeAck {w} : w.client = .ack →
      Step j w { w with client := .loop, toSender := w.toSender ++ ackText, cnt := 0 }
  | readData {w} (chunk rest : List UInt8) : w.client = .loop → w.cnt < w.hdr.fsize →
      w.toClient = chunk ++ rest → chunk ≠ [] → chunk.length ≤ buflen →
      Step j w { w with
        toClient := rest, out := w.out ++ chunk, cnt := w.cnt + BitVec.ofNat 32 chunk.length }
  | dataEof {w} : w.client = .loop → w.cnt < w.hdr.fsize → w.toClient = [] → w.sender.Gone →
      Step j w { w with client := .failed }
  | finish {w} : w.client = .loop → ¬ w.cnt < w.hdr.fsize →
      Step j w { w with client := .closed, clientWarned := decide (w.cnt ≠ w.hdr.fsize) }

end Psion
