import IrdaUtils.Lib.ByteOrder
import IrdaUtils.Spec.NetBuf

/-! What the frame decoders share: the options, the variables they keep between
frames, and the buffer and text they work on. Every parser is a function on `St`.

Memory that the program reads without having written it is a parameter, never a
default: the bytes after the frame are in the buffer's memory, and `Env` has the rest. -/

namespace Irdadump
open Memory ByteOrder

/-! ### Text -/

/-- `%0wx` -/
def fmtX (w n : ℕ) : String :=
  let ds := Nat.toDigits 16 n
  String.ofList (List.replicate (w - ds.length) '0' ++ ds)

/-- `%#0wx`: zero has no `0x`. -/
def fmtAltX (w n : ℕ) : String := if n = 0 then fmtX w 0 else "0x" ++ fmtX (w - 2) n

/-- `%0wd` of a number that is not negative. -/
def fmtD (w n : ℕ) : String :=
  let ds := Nat.toDigits 10 n
  String.ofList (List.replicate (w - ds.length) '0' ++ ds)

/-- `%d` of an unsigned 32-bit value, which `printf` takes as signed. -/
def fmtInt32 (n : ℕ) : String := toString (Int.bmod n (2 ^ 32))

/-- The characters that the bytes before the first zero byte print as. -/
def cString (bs : List UInt8) : String :=
  String.ofList ((bs.takeWhile (· ≠ 0)).map fun b => Char.ofNat b.toNat)

def ascii (s : String) : List UInt8 := s.toList.map fun c => UInt8.ofNat c.toNat

def isInfix (needle : List UInt8) : List UInt8 → Bool
  | [] => needle.isEmpty
  | b :: bs => needle.isPrefixOf (b :: bs) || isInfix needle bs

/-- Whether `strstr` finds `needle` in the string that starts `hay`. -/
def strstr (hay : List UInt8) (needle : String) : Bool :=
  isInfix (ascii needle) (hay.takeWhile (· ≠ 0))

/-! ### State -/

/-- The configuration options. No command line option sets `printIrlmp` or
`printLostFrames`. -/
structure Config where
  printDiff : Bool := false
  dumpFrame : Bool := false
  printIrlap : Bool := true
  printIrlmp : Bool := true
  printLostFrames : Bool := false
  snaplen : ℕ := 32
  dumpBytes : Bool := false
  snapcols : ℕ := 16
  forceTtp : Bool := false

/-- The options and the memory that decoding reads but does not own. -/
structure Env where
  cfg : Config
  /-- The stack where `parse_obex_header` puts its array, at the call with that many
  bytes left in the buffer. -/
  stack : ℕ → List UInt8
  /-- The end of the heap: a string without a zero byte is read up to here. -/
  heapTop : ℕ
  /-- What stands at an index past the end of a table. -/
  beyond : List ℕ → ℕ → ℕ
  /-- The `%07.2f` of a time difference in milliseconds. -/
  diffText : ℤ → ℤ → String

abbrev maxConnections : ℕ := 15

abbrev Slot := Fin maxConnections

structure IasQuery where
  lsapSel : UInt8
  ttp : Bool
  obex : Bool
  ircomm : Bool
  irnet : Bool
  deriving DecidableEq, Repr

/-- `saddr` and `daddr` of the C structure are never used. -/
structure LsapState where
  valid : Bool
  ttp : Bool
  obex : Bool
  ircomm : Bool
  irnet : Bool
  slsapSel : UInt8
  dlsapSel : UInt8
  caddr : UInt8
  deriving DecidableEq, Repr

/-- The variables that outlive a frame. A `connCache` of `none` is `-1`. -/
structure Decoder where
  selfNr : ℤ
  selfNs : ℤ
  peerNr : ℤ
  peerNs : ℤ
  lastIas : IasQuery
  conn : Slot → LsapState
  connCache : Option Slot
  lastCommand : UInt8

def IasQuery.zero : IasQuery := ⟨0, false, false, false, false⟩
def LsapState.zero : LsapState := ⟨false, false, false, false, false, 0, 0, 0⟩

/-- As the program is loaded. -/
def Decoder.static : Decoder where
  selfNr := 0
  selfNs := 0
  peerNr := 0
  peerNs := 0
  lastIas := IasQuery.zero
  conn := fun _ => LsapState.zero
  connCache := none
  lastCommand := 0xff

/-- The second `memset` has the size of one slot, so it clears `conn[0]` only. -/
def irlapInit (d : Decoder) : Decoder :=
  { d with lastIas := IasQuery.zero, conn := Function.update d.conn 0 LsapState.zero }

def Decoder.init : Decoder := irlapInit Decoder.static

/-- The parsers above LAP and LMP. -/
inductive Parser where
  | iriapCommand
  | iriapResponse
  | ircommParams
  | irttpConnect
  | irttp
  | obex
  | ircommConnect
  | ircommTtp
  | ircommLmp
  | irnet
  deriving DecidableEq, Repr

/-- A call of a parser, with the contents of the buffer it is called on. -/
structure Call where
  parser : Parser
  contents : List UInt8
  deriving DecidableEq

/-- `calls` and `picked` record the run and are read by no parser: the upper-layer
calls, and the slot (or none, for `i == -1`) that `parse_irlmp` decodes with. -/
structure St where
  dec : Decoder
  buf : GNetBuf
  str : String
  msgs : List String
  calls : List Call
  picked : List (Option LsapState)

namespace St

/-- `buf->data[n]` -/
def byte (s : St) (n : ℕ) : UInt8 := s.buf.mem (s.buf.data + n)

/-- The `k` bytes from `buf->data + n` on. -/
def copy (s : St) (n k : ℕ) : List UInt8 := load s.buf.mem (s.buf.data + n) k

def be16 (s : St) (n : ℕ) : ℕ := (s.byte n).toNat * 256 + (s.byte (n + 1)).toNat
def be32 (s : St) (n : ℕ) : ℕ := s.be16 n * 65536 + s.be16 (n + 2)
def le32 (s : St) (n : ℕ) : ℕ := ofLeBytes (s.copy n 4)

/-- The string that starts at `buf->data + n`. -/
def stringAt (env : Env) (s : St) (n : ℕ) : String :=
  cString (s.copy n (env.heapTop - (s.buf.data + n)))

/-- `g_string_append`, `g_string_sprintfa` -/
def append (s : St) (t : String) : St := { s with str := s.str ++ t }

/-- `g_print`, `printf`, `fprintf (stderr)` -/
def print (s : St) (t : String) : St := { s with msgs := s.msgs ++ [t] }

def pull (s : St) (n : ℕ) : St := { s with buf := (gNetbufPull s.buf n).2 }

/-- `buf->data[n] = b` -/
def poke (s : St) (n : ℕ) (b : UInt8) : St :=
  { s with buf := { s.buf with mem := store s.buf.mem (s.buf.data + n) [b] } }

def enter (s : St) (p : Parser) : St := { s with calls := s.calls ++ [⟨p, s.buf.bytes⟩] }

def pick (s : St) (r : Option LsapState) : St := { s with picked := s.picked ++ [r] }

def setIas (s : St) (q : IasQuery) : St := { s with dec := { s.dec with lastIas := q } }

def setConn (s : St) (i : Slot) (c : LsapState) : St :=
  { s with dec := { s.dec with conn := Function.update s.dec.conn i c } }

def setCache (s : St) (i : Option Slot) : St := { s with dec := { s.dec with connCache := i } }

/-- The parsers that were called, without the contents. -/
def names (s : St) : List Parser := s.calls.map Call.parser

def setCommand (s : St) (c : UInt8) : St := { s with dec := { s.dec with lastCommand := c } }

end St

end Irdadump
