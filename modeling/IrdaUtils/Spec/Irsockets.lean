import IrdaUtils.Spec.Devlist

/-! The text pairs of `irsockets`. `irscanf` and `irscanfx` write the same bytes to a stream
socket, line by line, and an end mark behind the last line; `irprintf` reads the stream with
`fgets`, and `irprintfx` with `read`, which returns what has come so far. -/

namespace Irsockets

open Irattach

def endMark : UInt8 := 0x03
def dot : UInt8 := 0x2e

/-- The loop of `irscanf`, from what the calls of `fgets` return on: what each turn writes. -/
def irscanfLoop : List (List UInt8) → List (List UInt8)
  | [] => [[endMark]]
  | buf :: bufs =>
    if buf.head? = some dot then [[endMark]]
    else if buf.head? = some endMark then [cstr buf]
    else cstr buf :: irscanfLoop bufs

def irscanf (stdin : List UInt8) : List (List UInt8) := irscanfLoop (fgetsAll 4094 stdin)

/-- The loop of `irprintf`: what it prints for one connection. -/
def irprintfLoop : List (List UInt8) → List UInt8
  | [] => []
  | buf :: bufs =>
    if buf.head? = some endMark then []
    else if buf.head? = some 0 then cstr buf
    else cstr buf ++ irprintfLoop bufs

def irprintf (stream : List UInt8) : List UInt8 := irprintfLoop (fgetsAll 4096 stream)

/-- The loop of `irprintfx`, from what the calls of `read` return on. -/
def irprintfx : List (List UInt8) → List UInt8
  | [] => []
  | buf :: bufs =>
    if buf = [] ∨ buf.head? = some endMark then []
    else if buf.head? = some 0 then buf
    else buf ++ irprintfx bufs

end Irsockets
