import IrdaUtils.Lib.Decimal
import IrdaUtils.Lib.Memory

/-! `irnetd.c`: the loop that reads the events of `/dev/irnet` and launches `pppd`. The arrays
`line` and `cmd` live as long as the program, and `line` is not initialised. -/

namespace Irnetd

open Memory
open Decimal (ascii)

def sizeofLine : ℕ := 255
def sizeofCmd : ℕ := 255

def cmd1 : List UInt8 := ascii "pppd /dev/irnet 9600 local "
def cmd2 : List UInt8 := ascii "noauth nolock connect-delay 0 idle 10 "
def cmd3 : List UInt8 := ascii "connect \"echo addr "
def aux : List UInt8 := ascii "01235678\""

/-- The fixed part of the command. -/
def fixedPart (args : List (List UInt8)) : List UInt8 :=
  cmd1 ++ (if args = [] then cmd2 else args.flatMap (· ++ ascii " ")) ++ cmd3

/-- The arguments of the program: strings, which are copied to `cmd` without a check, so they
must leave room for the rest of the command. -/
structure Setup where
  args : List (List UInt8)
  strings : ∀ a ∈ args, 0 ∉ a
  fits : (fixedPart args).length + aux.length + 1 ≤ sizeofCmd

structure State where
  line : Mem
  cmd : Mem

/-- `main` up to its loop, with what the two arrays held before. -/
def start (u : Setup) (line cmd : Mem) : State :=
  ⟨line, store cmd 0 (fixedPart u.args ++ aux ++ [0])⟩

/-- The bytes that `fgets` returns, without the zero that it puts behind them. -/
structure Line where
  bytes : List UInt8
  pos : 0 < bytes.length
  fits : bytes.length < sizeofLine

/-- At the end of the file the array is left as it is; behind an error it may hold anything. -/
inductive Outcome where
  | line (l : Line)
  | eof
  | error (line : Mem)

def fgets (line : Mem) : Outcome → Mem
  | .line l => store line 0 (l.bytes ++ [0])
  | .eof => line
  | .error line => line

/-- `strncmp(line, "Req", 3) == 0` -/
def IsRequest (line : Mem) : Prop := load line 0 3 = ascii "Req"

instance (line : Mem) : Decidable (IsRequest line) := inferInstanceAs (Decidable (_ = _))

def endp (u : Setup) : ℕ := (fixedPart u.args).length

/-- The string that starts the array. -/
def commandOf (cmd : Mem) : List UInt8 := (load cmd 0 sizeofCmd).takeWhile (· ≠ 0)

/-- One turn of the loop: the state behind it, and the commands that `system` was called with. -/
def turn (u : Setup) (s : State) (o : Outcome) : State × List (List UInt8) :=
  let line := fgets s.line o
  if IsRequest line then
    let cmd := store s.cmd (endp u) (load line 13 8)
    (⟨line, cmd⟩, [commandOf cmd])
  else (⟨line, s.cmd⟩, [])

def step (u : Setup) (s : State) (o : Outcome) : State := (turn u s o).1

end Irnetd
