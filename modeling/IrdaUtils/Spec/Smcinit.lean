import IrdaUtils.Lib.Decimal
import IrdaUtils.Lib.PortIo

/-! `smcinit.c`: `set_smc` and `main`. What the program prints is left out, also with
`verbose`. A command line is given as `getopt_long` returns it. -/

namespace Smcinit

open Decimal PortIo

/-! ### Options -/

inductive Opt where
  | version
  | help
  | verbose
  | sirio (arg : List UInt8)
  | firio (arg : List UInt8)
  | firirq (arg : List UInt8)
  | firdma (arg : List UInt8)
  | tty (arg : List UInt8)
  | unknown
  deriving DecidableEq, Repr

structure Options where
  sirIo : BitVec 32
  firIo : BitVec 32
  firIrq : BitVec 32
  firDma : BitVec 32
  ttyDevice : List UInt8
  deriving DecidableEq, Repr

def Options.default : Options := ⟨0x3f8, 0x130, 3, 3, []⟩

/-- The value of a digit or a letter; 36 for any other byte. -/
def digitValue (b : UInt8) : ℕ :=
  if 0x30 ≤ b ∧ b ≤ 0x39 then b.toNat - 0x30
  else if 0x61 ≤ b ∧ b ≤ 0x7a then b.toNat - 0x61 + 10
  else if 0x41 ≤ b ∧ b ≤ 0x5a then b.toNat - 0x41 + 10
  else 36

/-- The base that a number begins with, and its digits. -/
def numberBase (s : List UInt8) : ℕ × List UInt8 :=
  match s with
  | 0x30 :: x :: d :: rest =>
    if (x = 0x78 ∨ x = 0x58) ∧ digitValue d < 16 then (16, d :: rest) else (8, s)
  | 0x30 :: _ => (8, s)
  | _ => (10, s)

/-- `strtoul` with the base 0: the number, and the text from `endptr` on. -/
def strtoul (nptr : List UInt8) : BitVec 64 × List UInt8 :=
  let s := skipSpace nptr
  let neg := s.head? == some 0x2d
  let s := if neg || s.head? == some 0x2b then s.tail else s
  let (base, s) := numberBase s
  let ds := s.takeWhile (digitValue · < base)
  if ds = [] then (0, nptr)
  else
    let n := ds.foldl (fun n d => base * n + digitValue d) 0
    (if 2 ^ 64 ≤ n then -1 else if neg then -BitVec.ofNat 64 n else BitVec.ofNat 64 n,
      s.dropWhile (digitValue · < base))

/-- An argument that is no number ends the program with `die`. -/
def optNumber (optarg : List UInt8) : Except ℕ (BitVec 32) :=
  let (v, endptr) := strtoul optarg
  if optarg = [] ∨ endptr ≠ [] then .error 1 else .ok (v.setWidth 32)

/-- An error is the status of an `exit`. -/
def parseOpt (o : Options) : Opt → Except ℕ Options
  | .version => .error 0
  | .help => .error 0
  | .verbose => .ok o
  | .sirio optarg => do return { o with sirIo := ← optNumber optarg }
  | .firio optarg => do return { o with firIo := ← optNumber optarg }
  | .firirq optarg => do return { o with firIrq := ← optNumber optarg }
  | .firdma optarg => do return { o with firDma := ← optNumber optarg }
  | .tty optarg => .ok { o with ttyDevice := optarg }
  | .unknown => .ok o

def parseOptions (argv : List Opt) : Except ℕ Options := argv.foldlM parseOpt .default

/-- Which of the system calls of `unbind_from_serial` succeed. -/
structure Serial where
  opens : Bool
  gets : Bool
  sets : Bool
  deriving DecidableEq, Repr

def unbindFromSerial (s : Serial) : Except ℕ (BitVec 32) :=
  if s.opens = false then .error 201
  else if s.gets = false then .error 1
  else if s.sets = false then .error 1
  else .ok 0

/-! ### The I/O hub -/

/-- The words that `pci_read_word` returns. What it returns for `PCI_DMA_C` is not used. -/
structure HubReads where
  vid : UInt16
  did : UInt16
  lpcEn : UInt16
  deriving DecidableEq, Repr

inductive HubWrite where
  | byte (reg value : UInt8)
  | word (reg : UInt8) (value : UInt16)
  deriving DecidableEq, Repr

/-- What is written to the hub when it is recognised. -/
def setHub (r : HubReads) : Option (List HubWrite) :=
  if r.vid ≠ 0x8086 then none
  else if r.did ≠ 0x24cc ∧ r.did ≠ 0x248c then none
  else some [.byte 0xe0 0x10, .word 0xe6 (r.lpcEn &&& 0xfffd ||| 0x0001), .word 0x90 0xc0c0,
    .word 0xec 0x131]

/-! ### The chip -/

def possibleCfgbase : List UInt16 := [0x2e, 0x4e]

def localSirIo (o : Options) : BitVec 32 := (o.sirIo &&& 0xff8) >>> 2
def localFirIo (o : Options) : BitVec 32 := (o.firIo &&& 0xff8) >>> 3

/-- The port at which a known chip answers. -/
def findChip : List UInt16 → Io (Option UInt16)
  | [] => pure none
  | base :: rest => do
    outb 0x55 base
    outb 0x0d base
    let i ← inb (base + 1)
    if i = 0x5a ∨ i = 0x7a then pure (some base) else findChip rest

/-- An `int` as `inb` returns it. -/
def ofByte (i : UInt8) : BitVec 32 := BitVec.ofNat 32 i.toNat

/-- The selected register is written and read back. -/
def writeBack (base : UInt16) (value : BitVec 32) : Io Bool := do
  outb (toByte value) (base + 1)
  let i ← inb (base + 1)
  pure (decide (ofByte i = value))

def setSirIo (base : UInt16) (o : Options) : Io Bool := do
  outb 0x24 base
  outb 0x00 (base + 1)
  outb 0x25 base
  writeBack base (localSirIo o)

/-- The value that the register had is read and masked out. -/
def setFirIrq (base : UInt16) (o : Options) : Io Bool := do
  outb 0x28 base
  let i ← inb (base + 1)
  outb (toByte (ofByte i &&& 0x00 ||| o.firIrq)) (base + 1)
  let i ← inb (base + 1)
  pure (decide (ofByte i = o.firIrq))

def setFirIo (base : UInt16) (o : Options) : Io Bool := do
  outb 0x2b base
  writeBack base (localFirIo o)

def setFirDma (base : UInt16) (o : Options) : Io Bool := do
  outb 0x2c base
  writeBack base o.firDma

/-- The four settings, up to the first that is not read back. -/
def setRegs (base : UInt16) (o : Options) : Io Bool := do
  if ← setSirIo base o then
    if ← setFirIrq base o then
      if ← setFirIo base o then setFirDma base o else pure false
    else pure false
  else pure false

def modifyReg (base : UInt16) (reg : UInt8) (f : UInt8 → UInt8) : Io Unit := do
  outb reg base
  let i ← inb (base + 1)
  outb (f i) (base + 1)

def enableIrda (base : UInt16) : Io Unit := do
  modifyReg base 0x0c fun i => i &&& 0xc7 ||| 0x88
  modifyReg base 0x07 fun i => i ||| 0x20
  modifyReg base 0x0a fun i => i ||| 0x40
  modifyReg base 0x02 fun _ => 0x80
  modifyReg base 0x00 fun i => i ||| 0x80

/-- Behind the loop over the ports. -/
def setChip (o : Options) (found : Option UInt16) : Io (BitVec 32) :=
  match found with
  | none => pure 1
  | some base => do
    if ← setRegs base o then
      enableIrda base
      outb 0xaa base
      pure 0
    else pure 1

def setSmc (hub : HubReads) (o : Options) : Io (BitVec 32) :=
  match setHub hub with
  | none => pure 1
  | some _ => do
    let found ← findChip possibleCfgbase
    setChip o found

/-- `retVal` is what the local holds that `main` does not set. Only `root` gets into `set_smc`. -/
def main (root : Bool) (argv : List Opt) (serial : Serial) (hub : HubReads) (retVal : BitVec 32) :
    Io (Except ℕ (BitVec 32)) :=
  match parseOptions argv with
  | .error status => pure (.error status)
  | .ok o =>
    match if o.ttyDevice ≠ [] then unbindFromSerial serial else .ok retVal with
    | .error status => pure (.error status)
    | .ok retVal =>
      if root then do
        let r ← setSmc hub o
        pure (.ok (retVal + r))
      else pure (.error 1)

end Smcinit
