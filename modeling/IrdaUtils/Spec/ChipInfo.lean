import IrdaUtils.Lib.Decimal
import IrdaUtils.Spec.Findchip

/-! What `findchip` reports: `struct chip_info`, `print_info`, and the records that the two
`read_info` functions of `winbond.c` fill. Such a record is a local variable: a field that is
not set holds what was on the stack. Debug output is left out. -/

namespace Findchip

open PortIo Decimal

/-- The fields with values of the kind `τ`: an `Option` while some may not be set. -/
structure Fields (τ : Type → Type) where
  manufacturer : τ (List UInt8)
  name : τ (List UInt8)
  chipId : τ (BitVec 32)
  revision : τ (BitVec 32)
  cfgBase : τ (BitVec 32)
  sirBase : τ (BitVec 32)
  firBase : τ (BitVec 32)
  irq : τ (BitVec 32)
  dma : τ (BitVec 32)
  uartComp : τ (BitVec 32)
  enabled : τ (BitVec 32)
  suspended : τ (BitVec 32)
  delay : τ (BitVec 32)

abbrev ChipInfo := Fields fun α => α

/-- The record without any field set. -/
def unset : Fields Option :=
  ⟨none, none, none, none, none, none, none, none, none, none, none, none, none⟩

/-- The record in memory, with `stack` where no field is set. -/
def Fields.over (info : Fields Option) (stack : ChipInfo) : ChipInfo where
  manufacturer := info.manufacturer.getD stack.manufacturer
  name := info.name.getD stack.name
  chipId := info.chipId.getD stack.chipId
  revision := info.revision.getD stack.revision
  cfgBase := info.cfgBase.getD stack.cfgBase
  sirBase := info.sirBase.getD stack.sirBase
  firBase := info.firBase.getD stack.firBase
  irq := info.irq.getD stack.irq
  dma := info.dma.getD stack.dma
  uartComp := info.uartComp.getD stack.uartComp
  enabled := info.enabled.getD stack.enabled
  suspended := info.suspended.getD stack.suspended
  delay := info.delay.getD stack.delay

/-! ### `print_info` -/

def dec (v : BitVec 32) : List UInt8 := printInt v.toInt
def hex (v : BitVec 32) : List UInt8 := ascii "0x" ++ printHex 1 v.toNat
def yesNo (v : BitVec 32) : List UInt8 := if v ≠ 0 then ascii "yes" else ascii "no"

def printVerbose (info : ChipInfo) : List UInt8 :=
  ascii "Found " ++ info.manufacturer ++ ascii " " ++ info.name ++ ascii " Controller at " ++
    hex info.cfgBase ++ ascii ", DevID=0x" ++ printHex 2 info.chipId.toNat ++ ascii ", Rev. " ++
    dec info.revision ++ ascii "\n" ++
    ascii "    SIR Base " ++ hex info.sirBase ++ ascii ", FIR Base " ++ hex info.firBase ++ ascii "\n" ++
    ascii "    IRQ = " ++ dec info.irq ++ ascii ", DMA = " ++ dec info.dma ++ ascii "\n" ++
    ascii "    Enabled: " ++ yesNo info.enabled ++ ascii ", Suspended: " ++ yesNo info.suspended ++
    ascii "\n" ++
    ascii "    UART compatible: " ++ yesNo info.uartComp ++ ascii "\n" ++
    ascii "    Half duplex delay = " ++ dec info.delay ++ ascii " us\n"

def printLine (info : ChipInfo) : List UInt8 :=
  info.manufacturer ++ ascii "," ++ info.name ++ ascii "," ++ dec info.chipId ++ ascii "." ++
    dec info.revision ++ ascii "," ++ hex info.cfgBase ++ ascii "," ++ hex info.sirBase ++
    ascii "," ++ hex info.firBase ++ ascii "," ++ dec info.irq ++ ascii "," ++ dec info.dma ++
    ascii "," ++ dec info.enabled ++ ascii "," ++ dec info.suspended ++ ascii "," ++
    dec info.uartComp ++ ascii "\n"

def printInfo (verbose : Bool) (info : ChipInfo) : List UInt8 :=
  if verbose then printVerbose info else printLine info

/-! ### `winbond.c` -/

/-- The table `chips`, up to the `NULL` name. -/
def winbondNames : List (List UInt8 × UInt8) :=
  [(ascii "W83977TF", 0x73), (ascii "W83977ATF", 0x74), (ascii "W83877AF", 0x0b),
    (ascii "W83877TF", 0x0c), (ascii "W83877ATF", 0x0d)]

def winbondName (id : UInt8) : Option (List UInt8) :=
  (winbondNames.find? fun chip => chip.2 == id).map Prod.fst

def manufacturer : List UInt8 := ascii "WINBOND"

/-- A byte that was read, as an `int`. -/
def toInt (b : UInt8) : BitVec 32 := b.toBitVec.setWidth 32

def flag (b : Bool) : BitVec 32 := if b then 1 else 0

/-- The record of a W83977, from its registers. -/
def w83977Fields (e : WinbondEfer) (name : List UInt8)
    (devid revision cr74 cr70 cr60 cr61 crf0 : UInt8) : Fields Option :=
  let base := toInt cr60 <<< 8 ||| toInt cr61
  { unset with
    manufacturer := some manufacturer, name := some name, chipId := some (toInt devid)
    revision := some (toInt revision), cfgBase := some (e.eferAddr.toBitVec.setWidth 32)
    sirBase := some base, firBase := some base, irq := some (toInt (cr70 &&& 0x0f))
    dma := some (if cr74 > 3 then -1 else toInt cr74), uartComp := some 1
    enabled := some (flag (crf0 &&& 0x01 ≠ 0)), suspended := some 0 }

/-- The record that `w83977_read_info` prints, if it finds a chip. -/
def w83977Info (e : WinbondEfer) : Io (Option (Fields Option)) := do
  let devid ← e.reg 0x20
  let revision ← e.reg 0x21
  if devid ≠ 0x97 then pure none
  else
    match winbondName revision with
    | none => pure none
    | some name => do
      outb 0x07 e.efirAddr
      outb 0x06 e.efdrAddr
      let cr74 ← e.reg 0x74
      let _ ← e.reg 0x75
      let cr70 ← e.reg 0x70
      let cr60 ← e.reg 0x60
      let cr61 ← e.reg 0x61
      let crf0 ← e.reg 0xf0
      pure (some (w83977Fields e name devid revision cr74 cr70 cr60 cr61 crf0))

/-- `dma` is set when both channels are the same. -/
def dma83877 (cr2a : UInt8) : Option (BitVec 32) :=
  let txdma := (cr2a &&& 0xf0) >>> 4
  let rxdma := cr2a &&& 0x0f
  if txdma = rxdma then some (toInt txdma) else none

/-- Every register that decides on `disabled` must have its bits. -/
def enabled83877 (cr0c cr0d cr2c : UInt8) : Bool :=
  cr0c &&& 0x10 ≠ 0 && cr0c &&& 0x08 ≠ 0 && (cr0d &&& 0x07 = 2 || cr0d &&& 0x07 = 3) &&
    cr2c &&& 0x08 ≠ 0

/-- The record of a W83877, from its registers. -/
def w83877Fields (e : WinbondEfer) (name : List UInt8)
    (chipid cr2a cr28 cr25 cr0c cr0d cr2c : UInt8) : Fields Option :=
  let base := toInt (cr25 &&& 0xfe) <<< 2
  { unset with
    manufacturer := some manufacturer, name := some name, chipId := some (toInt chipid)
    revision := some (-1), cfgBase := some (e.eferAddr.toBitVec.setWidth 32)
    sirBase := some base, firBase := some base, irq := some (toInt (cr28 &&& 0x0f))
    dma := dma83877 cr2a, uartComp := some 1
    enabled := some (flag (enabled83877 cr0c cr0d cr2c)), suspended := some 0 }

/-- The record that `w83877_read_info` prints, if it finds a chip. -/
def w83877Info (e : WinbondEfer) : Io (Option (Fields Option)) := do
  let cr09 ← e.reg 0x09
  match winbondName (cr09 &&& 0x0f) with
  | none => pure none
  | some name => do
    let cr2a ← e.reg 0x2a
    let cr28 ← e.reg 0x28
    let cr25 ← e.reg 0x25
    let _ ← e.reg 0x0b
    let cr0c ← e.reg 0x0c
    let cr0d ← e.reg 0x0d
    let cr2c ← e.reg 0x2c
    pure (some (w83877Fields e name (cr09 &&& 0x0f) cr2a cr28 cr25 cr0c cr0d cr2c))

/-- The function that `probe_winbond` calls for an entry of `efers`. -/
def WinbondEfer.info (e : WinbondEfer) : Io (Option (Fields Option)) :=
  match e.chipType with
  | .w83877 => w83877Info e
  | .w83977 => w83977Info e

end Findchip
