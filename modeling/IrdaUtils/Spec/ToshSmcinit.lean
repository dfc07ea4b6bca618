import IrdaUtils.Lib.PortDevice

/-! `tosh1800-smcinit.c`: the configuration of the LPC47N227 and of the port decoding of the
ALi1533 bridge. An `int` is a `BitVec 32` where its bits are used; a port is what `outb` and
`inb` make of it. -/

namespace ToshSmcinit

open PortIo

/-! ### LPC47N227 -/

def cfgAccessKey : UInt8 := 0x55
def cfgExitKey : UInt8 := 0xaa

def fdcPowerValidConfReg : UInt8 := 0x00
def validMask : UInt8 := 0x80

def uart12PowerReg : UInt8 := 0x02
def uart2PowerDownMask : UInt8 := 0x80

def apmBootDriveReg : UInt8 := 0x07
def uart2AutoPwrDownMask : UInt8 := 0x20

def uartMode0cReg : UInt8 := 0x0c
def uart2ModeMask : UInt8 := 0x38
def uart2ModeValIrda : UInt8 := 0x08

def uart2BaseAddrReg : UInt8 := 0x25

def uartIrqSelectReg : UInt8 := 0x28
def uart2IrqSelectMask : BitVec 32 := 0x0f
def uart1IrqSelectMask : UInt8 := 0xf0

def firBaseAddrReg : UInt8 := 0x2b

def firDmaSelectReg : UInt8 := 0x2c
def firDmaSelectMask : BitVec 32 := 0x0f

/-- The chip at `cfgbase`. -/
def lpc47N227 (cfgbase : UInt16) : IndexPort := ⟨cfgbase, cfgAccessKey, cfgExitKey⟩

/-- `granted` is the answer of `ioperm`. -/
def configure47N227SmcIrcc (granted : Bool) (cfgbase : UInt16)
    (sirbase firbase dma irq : BitVec 32) : Io ℕ :=
  let chip := lpc47N227 cfgbase
  if granted then do
    outb cfgAccessKey cfgbase
    chip.writeReg uart2BaseAddrReg (toByte (sirbase.sshiftRight 2))
    chip.writeReg firBaseAddrReg (toByte (firbase.sshiftRight 3))
    chip.writeReg firDmaSelectReg (toByte (dma &&& firDmaSelectMask))
    chip.modifyReg uartIrqSelectReg fun onebyte =>
      onebyte &&& uart1IrqSelectMask ||| toByte (irq &&& uart2IrqSelectMask)
    chip.modifyReg uartMode0cReg fun onebyte =>
      onebyte &&& (~~~uart2ModeMask ||| uart2ModeValIrda)
    chip.modifyReg apmBootDriveReg fun onebyte => onebyte ||| uart2AutoPwrDownMask
    chip.modifyReg uart12PowerReg fun onebyte => onebyte ||| uart2PowerDownMask
    chip.modifyReg fdcPowerValidConfReg fun onebyte => onebyte ||| validMask
    outb cfgExitKey cfgbase
    pure 1
  else pure 0

/-! ### ALi1533 -/

structure PortDecodingAccessInfo where
  port : ℤ
  reg : UInt8
  orMask : UInt8
  deriving DecidableEq, Repr

def ali1533Ports : List PortDecodingAccessInfo :=
  [⟨0x130, 0xb0, 0x80⟩,
    ⟨0x178, 0xb0, 0x80⟩,
    ⟨0x3f8, 0xb4, 0x80⟩,
    ⟨0x2f8, 0xb4, 0x30⟩,
    ⟨0x2e8, 0xb4, 0x08⟩,
    ⟨0, 0, 0⟩]

/-- The search ends at the entry without a port. -/
def findPortInfo (port : ℤ) : List PortDecodingAccessInfo → Option PortDecodingAccessInfo
  | [] => none
  | p :: ps =>
    if p.port = 0 then none
    else if p.port = port then some p
    else findPortInfo port ps

def findAli1533PortAccessInfo (port : ℤ) : Option PortDecodingAccessInfo :=
  findPortInfo port ali1533Ports

/-- The configuration registers of a PCI device. -/
abbrev Regs := UInt8 → UInt8

/-- The mode before (0 disabled, 1 enabled, -1 port unknown), and the registers behind. -/
def setAli1533Port (regs : Regs) (port : ℤ) (decode : Bool) : ℤ × Regs :=
  match findAli1533PortAccessInfo port with
  | some info =>
    let previousval := regs info.reg
    let onebyte := previousval &&& ~~~info.orMask
    let onebyte := if decode then onebyte ||| info.orMask else onebyte
    (if previousval &&& info.orMask ≠ 0 then 1 else 0, Function.update regs info.reg onebyte)
  | none => (-1, regs)

inductive Log where
  | found
  | wasAlreadyEnabled (port : ℤ)
  | enabledDecoding (port : ℤ)
  | ended
  | notFound
  deriving DecidableEq, Repr

/-- A turn of the loop over the two ports. -/
def enablePort (s : List Log × Regs) (port : ℤ) : List Log × Regs :=
  let (previousMode, regs) := setAli1533Port s.2 port true
  (s.1 ++ [if previousMode = 1 then .wasAlreadyEnabled port else .enabledDecoding port], regs)

structure PciDev where
  vendor : UInt16
  device : UInt16
  regs : Regs

/-- The first device of the bus that the filter matches, with what stands before and behind it. -/
def findPciDevice (matched : PciDev → Bool) : List PciDev → Option (List PciDev × PciDev × List PciDev)
  | [] => none
  | dev :: devs =>
    if matched dev then some ([], dev, devs)
    else (findPciDevice matched devs).map fun (pre, d, post) => (dev :: pre, d, post)

/-- What the call returns and writes to the log, and the bus behind it. `access` is `none` when
`pci_alloc` fails, and `matched` is what `pci_filter_match` makes of the vendor and the
device. The print leaves everything as it is. -/
def configureAli1533SmcPortsDecoding (matched : PciDev → Bool) (access : Option (List PciDev))
    (firbase sirbase : ℤ) (print : Bool) : ℕ × List Log × Option (List PciDev) :=
  match access with
  | none => (0, [], none)
  | some bus =>
    match findPciDevice matched bus with
    | none => (0, [.notFound], some bus)
    | some (pre, dev, post) =>
      if print then (1, [.ended], some bus)
      else
        let (log, regs) := [sirbase, firbase].foldl enablePort ([.found], dev.regs)
        (1, log ++ [.ended], some (pre ++ { dev with regs := regs } :: post))

end ToshSmcinit
