import IrdaUtils.Lib.Arguments
import IrdaUtils.Spec.Smcinit
import IrdaUtils.Spec.ToshSmcinit

/-! `tosh1800-smcinit.c`: `main` and `configure_smc_ircc`. A command line is given as
`getopt_long` returns it; the log is left out. -/

namespace Tosh1800
open PortIo ToshSmcinit Smcinit

/-- The variables of `main` with a number, which an option sets. -/
inductive Number where
  | isabridgeVendorId
  | isabridgeDeviceId
  | cfgbase
  | sirbase
  | firbase
  | dma
  | irq
  deriving DecidableEq, Repr

inductive Opt where
  | skipDecodingCfg
  | skipSmcIrccCfg
  | print
  | number (n : Number) (optarg : List UInt8)
  | version
  | help
  | unknown
  deriving DecidableEq, Repr

def actionConfigAli1533PortsDecoding : BitVec 32 := 1
def actionInitSmcIrcc : BitVec 32 := 2
def actionPrintAli1533Configuration : BitVec 32 := 4

structure Options where
  actions : BitVec 32
  number : Number → BitVec 32

def Number.default : Number → BitVec 32
  | .isabridgeVendorId => 0x10b9
  | .isabridgeDeviceId => 0x1533
  | .cfgbase => 0x2e
  | .sirbase => 0x2e8
  | .firbase => 0x2f8
  | .dma => 0x03
  | .irq => 0x07

def Options.default : Options :=
  ⟨actionConfigAli1533PortsDecoding ||| actionInitSmcIrcc, Number.default⟩

/-- The number in front of what else the argument holds, as an `int`. -/
def optNumber (optarg : List UInt8) : BitVec 32 := (strtoul optarg).1.setWidth 32

/-- A case of the switch. An error is the status of an `exit`. -/
def option (o : Options) : Opt → Except ℕ Options
  | .skipDecodingCfg => .ok { o with actions := o.actions &&& ~~~actionConfigAli1533PortsDecoding }
  | .skipSmcIrccCfg => .ok { o with actions := o.actions &&& ~~~actionInitSmcIrcc }
  | .print => .ok { o with actions := o.actions ||| actionPrintAli1533Configuration }
  | .number n optarg => .ok { o with number := Function.update o.number n (optNumber optarg) }
  | .version => .error 0
  | .help => .error 0
  | .unknown => .ok o

/-! ### The chip -/

def deviceIdReg : UInt8 := 0x0d
def revisionIdReg : UInt8 := 0x0e

/-- The name, which is only logged, is left out. -/
structure SmcChipModel where
  versionId : UInt8
  configFunction : Bool → UInt16 → BitVec 32 → BitVec 32 → BitVec 32 → BitVec 32 → Io ℕ

def smcChips : List SmcChipModel := [⟨0x5a, configure47N227SmcIrcc⟩]

def findSmcChipModel (chips : List SmcChipModel) (versionId : UInt8) : Option SmcChipModel :=
  chips.find? (·.versionId = versionId)

/-- `granted` and `granted'` are the answers of `ioperm` here and in the function of the chip,
whose own answer is only logged. -/
def configureSmcIrcc (granted granted' : Bool) (cfgbase : UInt16)
    (sirbase firbase dma irq : BitVec 32) : Io ℕ :=
  if granted then do
    outb cfgAccessKey cfgbase
    outb deviceIdReg cfgbase
    let versionId ← inb (cfgbase + 1)
    outb revisionIdReg cfgbase
    let _ ← inb (cfgbase + 1)
    outb cfgExitKey cfgbase
    match findSmcChipModel smcChips versionId with
    | some model => do
      let _ ← model.configFunction granted' cfgbase sirbase firbase dma irq
      pure 1
    | none => pure 0
  else pure 0

/-! ### The program -/

/-- What the program finds: its user is root, `ioperm` twice, what `pci_filter_match` makes of a
vendor and a device, and the PCI bus if there is access to it. -/
structure Machine where
  root : Bool
  granted : Bool
  granted' : Bool
  matched : BitVec 32 → BitVec 32 → PciDev → Bool
  access : Option (List PciDev)

/-- The port number that reaches `outb` and `inb`. -/
def Options.port (o : Options) : UInt16 := .ofNat (o.number .cfgbase).toNat

/-- `!retval` -/
def status (retval : ℕ) : ℕ := if retval = 0 then 1 else 0

/-- The status, and the PCI bus behind. -/
def main (m : Machine) (argv : List Opt) : Io (ℕ × Option (List PciDev)) :=
  match argv.foldlM option .default with
  | .error s => pure (s, m.access)
  | .ok o =>
    if m.root = false then pure (1, m.access)
    else do
      let retval ←
        if o.actions &&& actionInitSmcIrcc ≠ 0 then
          configureSmcIrcc m.granted m.granted' o.port (o.number .sirbase) (o.number .firbase)
            (o.number .dma) (o.number .irq)
        else pure 0
      if o.actions &&& actionConfigAli1533PortsDecoding ≠ 0 ∧ retval ≠ 0 then
        let r := configureAli1533SmcPortsDecoding
          (m.matched (o.number .isabridgeVendorId) (o.number .isabridgeDeviceId)) m.access
          (o.number .firbase).toInt (o.number .sirbase).toInt
          (decide (o.actions &&& actionPrintAli1533Configuration ≠ 0))
        pure (status r.1, r.2.2)
      else pure (status retval, m.access)

/-! ### The command line as it is meant -/

def Opt.valueOf (n : Number) : Opt → Option (BitVec 32)
  | .number n' optarg => if n' = n then some (optNumber optarg) else none
  | _ => none

/-- Of the options for a number the last one counts. -/
def meant (argv : List Opt) (n : Number) : BitVec 32 :=
  Arguments.lastOf (Opt.valueOf n) argv n.default

end Tosh1800
