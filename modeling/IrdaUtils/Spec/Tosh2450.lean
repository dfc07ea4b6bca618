import IrdaUtils.Spec.ToshSmcinit

/-! `tosh2450-smcinit.c`: `main`, with the configuration registers of the 82801DB hub and the
LPC47N227 at 0x2e. -/

namespace Tosh2450
open PortIo ToshSmcinit

def intelVid : UInt16 := 0x8086
def i82801DBLpcDid : UInt16 := 0x24c0

def vid : UInt8 := 0x00
def did : UInt8 := 0x02
def pciDmaC : UInt8 := 0x90
def comDec : UInt8 := 0xe0
def lpcEn : UInt8 := 0xe6
def gen2Dec : UInt8 := 0xec

def smcBase : UInt16 := 0x2e

/-- What the program calls of the PCI library, on a hub `η`. -/
structure LibPci (η : Type) where
  pciReadWord : η → UInt8 → UInt16
  pciWriteByte : η → UInt8 → UInt8 → η
  pciWriteWord : η → UInt8 → UInt16 → η

variable {η : Type}

/-- The first half of `main`; a hub that is not known is left alone. -/
def setpci (pci : LibPci η) (dev : η) : Option η :=
  if pci.pciReadWord dev vid ≠ intelVid then none
  else if pci.pciReadWord dev did ≠ i82801DBLpcDid then none
  else
    let dev := pci.pciWriteByte dev comDec 0x10
    let twobyte := pci.pciReadWord dev lpcEn
    let dev := pci.pciWriteWord dev lpcEn (twobyte &&& 0xfffd ||| 0x0001)
    let twobyte := pci.pciReadWord dev pciDmaC
    let dev := pci.pciWriteWord dev pciDmaC (twobyte ||| 0xc00c)
    some (pci.pciWriteWord dev gen2Dec 0x131)

/-- The second half. -/
def setsmc : Io ℕ := do
  let chip := lpc47N227 smcBase
  outb cfgAccessKey smcBase
  outb 0x0d smcBase
  let i ← inb (smcBase + 1)
  if i = 0x5a then do
    chip.writeReg 0x24 0x00
    chip.writeReg 0x25 0xfe
    chip.modifyReg 0x28 fun i => i &&& 0x00 ||| 0x07
    chip.writeReg 0x2b 0x26
    chip.writeReg 0x2c 0x01
    chip.modifyReg 0x0c fun i => i &&& 0xc7 ||| 0x88
    chip.modifyReg 0x07 fun i => i ||| 0x20
    chip.modifyReg 0x0a fun i => i ||| 0x40
    chip.modifyReg 0x02 fun _ => 0x80
    chip.modifyReg 0x00 fun i => i ||| 0x80
    outb cfgExitKey smcBase
    pure 0
  else pure 1

/-- `main`: the status, and the hub behind. -/
def main (pci : LibPci η) (dev : η) : Io (ℕ × η) :=
  match setpci pci dev with
  | none => pure (1, dev)
  | some dev => do
    let status ← setsmc
    pure (status, dev)

end Tosh2450
