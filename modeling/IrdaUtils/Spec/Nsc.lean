import IrdaUtils.Spec.ChipInfo

/-! `nsc.c` and the main program of `findchip`. The NSC chips have no configuration mode: their
index register can be read and written at any time. A report is filled over zeros. Debug
output is left out. -/

namespace Findchip

open PortIo Decimal

/-! ### `nsc.c` -/

def nscManufacturer : List UInt8 := ascii "NSC"

/-- The record behind `memset`. -/
def zeroInfo : ChipInfo := ⟨[], [], 0, 0, 0, 0, 0, 0, 0, 0, 0, 0, 0⟩

/-- What a probe prints: in legacy mode the register that it decodes, and the record. -/
structure NscReport where
  far : Option UInt8
  info : ChipInfo

def NscReport.text (verbose : Bool) (r : NscReport) : List UInt8 :=
  (match r.far with
    | some far => ascii "reg=0x" ++ printHex 3 far.toNat ++ ascii "\n"
    | none => []) ++ printInfo verbose r.info

/-- The fields that come from the caller. -/
def nscInfo (name : List UInt8) (cfgBase : UInt16) (chipId revision : UInt8) : ChipInfo :=
  { zeroInfo with
    manufacturer := nscManufacturer, name := name, chipId := toInt chipId
    revision := toInt revision, cfgBase := cfgBase.toBitVec.setWidth 32, uartComp := 1 }

def baicBase (reg : UInt8) : BitVec 32 :=
  if reg &&& 0x03 = 0 then 0x3e8
  else if reg &&& 0x03 = 1 then 0x2e8
  else if reg &&& 0x03 = 2 then 0x3f8
  else 0x2f8

def csrtIrq (reg : UInt8) : BitVec 32 :=
  if reg &&& 0x07 = 0 then -1
  else if reg &&& 0x07 = 1 then 3
  else if reg &&& 0x07 = 2 then 4
  else if reg &&& 0x07 = 3 then 5
  else if reg &&& 0x07 = 4 then 7
  else if reg &&& 0x07 = 5 then 9
  else if reg &&& 0x07 = 6 then 11
  else 15

def csrtDma (reg : UInt8) : BitVec 32 :=
  if reg >>> 3 &&& 0x03 = 0 then -1
  else if reg >>> 3 &&& 0x03 = 1 then 0
  else if reg >>> 3 &&& 0x03 = 2 then 1
  else 3

/-- The record of a '108, from its registers. -/
def nsc108Info (name : List UInt8) (cfgBase : UInt16) (chipId revision baic csrt mctl : UInt8) :
    ChipInfo :=
  { nscInfo name cfgBase chipId revision with
    sirBase := baicBase baic, firBase := baicBase baic, irq := csrtIrq csrt, dma := csrtDma csrt
    enabled := toInt (mctl &&& 0x01), suspended := flag (mctl >>> 1 &&& 0x01 = 0) }

def nscProbe108 (name : List UInt8) (cfgBase : UInt16) (chipId revision : UInt8) : Io NscReport := do
  let baic ← readReg cfgBase 0x00
  let csrt ← readReg cfgBase 0x01
  let mctl ← readReg cfgBase 0x02
  pure ⟨none, nsc108Info name cfgBase chipId revision baic csrt mctl⟩

/-- The address that the PnP registers hold. -/
def pnpBase (low high : UInt8) : BitVec 32 :=
  toInt (low &&& 0xfe) <<< 2 ||| toInt (high &&& 0xfc) <<< 8

/-- COM3 and COM4 have four settings. -/
def comBase (com3 : Bool) (far : UInt8) : BitVec 32 :=
  if far >>> 6 &&& 0x03 = 0 then if com3 then 0x3e8 else 0x2e8
  else if far >>> 6 &&& 0x03 = 1 then if com3 then 0x338 else 0x238
  else if far >>> 6 &&& 0x03 = 2 then if com3 then 0x2e8 else 0x2e0
  else if com3 then 0x220 else 0x228

def farBase (far : UInt8) : BitVec 32 :=
  if far >>> 4 &&& 0x03 = 0 then 0x3f8
  else if far >>> 4 &&& 0x03 = 1 then 0x2f8
  else comBase (far >>> 4 &&& 0x03 = 2) far

/-- The record of a '338, from its registers. -/
def nsc338Info (name : List UInt8) (cfgBase : UInt16) (chipId revision : UInt8)
    (base : BitVec 32) (fer pnp1 pnp3 ptr : UInt8) : ChipInfo :=
  { nscInfo name cfgBase chipId revision with
    sirBase := base, firBase := base, irq := toInt (pnp1 >>> 4), dma := toInt (pnp3 &&& 0x07) - 1
    enabled := toInt (fer >>> 2 &&& 0x01), suspended := toInt (ptr &&& 0x01) }

/-- The address, and the register that is printed in legacy mode. -/
def nsc338Base (cfgBase : UInt16) : Io (BitVec 32 × Option UInt8) := do
  let pnp0 ← readReg cfgBase 0x1b
  if pnp0 >>> 4 &&& 0x01 ≠ 0 then do
    let low ← readReg cfgBase 0x46
    let high ← readReg cfgBase 0x47
    pure (pnpBase low high, none)
  else do
    let far ← readReg cfgBase 0x01
    pure (farBase far, some far)

def nscProbe338 (name : List UInt8) (cfgBase : UInt16) (chipId revision : UInt8) : Io NscReport := do
  let fer ← readReg cfgBase 0x00
  let base ← nsc338Base cfgBase
  let pnp1 ← readReg cfgBase 0x1c
  let pnp3 ← readReg cfgBase 0x4f
  let ptr ← readReg cfgBase 0x02
  pure ⟨base.2, nsc338Info name cfgBase chipId revision base.1 fer pnp1 pnp3 ptr⟩

structure NscChip where
  name : List UInt8
  cfg : List UInt16
  cidIndex : UInt8
  cidValue : UInt8
  cidMask : UInt8
  probe : List UInt8 → UInt16 → UInt8 → UInt8 → Io NscReport

def pc87108 : NscChip := ⟨ascii "PC87108", [0x150, 0x398, 0xea], 0x05, 0x10, 0xf0, nscProbe108⟩
def pc87338 : NscChip := ⟨ascii "PC87338", [0x398, 0x15c, 0x2e], 0x08, 0xb0, 0xf0, nscProbe338⟩

/-- The table `chips`, up to the `NULL` name. -/
def nscChips : List NscChip := [pc87108, pc87338]

/-- A turn of the inner loop. -/
def NscChip.tryAt (chip : NscChip) (cfgBase : UInt16) : Io (List NscReport) := do
  let index ← inb cfgBase
  if index = 0xff then pure []
  else do
    let id ← readReg cfgBase chip.cidIndex
    if id &&& chip.cidMask = chip.cidValue then do
      let r ← chip.probe chip.name cfgBase ((id &&& chip.cidMask) >>> 4) (id &&& ~~~chip.cidMask)
      pure [r]
    else pure []

def probeNsc : Io (List NscReport) := gather (fun chip : NscChip => gather chip.tryAt chip.cfg) nscChips

/-! ### `findchip.c` -/

inductive Chipset where
  | smc
  | nsc
  | winbond
  deriving DecidableEq, Repr

def Chipset.chip : Chipset → List UInt8
  | .smc => ascii "SMC"
  | .nsc => ascii "NSC"
  | .winbond => ascii "WINBOND"

def Chipset.probe : Chipset → Io Unit
  | .smc => do let _ ← probeSmc; pure ()
  | .nsc => do let _ ← probeNsc; pure ()
  | .winbond => do let _ ← probeWinbond; pure ()

def allchips : List Chipset := [.smc, .nsc, .winbond]

def toLower (b : UInt8) : UInt8 := if 0x41 ≤ b ∧ b ≤ 0x5a then b + 0x20 else b

/-- `strcasecmp` finds no difference. -/
def sameName (a b : List UInt8) : Bool := a.map toLower == b.map toLower

/-- The probes that are called for the arguments behind the options: all of them without one,
else for each argument in turn those with its name. -/
def probesFor (args : List (List UInt8)) : List Chipset :=
  if args = [] then allchips else args.flatMap fun arg => allchips.filter fun c => sameName arg c.chip

/-- The loop over the arguments and the table. -/
def probeChips (args : List (List UInt8)) : Io Unit := (probesFor args).forM Chipset.probe

/-- `ioperm(0x0, 0x3ff, 1)` grants the 0x3ff ports from 0 on, so 0x3ff is not one of them. -/
def permitted (a : Access) : Bool := a.port < 0x3ff

/-- The accesses of the program. `granted` tells whether `ioperm` succeeds; an access to a port
that it has not granted ends the program with a signal. -/
def findchip (granted : Bool) (args : List (List UInt8)) (hw : Hardware) : List Access :=
  if granted then (probeChips args hw []).2.takeWhile permitted else []

end Findchip
