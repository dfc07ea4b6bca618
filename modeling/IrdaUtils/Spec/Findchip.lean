import IrdaUtils.Lib.PortIo

/-! The SMC and Winbond probes of `findchip`, as programs over the I/O ports. The values that
only `print_info` shows are read and dropped. The base of the FIR part is an `int` with at
most 16 bits, and a port that is computed from it is cut to 16 bits by `outb` and `inb`. -/

namespace Findchip

open PortIo

/-! ### `smc.c` -/

def irccMaster : UInt16 := 0x07
def irccChipId : UInt16 := 0x02
def irccVersion : UInt16 := 0x03

def smcDisconf : UInt8 := 0xaa

/-- A configuration register of the chip at `confreg`. -/
def readReg (confreg : UInt16) (reg : UInt8) : Io UInt8 := do
  outb reg confreg
  inb (confreg + 1)

def registerBank (port : UInt16) (bank : UInt8) : Io Unit := do
  let v ← inb (port + irccMaster)
  outb (v &&& 0xf0 ||| bank &&& 0x07) (port + irccMaster)

/-- The registers of the FIR part, when there is one. -/
def readFir (confreg : UInt16) (delayReg : UInt8) (fir : UInt16) : Io Unit := do
  let _ ← readReg confreg delayReg
  registerBank fir 3
  let _ ← inb (fir + irccChipId)
  let _ ← inb (fir + irccVersion)
  pure ()

def probe69 (confreg : UInt16) : Io ℕ := do
  let _ ← readReg confreg 0x25
  let _ ← readReg confreg 0x2c
  let _ ← readReg confreg 0x28
  let fir ← readReg confreg 0x2b
  let fir := fir.toUInt16 <<< 3
  if fir ≠ 0 then readFir confreg 0x2d fir
  let _ ← readReg confreg 0x02
  pure fir.toNat

def probe58 (confreg : UInt16) : Io ℕ := do
  outb 0x07 confreg
  outb 0x05 (confreg + 1)
  let _ ← readReg confreg 0x60
  let _ ← readReg confreg 0x61
  let _ ← readReg confreg 0x74
  let _ ← readReg confreg 0x70
  let high ← readReg confreg 0x62
  let low ← readReg confreg 0x63
  let fir := high.toUInt16 <<< 8 ||| low.toUInt16
  if fir ≠ 0 then readFir confreg 0xf2 fir
  let _ ← readReg confreg 0x22
  pure fir.toNat

structure SmcChipInfo where
  name : String
  cfg : List UInt16
  entr1 : UInt8
  entr2 : UInt8
  cidIndex : UInt8
  cidValue : UInt8
  probe : UInt16 → Io ℕ

def smcChips : List SmcChipInfo :=
  [⟨"FDC37C669", [0x3f0, 0x370], 0x55, 0x55, 0x0d, 0x03, probe69⟩,
    ⟨"FDC37C669FR", [0x3f0, 0x370], 0x55, 0x55, 0x0d, 0x04, probe69⟩,
    ⟨"FDC37N869", [0x3f0, 0x370], 0x55, 0x00, 0x0d, 0x29, probe69⟩,
    ⟨"FDC37C93xFR", [0x3f0, 0x370], 0x55, 0x55, 0x20, 0x03, probe58⟩,
    ⟨"FDC37N957FR", [0x3f0, 0x370], 0x55, 0x55, 0x20, 0x07, probe58⟩,
    ⟨"FDC37N958FR", [0x3f0, 0x370], 0x55, 0x55, 0x20, 0x09, probe58⟩]

/-- The keys of the chip at one of its two ports. -/
def SmcChipInfo.entry (chp : SmcChipInfo) (cfg : UInt16) : Entry where
  port := cfg
  keys := chp.entr1 :: if chp.entr2 ≠ 0 then [chp.entr2] else []
  exitKey := smcDisconf

/-- Between the keys: the chip is asked for its id and probed if it is the right one. -/
def SmcChipInfo.identify (chp : SmcChipInfo) (cfg : UInt16) : Io ℕ := do
  let devid ← readReg cfg chp.cidIndex
  if devid = chp.cidValue then chp.probe cfg else pure 0

/-- The inner and the outer loop both end with the first chip that is found. -/
def probeSmc : Io ℕ := do
  let _ ← whileZero (fun chp : SmcChipInfo =>
    whileZero (fun cfg => session (chp.entry cfg) (chp.identify cfg)) chp.cfg 0) smcChips 0
  pure 0

/-! ### `winbond.c` -/

inductive WinbondType where
  | w83977
  | w83877
  deriving DecidableEq, Repr

/-- The ids of the known chips. -/
def winbondChips : List UInt8 := [0x73, 0x74, 0x0b, 0x0c, 0x0d]

/-- A bit of a register, and the value that it should have. -/
structure BitCheck where
  index : UInt8
  mask : UInt8
  value : Bool
  deriving DecidableEq, Repr

/-- `hefere` is `none` where the table has `NOT_EXIST`. -/
structure WinbondEfer where
  chipType : WinbondType
  eferAddr : UInt16
  writes : ℕ
  startFlag : UInt8
  endFlag : UInt8
  efirAddr : UInt16
  efdrAddr : UInt16
  hefras : BitCheck
  hefere : Option BitCheck
  deriving DecidableEq, Repr

def efers : List WinbondEfer :=
  [⟨.w83977, 0x3f0, 2, 0x87, 0xaa, 0x3f0, 0x3f1, ⟨0x26, 0x40, false⟩, none⟩,
    ⟨.w83977, 0x370, 2, 0x87, 0xaa, 0x370, 0x371, ⟨0x26, 0x40, true⟩, none⟩,
    ⟨.w83877, 0x250, 1, 0x88, 0x88, 0x251, 0x252, ⟨0x16, 0x01, false⟩, some ⟨0x0c, 0x20, false⟩⟩,
    ⟨.w83877, 0x250, 1, 0x89, 0x89, 0x251, 0x252, ⟨0x16, 0x01, false⟩, some ⟨0x0c, 0x20, true⟩⟩,
    ⟨.w83877, 0x3f0, 2, 0x86, 0xaa, 0x3f0, 0x3f1, ⟨0x16, 0x01, true⟩, some ⟨0x0c, 0x20, false⟩⟩,
    ⟨.w83877, 0x3f0, 2, 0x87, 0xaa, 0x3f0, 0x3f1, ⟨0x16, 0x01, true⟩, some ⟨0x0c, 0x20, true⟩⟩]

def WinbondEfer.reg (e : WinbondEfer) (index : UInt8) : Io UInt8 := do
  outb index e.efirAddr
  inb e.efdrAddr

def w83977ReadInfo (e : WinbondEfer) : Io ℕ := do
  let devid ← e.reg 0x20
  let revision ← e.reg 0x21
  if devid ≠ 0x97 then pure 0
  else if revision ∉ winbondChips then pure 0
  else do
    outb 0x07 e.efirAddr
    outb 0x06 e.efdrAddr
    let _ ← e.reg 0x74
    let _ ← e.reg 0x75
    let _ ← e.reg 0x70
    let _ ← e.reg 0x60
    let _ ← e.reg 0x61
    let _ ← e.reg 0xf0
    pure 1

def w83877ReadInfo (e : WinbondEfer) : Io ℕ := do
  let chipid ← e.reg 0x09
  if chipid &&& 0x0f ∉ winbondChips then pure 0
  else do
    let _ ← e.reg 0x2a
    let _ ← e.reg 0x28
    let _ ← e.reg 0x25
    let _ ← e.reg 0x0b
    let _ ← e.reg 0x0c
    let _ ← e.reg 0x0d
    let _ ← e.reg 0x2c
    pure 1

def WinbondEfer.readInfo (e : WinbondEfer) : Io ℕ :=
  match e.chipType with
  | .w83877 => w83877ReadInfo e
  | .w83977 => w83977ReadInfo e

def WinbondEfer.check (e : WinbondEfer) (c : BitCheck) : Io Bool := do
  let v ← e.reg c.index
  pure (decide (v &&& c.mask ≠ 0) == c.value)

def WinbondEfer.entry (e : WinbondEfer) : Entry where
  port := e.eferAddr
  keys := List.replicate e.writes e.startFlag
  exitKey := e.endFlag

/-- Between the keys; a check that fails goes to `skip`. -/
def WinbondEfer.identify (e : WinbondEfer) : Io ℕ := do
  if ← e.check e.hefras then
    match e.hefere with
    | none => e.readInfo
    | some c => if ← e.check c then e.readInfo else pure 0
  else pure 0

def probeWinbond : Io ℕ := do
  let _ ← whileZero (fun e : WinbondEfer => session e.entry e.identify) efers 0
  pure 0

end Findchip
