import IrdaUtils.Spec.Decoder

/-! `ircomm.c` -/

namespace Irdadump

def serviceTypePi : ℕ := 0x00
def portTypePi : ℕ := 0x01
def dataRatePi : ℕ := 0x10
def dataFormatPi : ℕ := 0x11
def flowControlPi : ℕ := 0x12
def xonXoffCharPi : ℕ := 0x13
def dtelineStatePi : ℕ := 0x20

/-- `t` when one of the bits of `mask` is set in `b`. -/
def whenBit (b mask : UInt8) (t : String) : String := if b &&& mask ≠ 0 then t else ""

def serviceTypeText (b : UInt8) : String :=
  "Service Type=" ++ whenBit b 0x08 "CENTRONICS " ++ whenBit b 0x04 "NINE_WIRE " ++
    whenBit b 0x02 "THREE_WIRE " ++ whenBit b 0x01 "THREE_WIRE_RAW " ++
    (if b &&& 0x0f = 0 then "N/A " else "")

def portTypeText (b : UInt8) : String :=
  "Port Type=" ++ whenBit b 0x01 "SERIAL " ++ whenBit b 0x02 "PARALLEL " ++
    (if b &&& 0x03 = 0 then "N/A " else "")

/-- The text of the parameter at offset `n`; unknown ones are skipped. -/
def ircommParamText (s : St) (n : ℕ) : String :=
  let pi := (s.byte n &&& 0x7f).toNat
  if pi = serviceTypePi then serviceTypeText (s.byte (n + 2))
  else if pi = portTypePi then portTypeText (s.byte (n + 2))
  else if pi = dataRatePi then s!"Data Rate={fmtInt32 (s.be32 (n + 2))} "
  else if pi = dataFormatPi then s!"Data Format={fmtX 2 (s.byte (n + 2)).toNat} "
  else if pi = flowControlPi then s!"Flow Control={fmtX 2 (s.byte (n + 2)).toNat} "
  else if pi = xonXoffCharPi then
    s!"XON/XOFF={fmtX 2 (s.byte (n + 2)).toNat},{fmtX 2 (s.byte (n + 3)).toNat} "
  else if pi = dtelineStatePi then s!"DTEline State={fmtX 2 (s.byte (n + 2)).toNat} "
  else ""

/-- The `while` loop of `parse_ircomm_params` from offset `n` on. -/
def ircommParamsLoop (clen : ℕ) (s : St) (n : ℕ) : St :=
  if n < clen then
    ircommParamsLoop clen (s.append (ircommParamText s n)) (n + ((s.byte (n + 1)).toNat + 2))
  else s
termination_by clen - n

def parseIrcommParams (clen : UInt8) (s : St) : St :=
  (ircommParamsLoop clen.toNat s 0).pull clen.toNat

def parseIrcommTtp (s : St) : St :=
  let s := s.enter .ircommTtp
  -- empty frames
  if s.buf.len = 0 then s
  else
    let clen := s.byte 0
    let s := s.pull 1
    if clen ≠ 0 then parseIrcommParams clen (s.append "\n\tIrCOMM ") else s.append "IrCOMM "

def parseIrcommConnect (s : St) : St := parseIrcommTtp (s.enter .ircommConnect)

def parseIrcommLmp (s : St) : St := (s.enter .ircommLmp).append "IrCOMM (IrLPT) "

end Irdadump
