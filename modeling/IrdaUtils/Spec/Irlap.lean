import IrdaUtils.Spec.Irlmp

/-! `irlap.c` -/

namespace Irdadump

def cmdFrame : UInt8 := 0x01
def cbroadcast : UInt8 := 0xfe
def pfBit : UInt8 := 0x10

def snrmCmd : UInt8 := 0x83
def discCmd : UInt8 := 0x43
def xidCmd : UInt8 := 0x2f
def testCmd : UInt8 := 0xe3
def uaRsp : UInt8 := 0x63
def frmrRsp : UInt8 := 0x87
def dmRsp : UInt8 := 0x0f
def xidRsp : UInt8 := 0xaf
def uiFrame : UInt8 := 0x03

def rr : UInt8 := 0x01
def rej : UInt8 := 0x09
def rnr : UInt8 := 0x05
def srej : UInt8 := 0x0d

/-! ### QoS parameters -/

def minTurnTimes : List ℕ := [10000, 5000, 1000, 500, 100, 50, 10, 0]
def baudRates : List ℕ :=
  [2400, 9600, 19200, 38400, 57600, 115200, 576000, 1152000, 4000000, 16000000]
def dataSizes : List ℕ := [64, 128, 256, 512, 1024, 2048]
def addBofs : List ℕ := [48, 24, 12, 5, 3, 2, 1, 0]
def maxTurnTimes : List ℕ := [500, 250, 100, 50]
def linkDiscTimes : List ℕ := [3, 8, 12, 16, 20, 25, 30, 40]
def windowSizes : List ℕ := [1, 2, 3, 4, 5, 6, 7, 0]

def indexValue (env : Env) (bitIndex : ℕ) (array : List ℕ) : ℕ :=
  array.getD bitIndex (env.beyond array bitIndex)

/-- The `while` loop of `msb_index` from `bitIndex` down. -/
def msbLoop (word : ℕ) : ℕ → ℕ
  | 0 => 0
  | bitIndex + 1 => if word.testBit (bitIndex + 1) then bitIndex + 1 else msbLoop word bitIndex

/-- A zero word is taken for `1`. -/
def msbIndex (word : ℕ) : ℕ := msbLoop (if word = 0 then 1 else word) 15

def byteValue (env : Env) (byte : ℕ) (array : List ℕ) : ℕ := indexValue env (msbIndex byte) array

def piBaudRate : ℕ := 0x01
def piMaxTurnTime : ℕ := 0x02
def piDataSize : ℕ := 0x03
def piWindowSize : ℕ := 0x04
def piAddBofs : ℕ := 0x05
def piMinTurnTime : ℕ := 0x06
def piLinkDisc : ℕ := 0x08

/-- The label, table and unit of the parameters whose value is one byte. -/
def qosTable (pi : ℕ) : Option (String × List ℕ × String) :=
  if pi = piMaxTurnTime then some ("Max Turn Time=", maxTurnTimes, "ms ")
  else if pi = piDataSize then some ("Data Size=", dataSizes, "B ")
  else if pi = piWindowSize then some ("Window Size=", windowSizes, " ")
  else if pi = piAddBofs then some ("Add BOFS=", addBofs, " ")
  else if pi = piMinTurnTime then some ("Min Turn Time=", minTurnTimes, "us ")
  else if pi = piLinkDisc then some ("Link Disc=", linkDiscTimes, "s ")
  else none

/-- One looked up value, with the warning of `msb_index` for a zero byte. -/
def appendQos (env : Env) (s : St) (label : String) (pv : ℕ) (array : List ℕ) (unit : String) :
    St :=
  let s := if pv = 0 then s.print "Detected buggy peer, adjust null PV to 0x1!\n" else s
  s.append (label ++ fmtInt32 (byteValue env pv array) ++ unit)

/-- The parameter at offset `n`. -/
def irlapParam (env : Env) (s : St) (n : ℕ) : St :=
  let pi := (s.byte n &&& 0x7f).toNat
  let pl := (s.byte (n + 1)).toNat
  let pvByte := (s.byte (n + 2)).toNat
  if pi = piBaudRate then
    let pvByte := if 2 ≤ pl then pvByte + (s.byte (n + 3)).toNat * 256 else pvByte
    appendQos env s "Baud Rate=" pvByte baudRates "bps "
  else
    match qosTable pi with
    | some (label, array, unit) => appendQos env s label pvByte array unit
    | none => s

/-- The `while` loop of `parse_irlap_params` from offset `n` on. -/
def irlapParamsLoop (env : Env) (clen : ℕ) (s : St) (n : ℕ) : St :=
  if n < clen then
    irlapParamsLoop env clen (irlapParam env s n) (n + ((s.byte (n + 1)).toNat + 2))
  else s
termination_by clen - n

def parseIrlapParams (env : Env) (clen : UInt8) (s : St) : St :=
  let s := s.append "\n\tLAP QoS: "
  (irlapParamsLoop env clen.toNat s 0).pull clen.toNat

/-! ### Frames -/

def hintText (hint0 hint1 : UInt8) : String :=
  "[ " ++ whenBit hint0 0x01 "PnP " ++ whenBit hint0 0x02 "PDA/Palmtop " ++
    whenBit hint0 0x04 "Computer " ++ whenBit hint0 0x08 "Printer " ++
    whenBit hint0 0x10 "Modem " ++ whenBit hint0 0x20 "Fax " ++
    whenBit hint0 0x40 "LAN Access " ++ whenBit hint1 0x01 "Telephony " ++
    whenBit hint1 0x02 "File Server " ++ whenBit hint1 0x04 "IrCOMM " ++
    whenBit hint1 0x20 "IrOBEX " ++ "] "

def cmdText (cmd : UInt8) : String := if cmd ≠ 0 then "cmd" else "rsp"

def dirText (type : ℤ) : String := if type ≠ 0 then ">" else "<"

/-- The number of discovery slots. -/
def xidSlots (flags : UInt8) : ℕ :=
  if flags = 0x00 then 1
  else if flags = 0x01 then 6
  else if flags = 0x02 then 8
  else if flags = 0x03 then 16
  else 0

/-- The last discovery command and every response carry discovery information. -/
def xidHasInfo (command slotnr : UInt8) : Bool := slotnr == 0xff || command == 0

/-- The device information: the string is ended at the end of the frame first. -/
def parseXidInfo (env : Env) (s : St) : St × String :=
  let hint0 := s.byte 14
  let hint1 := if hint0 &&& 0x80 ≠ 0 then s.byte 15 else 0
  let info := if hint0 &&& 0x80 ≠ 0 then 17 else 16
  let s := s.poke s.buf.len 0
  (s, s.stringAt env info ++ s!" hint={fmtX 2 hint0.toNat}{fmtX 2 hint1.toNat} " ++
    hintText hint0 hint1)

def parseXidFrame (env : Env) (command : UInt8) (type : ℤ) (s : St) : St :=
  let saddr := s.le32 3
  let daddr := s.le32 7
  let slots := xidSlots (s.byte 11)
  let slotnr := s.byte 12
  let r := if xidHasInfo command slotnr then parseXidInfo env s else (s, "")
  let s := r.1
  let s :=
    if type ≠ 0 then
      s.append s!"xid:{cmdText command} {fmtX 8 saddr} > {fmtX 8 daddr} S={slots} "
    else s.append s!"xid:{cmdText command} {fmtX 8 daddr} < {fmtX 8 saddr} S={slots} "
  let s := if slotnr = 0xff then s.append "s=* " else s.append s!"s={slotnr.toNat} "
  s.append r.2

/-- The note on `n` frames that `nr` says were not received. -/
def lostText (ns nr : ℤ) : String :=
  if nr ≠ (ns + 1) % 8 then
    s!"** {if nr < ns + 1 then ns + 1 - nr else ns + 9 - nr} frame(s) lost ** "
  else ""

/-- Sequence numbers of an I frame. The two retransmission notes differ by a blank. -/
def trackI (type nr ns : ℤ) (s : St) : St :=
  let d := s.dec
  if type ≠ 0 then
    let s := s.append (lostText d.peerNs nr)
    let s := if ns ≠ (d.selfNs + 1) % 8 then s.append "** retransmit ** " else s
    { s with dec := { d with selfNr := nr, selfNs := ns } }
  else
    let s := s.append (lostText d.selfNs nr)
    let s := if ns ≠ (d.peerNs + 1) % 8 then s.append "** retransmit **" else s
    { s with dec := { d with peerNr := nr, peerNs := ns } }

def parseIFrame (env : Env) (caddr cmd pf : UInt8) (type : ℤ) (s : St) : St :=
  let nr := (s.byte 1 >>> 5).toNat
  let ns := ((s.byte 1 >>> 1) &&& 0x07).toNat
  let s := s.pull 2
  let s := s.append (s!"i:{cmdText cmd}  {dirText type} ca={fmtX 2 caddr.toNat} pf={pf.toNat} " ++
    s!"nr={nr} ns={ns} ")
  let s := if env.cfg.printIrlmp then parseIrlmp env s caddr type cmd else s
  if env.cfg.printLostFrames then trackI type nr ns s else s

def parseUiFrame (env : Env) (caddr cmd pf : UInt8) (type : ℤ) (s : St) : St :=
  let s := s.pull 2
  let s := s.append s!"ui:{cmdText cmd} {dirText type} ca={fmtX 2 caddr.toNat} pf={pf.toNat}  "
  if env.cfg.printIrlmp then parseUiIrlmp env s else s

/-- The arguments are not in the order of the format: `ctrl` is printed after `pf=`,
`nr` after `ctrl=` and `pf` after `nr=`. -/
def parseFrmrFrame (caddr cmd pf : UInt8) (type : ℤ) (s : St) : St :=
  let ctrl := s.byte 1
  let nr := (s.byte 2 >>> 5).toNat
  let ns := ((s.byte 2 >>> 1) &&& 0x07).toNat
  s.append (s!"frmr:{cmdText cmd}  {dirText type} ca={fmtX 2 caddr.toNat} pf={ctrl.toNat} " ++
    s!"ctrl={fmtX 2 nr}, nr={pf.toNat} ns={ns} ")

/-- The line of a supervisory frame. -/
def appendSFrame (name : String) (caddr cmd pf : UInt8) (type : ℤ) (s : St) : St :=
  let nr := (s.byte 1 >>> 5).toNat
  s.append (name ++ s!":{cmdText cmd} {dirText type} ca={fmtX 2 caddr.toNat} pf={pf.toNat} nr={nr} ")

def trackRr (type nr : ℤ) (s : St) : St :=
  let d := s.dec
  if type ≠ 0 then
    let s := s.append (lostText d.peerNs nr)
    { s with dec := { d with selfNr := nr } }
  else
    let s := s.append (lostText d.selfNs nr)
    { s with dec := { d with peerNr := nr } }

def parseRrFrame (env : Env) (caddr cmd pf : UInt8) (type : ℤ) (s : St) : St :=
  let nr := (s.byte 1 >>> 5).toNat
  let s := appendSFrame "rr" caddr cmd pf type s
  if env.cfg.printLostFrames then trackRr type nr s else s

def parseRnrFrame (caddr cmd pf : UInt8) (type : ℤ) (s : St) : St :=
  appendSFrame "rnr" caddr cmd pf type s

def parseRejFrame (caddr cmd pf : UInt8) (type : ℤ) (s : St) : St :=
  appendSFrame "rej" caddr cmd pf type s

def parseSrejFrame (caddr cmd pf : UInt8) (type : ℤ) (s : St) : St :=
  appendSFrame "srej" caddr cmd pf type s

/-- The information field of `UA` and `SNRM` after the fixed part of `n` bytes; its
length is passed on in eight bits. -/
def parseIField (env : Env) (n : ℕ) (s : St) : St :=
  let s := s.pull n
  if s.buf.len ≠ 0 then parseIrlapParams env (UInt8.ofNat s.buf.len) s else s

def parseUaFrame (env : Env) (caddr cmd pf : UInt8) (type : ℤ) (s : St) : St :=
  let saddr := s.le32 2
  let daddr := s.le32 6
  let pre := s!"ua:{cmdText cmd} ca={fmtX 2 caddr.toNat} pf={pf.toNat} "
  let s :=
    if type ≠ 0 then s.append (pre ++ s!"{fmtX 8 saddr} > {fmtX 8 daddr} ")
    else s.append (pre ++ s!"{fmtX 8 daddr} < {fmtX 8 saddr} ")
  parseIField env 10 s

/-- The line of `DISC`, `DM` and `RD`. -/
def appendUFrame (name : String) (caddr cmd pf : UInt8) (type : ℤ) (s : St) : St :=
  s.append (name ++ s!":{cmdText cmd} {dirText type} ca={fmtAltX 2 caddr.toNat} pf={pf.toNat} ")

def parseDiscFrame (caddr cmd pf : UInt8) (type : ℤ) (s : St) : St :=
  let s := appendUFrame "disc" caddr cmd pf type s
  { s with dec := { s.dec with conn := garbageConnection s.dec.conn caddr } }

def parseDmFrame (caddr cmd pf : UInt8) (type : ℤ) (s : St) : St :=
  appendUFrame "dm" caddr cmd pf type s

def parseRdFrame (caddr cmd pf : UInt8) (type : ℤ) (s : St) : St :=
  appendUFrame "rd" caddr cmd pf type s

def parseTestFrame (caddr cmd pf : UInt8) (type : ℤ) (s : St) : St :=
  let saddr := s.le32 2
  let daddr := s.le32 6
  s.append (s!"test:{cmdText cmd} ca={fmtAltX 2 caddr.toNat} pf={pf.toNat} " ++
    s!"{fmtX 8 saddr} {dirText type} {fmtX 8 daddr} ")

def parseSnrmFrame (env : Env) (caddr cmd pf : UInt8) (type : ℤ) (s : St) : St :=
  let saddr := s.le32 2
  let daddr := s.le32 6
  let newCaddr := s.byte 10
  let pre := s!"snrm:{cmdText cmd} ca={fmtX 2 caddr.toNat} pf={pf.toNat} "
  let s :=
    if type ≠ 0 then
      s.append (pre ++ s!"{fmtX 8 saddr} > {fmtX 8 daddr} new-ca={fmtX 2 newCaddr.toNat} ")
    else s.append (pre ++ s!"{fmtX 8 daddr} < {fmtX 8 saddr} new-ca={fmtX 2 newCaddr.toNat} ")
  parseIField env 11 s

def parseRnrmFrame (caddr cmd pf : UInt8) (type : ℤ) (s : St) : St :=
  let saddr := s.le32 2
  let daddr := s.le32 6
  s.append (s!"snrm:{cmdText cmd} ca={fmtX 2 caddr.toNat} pf={pf.toNat} " ++
    s!"{fmtX 8 saddr} {dirText type} {fmtX 8 daddr} ")

def parseSFrame (env : Env) (caddr cmd pf ctrl : UInt8) (type : ℤ) (s : St) : St :=
  let kind := ctrl &&& 0x0f
  if kind = rr then parseRrFrame env caddr cmd pf type s
  else if kind = rnr then parseRnrFrame caddr cmd pf type s
  else if kind = rej then parseRejFrame caddr cmd pf type s
  else if kind = srej then parseSrejFrame caddr cmd pf type s
  else s.append s!"Unknown S frame {fmtX 2 ctrl.toNat} received!\n"

def parseUFrame (env : Env) (caddr cmd pf ctrl : UInt8) (type : ℤ) (s : St) : St :=
  if ctrl = xidRsp ∨ ctrl = xidCmd then parseXidFrame env cmd type s
  else if ctrl = snrmCmd then
    if cmd ≠ 0 then parseSnrmFrame env caddr cmd pf type s else parseRnrmFrame caddr cmd pf type s
  else if ctrl = dmRsp then parseDmFrame caddr cmd pf type s
  else if ctrl = discCmd then
    if cmd ≠ 0 then parseDiscFrame caddr cmd pf type s else parseRdFrame caddr cmd pf type s
  else if ctrl = testCmd then parseTestFrame caddr cmd pf type s
  else if ctrl = uaRsp then parseUaFrame env caddr cmd pf type s
  else if ctrl = frmrRsp then parseFrmrFrame caddr cmd pf type s
  else if ctrl = uiFrame then parseUiFrame env caddr cmd pf type s
  else s.append s!"Unknown frame {fmtX 2 ctrl.toNat} received!\n"

def parseIrlapFrame (env : Env) (type : ℤ) (s : St) : St :=
  let cmd := s.byte 0 &&& cmdFrame
  let caddr := s.byte 0 &&& cbroadcast
  let pf := (s.byte 1 &&& pfBit) >>> 4
  let ctrl := s.byte 1 &&& ~~~pfBit
  -- only I frames have bit 0 clear, and only S frames bit 0 set and bit 1 clear
  if ctrl &&& 0x01 = 0 then parseIFrame env caddr cmd pf type s
  else if ctrl &&& 0x02 = 0 then parseSFrame env caddr cmd pf ctrl type s
  else parseUFrame env caddr cmd pf ctrl type s

end Irdadump
