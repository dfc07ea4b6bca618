import IrdaUtils.Spec.Ircomm
import IrdaUtils.Spec.Obex

/-! `irlmp.c`, with the connection table of `irlap.c` -/

namespace Irdadump

def connectCmd : UInt8 := 0x01
def connectRsp : UInt8 := 0x81
def disconnect : UInt8 := 0x02

def controlBit : UInt8 := 0x80
def lsapMask : UInt8 := 0x7f
def lsapAny : UInt8 := 0xff

def getInfoBase : UInt8 := 0x01
def getValueByClass : UInt8 := 0x04

def iasSuccess : UInt8 := 0x00
def iasClassUnknown : UInt8 := 0x01
def iasAttribUnknown : UInt8 := 0x02

def iasInteger : UInt8 := 1
def iasOctSeq : UInt8 := 2
def iasString : UInt8 := 3

/-! ### The connection table -/

def LsapState.hasPair (c : LsapState) (slsapSel dlsapSel : UInt8) : Bool :=
  c.slsapSel == slsapSel && c.dlsapSel == dlsapSel

/-- The linear search of `find_connection`; it does not look at `valid`. -/
def firstSlot (conn : Slot → LsapState) (slsapSel dlsapSel : UInt8) : Option Slot :=
  (List.finRange maxConnections).find? fun i => (conn i).hasPair slsapSel dlsapSel

/-- The answer of `find_connection`, which is also the new cache. -/
def findConnection (conn : Slot → LsapState) (connCache : Option Slot)
    (slsapSel dlsapSel : UInt8) : Option Slot :=
  match connCache with
  | some c => if (conn c).hasPair slsapSel dlsapSel then some c else firstSlot conn slsapSel dlsapSel
  | none => firstSlot conn slsapSel dlsapSel

def findFreeConnection (conn : Slot → LsapState) : Option Slot :=
  (List.finRange maxConnections).find? fun i => !(conn i).valid

def garbageConnection (conn : Slot → LsapState) (caddr : UInt8) : Slot → LsapState :=
  fun i => if (conn i).caddr = caddr then { conn i with valid := false } else conn i

/-- `find_connection` with the selectors in the order that `type` asks for, and the
slot that the caller goes on with. -/
def St.find (s : St) (type : ℤ) (slsapSel dlsapSel : UInt8) : Option Slot × St :=
  let i := if type ≠ 0 then findConnection s.dec.conn s.dec.connCache slsapSel dlsapSel
    else findConnection s.dec.conn s.dec.connCache dlsapSel slsapSel
  (i, (s.setCache i).pick (i.map s.dec.conn))

/-! ### IAS -/

/-- What a query leaves in `last_ias`: the selector is reset to undefined. -/
def iasLookup (name attr : List UInt8) : IasQuery where
  ttp := strstr attr "TinyTP"
  lsapSel := lsapAny
  obex := strstr name "OBEX"
  ircomm := strstr name "IrCOMM" || strstr name "IrLPT"
  irnet := strstr name "IrNet"

def parseIriapCommand (s : St) : St :=
  let s := s.enter .iriapCommand
  let opcode := s.byte 0 &&& ~~~0x80
  if opcode = getInfoBase ∨ opcode = getValueByClass then
    let nameLen := (s.byte 1).toNat
    let name := s.copy 2 nameLen
    let attrLen := (s.byte (2 + nameLen)).toNat
    let attr := s.copy (3 + nameLen) attrLen
    let s := s.append ("GET_VALUE_BY_CLASS: \"" ++ cString name ++ "\" \"" ++ cString attr ++ "\" ")
    s.setIas (iasLookup name attr)
  else s

/-- The character set of a string value is read and makes no difference. -/
def parseIriasValue (s : St) : St :=
  let type := s.byte 4
  if type = iasInteger then
    let value := s.be32 5
    let s := s.append s!"Integer: {fmtX 2 value} "
    s.setIas { s.dec.lastIas with lsapSel := UInt8.ofNat value }
  else if type = iasString then
    let valueLen := (s.byte 6).toNat
    s.append ("String: " ++ cString (s.copy 7 valueLen) ++ " ")
  else if type = iasOctSeq then
    let valueLen := s.be16 5
    let s := s.pull 7
    if s.dec.lastIas.ircomm then
      let s := s.append "\n\tIrCOMM Parameters "
      parseIrcommParams (UInt8.ofNat valueLen) (s.enter .ircommParams)
    else s.append "N/A "
  else s.print "parse_irias_value() Unknown IAS value type! "

def parseIriapResponse (s : St) : St :=
  let s := s.enter .iriapResponse
  let opcode := s.byte 0 &&& ~~~0x80
  let rsp := s.byte 1
  let s := s.pull 2
  let s :=
    if opcode = getInfoBase then
      s.print "parse_iriap_response() Sorry, GET_INFO_BASE not implemented!\n"
    else if opcode = getValueByClass then s.append "GET_VALUE_BY_CLASS: "
    else s.print "parse_iriap_response() Sorry, not implemented!\n"
  if rsp = iasSuccess then parseIriasValue (s.append "Success ")
  else if rsp = iasClassUnknown then s.append "No such class "
  else if rsp = iasAttribUnknown then s.append "No such attribute "
  else s.append "Unknown response code "

/-! ### IrNET and TinyTP -/

def parseIrnet (s : St) : St := (s.enter .irnet).append "IrNET "

def parseIrttp (s : St) : St :=
  let s := s.enter .irttp
  let s := s.append s!"TTP credits={(s.byte 0 &&& 0x7f).toNat} "
  let s := if s.byte 0 &&& 0x80 ≠ 0 then s.append "More " else s
  s.pull 1

def parseIrttpConnect (s : St) : St :=
  let s := s.enter .irttpConnect
  let s := s.append s!"TTP credits={(s.byte 0 &&& 0x7f).toNat} "
  let s :=
    if s.byte 0 &&& 0x80 ≠ 0 then
      let plen := (s.byte 1).toNat
      let tmpCpu := s.be16 4
      (s.pull plen).append s!"MaxSduSize={tmpCpu} "
    else s
  s.pull 1

/-! ### LM frames -/

/-- The parsers of a connect frame on a known connection. -/
def connectParsers (c : LsapState) (s : St) : St :=
  let s := if c.ttp then parseIrttpConnect s else s
  let s := if c.ircomm then parseIrcommConnect s else s
  if c.irnet then parseIrnet s else s

/-- The slot that a `CONNECT_CMD` fills. -/
def newConnection (q : IasQuery) (caddr : UInt8) (type : ℤ) (slsapSel dlsapSel : UInt8) :
    LsapState where
  valid := true
  caddr := caddr
  slsapSel := if type ≠ 0 then slsapSel else dlsapSel
  dlsapSel := if type ≠ 0 then dlsapSel else slsapSel
  ttp := q.ttp
  obex := q.obex
  ircomm := q.ircomm
  irnet := q.irnet

def lmConnectCmd (env : Env) (s : St) (caddr : UInt8) (type : ℤ) (slsapSel dlsapSel : UInt8) :
    St :=
  let s := s.append "CONN_CMD "
  if dlsapSel = s.dec.lastIas.lsapSel then
    match findFreeConnection s.dec.conn with
    | none => s.print "No more space for connection!\n"
    | some i =>
      let c := newConnection s.dec.lastIas caddr type slsapSel dlsapSel
      connectParsers c ((s.setConn i c).pick (some c))
  else if env.cfg.forceTtp ∧ dlsapSel ≠ 0x00 then parseIrttpConnect (s.pick none)
  else s.pick none

def lmConnectRsp (env : Env) (s : St) (type : ℤ) (slsapSel dlsapSel : UInt8) : St :=
  let s := s.append "CONN_RSP "
  match s.find type slsapSel dlsapSel with
  | (some i, s) => connectParsers (s.dec.conn i) s
  | (none, s) => if env.cfg.forceTtp ∧ slsapSel ≠ 0x00 then parseIrttpConnect s else s

def lmDisconnect (s : St) (type : ℤ) (slsapSel dlsapSel : UInt8) : St :=
  let s := s.append "DISC "
  match s.find type slsapSel dlsapSel with
  | (some i, s) => s.setConn i { s.dec.conn i with valid := false }
  | (none, s) => s

/-- The parsers of a data frame on the slot that was found. -/
def dataParsers (env : Env) (c : LsapState) (cmd : UInt8) (s : St) : St :=
  let s := if c.valid ∧ c.ttp then parseIrttp s else s
  let s := if c.valid ∧ c.obex then parseObex env s cmd else s
  let s := if c.valid ∧ c.ircomm then (if c.ttp then parseIrcommTtp s else parseIrcommLmp s) else s
  if c.valid ∧ c.irnet then parseIrnet s else s

def lmData (env : Env) (s : St) (type : ℤ) (cmd slsapSel dlsapSel : UInt8) : St :=
  let s := if dlsapSel = 0x00 then parseIriapCommand s
    else if slsapSel = 0x00 then parseIriapResponse s else s
  match s.find type slsapSel dlsapSel with
  | (some i, s) => dataParsers env (s.dec.conn i) cmd s
  | (none, s) =>
    if dlsapSel ≠ 0x00 ∧ slsapSel ≠ 0x00 ∧ env.cfg.forceTtp then parseIrttp s else s

def parseIrlmp (env : Env) (s : St) (caddr : UInt8) (type : ℤ) (cmd : UInt8) : St :=
  let ctrl := s.byte 0 &&& controlBit
  let dlsapSel := s.byte 0 &&& lsapMask
  let slsapSel := s.byte 1
  let s := s.pull 2
  let s := s.append s!"LM slsap={fmtX 2 slsapSel.toNat} dlsap={fmtX 2 dlsapSel.toNat} "
  if ctrl ≠ 0 then
    let ctrl := s.byte 0
    let s := s.pull 2
    if ctrl = connectCmd then lmConnectCmd env s caddr type slsapSel dlsapSel
    else if ctrl = connectRsp then lmConnectRsp env s type slsapSel dlsapSel
    else if ctrl = disconnect then lmDisconnect s type slsapSel dlsapSel
    else s
  else lmData env s type cmd slsapSel dlsapSel

def parseUiIrlmp (env : Env) (s : St) : St :=
  let dlsapSel := s.byte 0 &&& lsapMask
  let slsapSel := s.byte 1
  let s := s.pull 2
  let s := s.append s!"LM slsap={fmtX 2 slsapSel.toNat} dlsap={fmtX 2 dlsapSel.toNat} "
  if slsapSel = 0x70 ∧ dlsapSel = 0x70 then
    let upid := s.byte 0 &&& 0x7f
    let s := s.pull 1
    let s := s.append s!" Ultra-PID={fmtX 2 upid.toNat} "
    -- OBEX over Ultra has no connection and is always a command
    if upid = 0x01 then parseObex env (s.pull 1) 1 else s
  else s

end Irdadump
