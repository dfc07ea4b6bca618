import IrdaUtils.Spec.Irlap

/-! Connection tracking, apart from the text: what a frame is to the connection table
and to `last_ias` (`Pdu`), and what it does to them (`trackStep`). The decoder is
compared with this machine in `Sanity/Tracking`. -/

namespace Irdadump

/-- The part of the decoder's variables that decides which parsers are called. -/
structure Tracker where
  conn : Slot → LsapState
  connCache : Option Slot
  lastIas : IasQuery

/-- The protocols of a connection. -/
structure Flags where
  ttp : Bool
  obex : Bool
  ircomm : Bool
  irnet : Bool
  deriving DecidableEq, Repr

def LsapState.flags (c : LsapState) : Flags := ⟨c.ttp, c.obex, c.ircomm, c.irnet⟩
def IasQuery.flags (q : IasQuery) : Flags := ⟨q.ttp, q.obex, q.ircomm, q.irnet⟩

def Decoder.tracker (d : Decoder) : Tracker := ⟨d.conn, d.connCache, d.lastIas⟩

inductive IasValue where
  | integer (lsapSel : UInt8)
  | octSeq
  | other
  deriving DecidableEq, Repr

/-- What a data frame says to or for the information service. -/
inductive IasOp where
  | none
  | query (q : Option IasQuery)
  | response (v : IasValue)
  deriving DecidableEq, Repr

inductive LmOp where
  | connectCmd
  | connectRsp
  | disconnect
  | control
  | data (ias : IasOp)
  deriving DecidableEq, Repr

/-- The addresses of an LM frame. -/
structure LmHead where
  caddr : UInt8
  type : ℤ
  slsapSel : UInt8
  dlsapSel : UInt8
  deriving DecidableEq, Repr

/-- The selectors in the order in which the table has them, whatever the direction. -/
def LmHead.pair (h : LmHead) : UInt8 × UInt8 :=
  if h.type ≠ 0 then (h.slsapSel, h.dlsapSel) else (h.dlsapSel, h.slsapSel)

inductive Pdu where
  | lapDisc (caddr : UInt8)
  | lm (h : LmHead) (op : LmOp)
  | ultraObex
  | other
  deriving DecidableEq, Repr

/-! ### Reading a frame -/

def queryOf (s : St) : Option IasQuery :=
  let opcode := s.byte 0 &&& ~~~0x80
  if opcode = getInfoBase ∨ opcode = getValueByClass then
    let nameLen := (s.byte 1).toNat
    some (iasLookup (s.copy 2 nameLen) (s.copy (3 + nameLen) (s.byte (2 + nameLen)).toNat))
  else none

def valueOf (s : St) : IasValue :=
  let type := s.byte 4
  if type = iasInteger then .integer (UInt8.ofNat (s.be32 5))
  else if type = iasOctSeq then .octSeq
  else .other

def responseOf (s : St) : IasValue :=
  if s.byte 1 = iasSuccess then valueOf (s.pull 2) else .other

/-- `s` stands behind the LM header. -/
def iasOf (s : St) (slsapSel dlsapSel : UInt8) : IasOp :=
  if dlsapSel = 0x00 then .query (queryOf s)
  else if slsapSel = 0x00 then .response (responseOf s)
  else .none

def controlOf (ctrl : UInt8) : LmOp :=
  if ctrl = connectCmd then .connectCmd
  else if ctrl = connectRsp then .connectRsp
  else if ctrl = disconnect then .disconnect
  else .control

/-- `s` stands behind the LAP header. -/
def lmOf (s : St) (caddr : UInt8) (type : ℤ) : Pdu :=
  let dlsapSel := s.byte 0 &&& lsapMask
  let slsapSel := s.byte 1
  let op :=
    if s.byte 0 &&& controlBit ≠ 0 then controlOf ((s.pull 2).byte 0)
    else .data (iasOf (s.pull 2) slsapSel dlsapSel)
  .lm ⟨caddr, type, slsapSel, dlsapSel⟩ op

def uiOf (s : St) : Pdu :=
  if s.byte 1 = 0x70 ∧ s.byte 0 &&& lsapMask = 0x70 ∧ (s.pull 2).byte 0 &&& 0x7f = 0x01 then
    .ultraObex
  else .other

def pduOf (cfg : Config) (type : ℤ) (s : St) : Pdu :=
  let caddr := s.byte 0 &&& cbroadcast
  let ctrl := s.byte 1 &&& ~~~pfBit
  if ctrl &&& 0x01 = 0 then
    if cfg.printIrlmp then lmOf (s.pull 2) caddr type else .other
  else if ctrl = discCmd ∧ s.byte 0 &&& cmdFrame ≠ 0 then .lapDisc caddr
  else if ctrl = uiFrame ∧ cfg.printIrlmp then uiOf (s.pull 2)
  else .other

/-! ### The machine -/

/-- The tracker after a frame, the slots it was decoded with and the parsers called. -/
structure Tracked where
  tracker : Tracker
  picked : List (Option LsapState)
  calls : List Parser

def whenFlag (b : Bool) (ps : List Parser) : List Parser := if b then ps else []

def Flags.connectCalls (f : Flags) : List Parser :=
  whenFlag f.ttp [.irttpConnect] ++ whenFlag f.ircomm [.ircommConnect, .ircommTtp] ++
    whenFlag f.irnet [.irnet]

def Flags.dataCalls (f : Flags) : List Parser :=
  whenFlag f.ttp [.irttp] ++ whenFlag f.obex [.obex] ++
    whenFlag f.ircomm [if f.ttp then .ircommTtp else .ircommLmp] ++ whenFlag f.irnet [.irnet]

/-- The parsers of the information service, and `last_ias` behind them. -/
def iasCalls (q : IasQuery) : IasOp → List Parser
  | .none => []
  | .query _ => [.iriapCommand]
  | .response v => .iriapResponse :: whenFlag (v == .octSeq && q.ircomm) [.ircommParams]

def iasNext (q : IasQuery) : IasOp → IasQuery
  | .query (some q') => q'
  | .response (.integer lsapSel) => { q with lsapSel := lsapSel }
  | _ => q

def Tracker.find (t : Tracker) (p : UInt8 × UInt8) : Option Slot :=
  findConnection t.conn t.connCache p.1 p.2

def LsapState.ofConnect (q : IasQuery) (h : LmHead) : LsapState :=
  newConnection q h.caddr h.type h.slsapSel h.dlsapSel

def trackConnectCmd (cfg : Config) (t : Tracker) (h : LmHead) : Tracked :=
  if h.dlsapSel = t.lastIas.lsapSel then
    match findFreeConnection t.conn with
    | none => ⟨t, [], []⟩
    | some i =>
      let c := LsapState.ofConnect t.lastIas h
      ⟨{ t with conn := Function.update t.conn i c }, [some c], c.flags.connectCalls⟩
  else ⟨t, [none], whenFlag (cfg.forceTtp && h.dlsapSel != 0) [.irttpConnect]⟩

def trackConnectRsp (cfg : Config) (t : Tracker) (h : LmHead) : Tracked :=
  let i := t.find h.pair
  let calls := match i with
    | some i => (t.conn i).flags.connectCalls
    | none => whenFlag (cfg.forceTtp && h.slsapSel != 0) [.irttpConnect]
  ⟨{ t with connCache := i }, [i.map t.conn], calls⟩

def trackDisconnect (t : Tracker) (h : LmHead) : Tracked :=
  match t.find h.pair with
  | some i =>
    let conn := Function.update t.conn i { t.conn i with valid := false }
    ⟨{ t with conn := conn, connCache := some i }, [some (t.conn i)], []⟩
  | none => ⟨{ t with connCache := none }, [none], []⟩

def trackData (cfg : Config) (t : Tracker) (h : LmHead) (ias : IasOp) : Tracked :=
  let i := t.find h.pair
  let calls := match i with
    | some i => whenFlag (t.conn i).valid (t.conn i).flags.dataCalls
    | none => whenFlag (h.dlsapSel != 0 && h.slsapSel != 0 && cfg.forceTtp) [.irttp]
  ⟨{ t with connCache := i, lastIas := iasNext t.lastIas ias }, [i.map t.conn],
    iasCalls t.lastIas ias ++ calls⟩

def trackStep (cfg : Config) (t : Tracker) : Pdu → Tracked
  | .lapDisc caddr => ⟨{ t with conn := garbageConnection t.conn caddr }, [], []⟩
  | .lm h .connectCmd => trackConnectCmd cfg t h
  | .lm h .connectRsp => trackConnectRsp cfg t h
  | .lm h .disconnect => trackDisconnect t h
  | .lm h (.data ias) => trackData cfg t h ias
  | .lm _ .control => ⟨t, [], []⟩
  | .ultraObex => ⟨t, [], [.obex]⟩
  | .other => ⟨t, [], []⟩

/-! ### Runs -/

/-- A frame in the buffer, with the direction flag and the memory it is decoded in.
The options of `env` are those of the run. -/
structure Frame where
  type : ℤ
  buf : GNetBuf
  env : Env

def Frame.byte (f : Frame) (n : ℕ) : UInt8 := f.buf.mem (f.buf.data + n)

def Frame.start (f : Frame) (d : Decoder) : St := ⟨d, f.buf, "", [], [], []⟩

/-- One call of `parse_irlap_frame` on a fresh line. -/
def parseFrame (cfg : Config) (d : Decoder) (f : Frame) : St :=
  parseIrlapFrame { f.env with cfg := cfg } f.type (f.start d)

def decode (cfg : Config) (d : Decoder) (f : Frame) : Decoder := (parseFrame cfg d f).dec

def Frame.pdu (cfg : Config) (f : Frame) : Pdu := pduOf cfg f.type (f.start Decoder.init)

end Irdadump
