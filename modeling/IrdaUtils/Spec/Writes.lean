import IrdaUtils.Lib.Stores
import IrdaUtils.Spec.Fits
import IrdaUtils.Spec.Irdadump

/-! Where the program writes. The parsers copy texts to arrays on the stack, and the frame
buffer is written by the socket, by `read` and by `parse_xid_frame`. None of them compares
a length with the size of what it writes to; the logs below have the writes. The arrays of
the parsers have no end in their own definitions, which say what is printed as long as the
logs stay inside. -/

namespace Irdadump
open Memory ByteOrder Stores

def sizeofText : ℕ := 255

/-! ### IAS -/

def iriapCommandLogs (s : St) : List Log :=
  let opcode := s.byte 0 &&& ~~~0x80
  if opcode = getInfoBase ∨ opcode = getValueByClass then
    let nameLen := (s.byte 1).toNat
    let attrLen := (s.byte (2 + nameLen)).toNat
    [text (s.copy 2 nameLen), text (s.copy (3 + nameLen) attrLen)]
  else []

def iriasValueLogs (s : St) : List Log :=
  let type := s.byte 4
  if type = iasInteger then []
  else if type = iasString then [text (s.copy 7 (s.byte 6).toNat)]
  else []

def iriapResponseLogs (s : St) : List Log :=
  if s.byte 1 = iasSuccess then iriasValueLogs (s.pull 2) else []

def iasLogs (s : St) (slsapSel dlsapSel : UInt8) : List Log :=
  if dlsapSel = 0x00 then iriapCommandLogs s
  else if slsapSel = 0x00 then iriapResponseLogs s
  else []

/-- No text of the frame has 255 bytes, the longest that its length byte can say. -/
def IasTextsShort (s : St) (slsapSel dlsapSel : UInt8) : Prop :=
  (dlsapSel = 0 →
    s.byte 0 &&& ~~~0x80 = getInfoBase ∨ s.byte 0 &&& ~~~0x80 = getValueByClass →
      s.byte 1 ≠ 255 ∧ s.byte (2 + (s.byte 1).toNat) ≠ 255) ∧
  (dlsapSel ≠ 0 → slsapSel = 0 → s.byte 1 = iasSuccess → (s.pull 2).byte 4 = iasString →
    (s.pull 2).byte 6 ≠ 255)

/-! ### OBEX -/

def unicodeToCharLog (buf : List UInt8) (n : ℕ) : Log :=
  if h : buf.getD (n * 2 + 1) 0 ≠ 0 then
    have : n * 2 + 1 < buf.length := getD_ne_zero_lt h
    (n, buf.getD (n * 2 + 1) 0) ::
      unicodeToCharLog (buf.set n (buf.getD (n * 2 + 1) 0)) (n + 1)
  else [(n, 0)]
termination_by buf.length - n
decreasing_by simp only [List.length_set]; omega

def obexValue (b : GNetBuf) : List UInt8 := load b.mem (b.data + 3) (obexValueLen b)

def obexHeaderLog (stack : List UInt8) (b : GNetBuf) : Log :=
  let hi := b.byte 0 &&& obexHiMask
  if hi = obexUnicode then
    (if obexValueLen b = 0 then []
      else copyTo 0 (obexValue b) ++ unicodeToCharLog (overwrite stack (obexValue b)) 0) ++
      [(obexValueLen b, 0)]
  else if hi = obexByteStream then
    if (obexLabel (b.byte 0)).2 then
      if obexValueLen b ≠ 0 then text (obexValue b) else []
    else []
  else []

/-- The headers that the loop of `parse_obex_headers` reaches, as they stand in front of the
buffer. -/
def obexVisits (b : GNetBuf) : List GNetBuf :=
  if 0 < b.len then
    b ::
      if h : obexHeaderLen b ≤ b.len then
        have : (b.pull (obexHeaderLen b)).len < b.len :=
          len_pull_lt (Nat.lt_of_lt_of_le Nat.zero_lt_two (two_le_obexHeaderLen b)) h
        obexVisits (b.pull (obexHeaderLen b))
      else []
  else []
termination_by b.len

def obexFrameVisits (cmd lastCommand : UInt8) (b : GNetBuf) : List GNetBuf :=
  if b.len = 0 then []
  else
    match obexOffset cmd lastCommand (b.byte 0 &&& ~~~0x80) with
    | some off => obexVisits (b.pull off)
    | none => []

/-- A header whose text has room in `string`: a value of at most 254 bytes, which for Unicode
has a character with a zero low byte among the first 255, in the value or behind it on the
stack. -/
def ObexTextShort (stack : List UInt8) (b : GNetBuf) : Prop :=
  (b.byte 0 &&& obexHiMask = obexUnicode → obexValueLen b ≤ 254 ∧
    (obexValueLen b ≠ 0 →
      ∃ n < 255, (overwrite stack (obexValue b)).getD (n * 2 + 1) 0 = 0)) ∧
  (b.byte 0 &&& obexHiMask = obexByteStream → (obexLabel (b.byte 0)).2 = true →
    obexValueLen b ≤ 254)

/-! ### The texts of a frame -/

/-- A place where texts are copied: a data frame to or from LSAP 0, or a header. -/
inductive TextSite where
  | ias (s : St) (slsapSel dlsapSel : UInt8)
  | obex (stack : List UInt8) (b : GNetBuf)

def TextSite.logs : TextSite → List Log
  | .ias s slsapSel dlsapSel => iasLogs s slsapSel dlsapSel
  | .obex stack b => [obexHeaderLog stack b]

def TextSite.Short : TextSite → Prop
  | .ias s slsapSel dlsapSel => IasTextsShort s slsapSel dlsapSel
  | .obex stack b => ObexTextShort stack b

def obexTexts (env : Env) (s : St) (cmd : UInt8) : List TextSite :=
  (obexFrameVisits cmd s.dec.lastCommand s.buf).map fun b => .obex (env.stack b.len) b

def dataTexts (env : Env) (c : LsapState) (cmd : UInt8) (s : St) : List TextSite :=
  let s := if c.valid ∧ c.ttp then parseIrttp s else s
  if c.valid ∧ c.obex then obexTexts env s cmd else []

def lmDataTexts (env : Env) (s : St) (type : ℤ) (cmd slsapSel dlsapSel : UInt8) : List TextSite :=
  .ias s slsapSel dlsapSel ::
    let s := if dlsapSel = 0x00 then parseIriapCommand s
      else if slsapSel = 0x00 then parseIriapResponse s else s
    match s.find type slsapSel dlsapSel with
    | (some i, s) => dataTexts env (s.dec.conn i) cmd s
    | (none, _) => []

def irlmpTexts (env : Env) (s : St) (type : ℤ) (cmd : UInt8) : List TextSite :=
  if s.byte 0 &&& controlBit ≠ 0 then []
  else lmDataTexts env (s.pull 2) type cmd (s.byte 1) (s.byte 0 &&& lsapMask)

def uiIrlmpTexts (env : Env) (s : St) : List TextSite :=
  if s.byte 1 = 0x70 ∧ s.byte 0 &&& lsapMask = 0x70 then
    let s := s.pull 2
    if s.byte 0 &&& 0x7f = 0x01 then obexTexts env ((s.pull 1).pull 1) 1 else []
  else []

def irlapTexts (env : Env) (type : ℤ) (s : St) : List TextSite :=
  let ctrl := s.byte 1 &&& ~~~pfBit
  if env.cfg.printIrlmp = false then []
  else if ctrl &&& 0x01 = 0 then irlmpTexts env (s.pull 2) type (s.byte 0 &&& cmdFrame)
  else if ctrl &&& 0x02 = 0 then []
  else if ctrl = uiFrame then uiIrlmpTexts env (s.pull 2)
  else []

def decodeTexts (env : Env) (type : ℤ) (g : Dumper) : List TextSite :=
  if env.cfg.printIrlap then irlapTexts env type (printTimes env g).st else []

def TextsShort (env : Env) (type : ℤ) (s : St) : Prop := ∀ t ∈ irlapTexts env type s, t.Short

def TextsFit (env : Env) (type : ℤ) (s : St) : Prop :=
  ∀ t ∈ irlapTexts env type s, ∀ log ∈ t.logs, Fits sizeofText log

/-! ### The frame buffer -/

/-- Bytes that are written to the frame buffer from an offset on, and the size that the
buffer has then. -/
structure Write where
  offset : ℕ
  bytes : List UInt8
  truesize : ℕ

def Write.Inside (w : Write) : Prop := ∀ i < w.bytes.length, w.offset + i < w.truesize

def playWrites (head : ℕ) (m : Mem) (ws : List Write) : Mem :=
  ws.foldl (fun m w => store m (head + w.offset) w.bytes) m

def xidWrites (command : UInt8) (b : GNetBuf) : List Write :=
  if xidHasInfo command (b.byte 12) then [⟨b.data - b.head + b.len, [0], b.truesize⟩] else []

/-- The writes of `parse_irlap_frame`: an XID frame is the only one in which there is one. -/
def irlapWrites (b : GNetBuf) : List Write :=
  let ctrl := b.byte 1 &&& ~~~pfBit
  if ctrl &&& 0x01 = 0 then []
  else if ctrl &&& 0x02 = 0 then []
  else if ctrl = xidRsp ∨ ctrl = xidCmd then xidWrites (b.byte 0 &&& cmdFrame) b
  else []

def decodeWrites (env : Env) (b : GNetBuf) : List Write :=
  if env.cfg.printIrlap then irlapWrites b else []

def capreadWrites (o : Order) (c : Capread) : List Write :=
  if (c.fd.take sizeofPcaprecHdr).length ≠ sizeofPcaprecHdr then []
  else if ((c.fd.drop sizeofPcaprecHdr).take sizeofSllHeader).length ≠ sizeofSllHeader then []
  else [⟨0, recordData o c.fd, c.frameBuf.truesize⟩]

/-- The buffer behind `recvfrom`. -/
def Dumper.received (g : Dumper) (p : Recv) : GNetBuf :=
  { gNetbufRecycle g.st.buf with mem := store g.st.buf.mem g.st.buf.head p.data }

def turnBuf (o : Order) (inp : LoopInput) (g : Dumper) : Option GNetBuf :=
  match g.captureread with
  | some fd =>
    let r := capreadGet o (g.capread fd)
    if r.1 < 0 then none
    else if r.2.pprot ≠ ethPIrda.toNat then none
    else if r.2.plen = 0 then none
    else some (gNetbufPut inp.re r.2.frameBuf (toU32 r.2.plen)).2
  | none =>
    match inp.recv with
    | none => none
    | some p =>
      if p.src.sllProtocol ≠ ntohs o ethPIrda then none
      else if g.ifindex ≠ 0 ∧ p.src.sllIfindex ≠ g.ifindex then none
      else if p.data.length = 0 then none
      else some (gNetbufPut inp.re (g.received p) p.data.length).2

def turnDecodes (inp : LoopInput) (g : Dumper) : Bool :=
  match g.captureread with
  | some _ => true
  | none => (inp.recv.bind Recv.stamp).isSome

def inputWrites (o : Order) (inp : LoopInput) (g : Dumper) : List Write :=
  match g.captureread with
  | some fd => capreadWrites o (g.capread fd)
  | none =>
    match inp.recv with
    | none => []
    | some p => [⟨0, p.data, g.st.buf.truesize⟩]

def turnWrites (o : Order) (inp : LoopInput) (g : Dumper) : List Write :=
  inputWrites o inp g ++
    match turnBuf o inp g with
    | some b => if turnDecodes inp g then decodeWrites inp.env b else []
    | none => []

structure Filled (b : GNetBuf) : Prop where
  len : b.tail - b.data = b.len
  tail : b.tail ≤ b.end_

structure TurnSafe (o : Order) (g : Dumper) (inp : LoopInput) : Prop where
  writes : ∀ w ∈ turnWrites o inp g, w.Inside
  put : ∀ b, turnBuf o inp g = some b → Filled b

/-! ### Frames that fit -/

def xidWithInfo (addr ctrl slotnr : UInt8) : Prop :=
  (ctrl &&& ~~~pfBit = xidRsp ∨ ctrl &&& ~~~pfBit = xidCmd) ∧
    xidHasInfo (addr &&& cmdFrame) slotnr = true

/-- A decoded frame that fills the buffer, so that there is no room to end its device
information. -/
def LeavesNoRoom (env : Env) (bs : List UInt8) : Prop :=
  bs.length = maxFrameSize ∧ env.cfg.printIrlap = true ∧
    xidWithInfo (bs.getD 0 0) (bs.getD 1 0) (bs.getD 12 0)

def RecordLong (o : Order) (g : Dumper) : Prop :=
  ∀ fd, g.captureread = some fd → sizeofPcaprecHdr + sizeofSllHeader ≤ fd.length →
    0 ≤ recordLen o fd

/-- What a turn is given fits in the frame buffer: a packet that is decoded leaves room, and
so does a record, whose data is no longer than the buffer. -/
def TurnFits (o : Order) (g : Dumper) (inp : LoopInput) : Prop :=
  match g.captureread with
  | none => ∀ p, inp.recv = some p → p.src.sllProtocol = ntohs o ethPIrda →
      (g.ifindex = 0 ∨ p.src.sllIfindex = g.ifindex) → p.stamp ≠ none → ¬ LeavesNoRoom inp.env p.data
  | some fd => sizeofPcaprecHdr + sizeofSllHeader ≤ fd.length →
      0 ≤ recordLen o fd ∧ (recordData o fd).length ≤ maxFrameSize ∧
        (recordProt o fd = ethPIrda.toNat →
          (recordData o fd).length = recordLen o fd → ¬ LeavesNoRoom inp.env (recordData o fd))

end Irdadump
