import IrdaUtils.Spec.Tracking

/-! When a frame has all the bytes that the decoders look at. Few of them compare an
offset with the length of the frame before they read, so a frame that does not fit is
decoded with what earlier frames have left behind it in the buffer. The conditions are on
the buffer as it is handed to each parser; a `Rest` is where that leaves the next one. -/

namespace Irdadump

namespace GNetBuf

def byte (b : GNetBuf) (n : ℕ) : UInt8 := b.mem (b.data + n)
def be16 (b : GNetBuf) (n : ℕ) : ℕ := (b.byte n).toNat * 256 + (b.byte (n + 1)).toNat
def pull (b : GNetBuf) (n : ℕ) : GNetBuf := (gNetbufPull b n).2

end GNetBuf

/-- A string in `k` bytes from `n` on: they are all there, or a zero byte ends it before. -/
def StringFits (b : GNetBuf) (n k : ℕ) : Prop :=
  n + k ≤ b.len ∨ ∃ i < k, n + i < b.len ∧ b.byte (n + i) = 0

/-! ### IrCOMM -/

/-- The bytes of a parameter that are used: its value, if it is a known one. -/
def ircommParamSize (pi : ℕ) : ℕ :=
  if pi = serviceTypePi ∨ pi = portTypePi ∨ pi = dataFormatPi ∨ pi = flowControlPi ∨
      pi = dtelineStatePi then 3
  else if pi = dataRatePi then 6
  else if pi = xonXoffCharPi then 4
  else 1

/-- The length byte of a parameter matters if there can be another one behind it. -/
def IrcommParamsFit (clen : ℕ) (b : GNetBuf) (n : ℕ) : Prop :=
  if n < clen then
    n + ircommParamSize (b.byte n &&& 0x7f).toNat ≤ b.len ∧ (n + 2 < clen → n + 2 ≤ b.len) ∧
      IrcommParamsFit clen b (n + ((b.byte (n + 1)).toNat + 2))
  else True
termination_by clen - n

def IrcommTtpFits (b : GNetBuf) : Prop :=
  b.len ≠ 0 → IrcommParamsFit (b.byte 0).toNat (b.pull 1) 0

/-! ### OBEX -/

/-- The length of an OBEX value, as `guint16`. -/
def obexValueLen (b : GNetBuf) : ℕ := (b.be16 1 + 2 ^ 16 - 3) % 2 ^ 16

def obexHeaderLen (b : GNetBuf) : ℕ :=
  let hi := b.byte 0 &&& obexHiMask
  if hi = obexUnicode then 3 + obexValueLen b
  else if hi = obexByteStream then obexValueLen b + 3
  else if hi = obexByte then 2
  else 5

/-- A Unicode value is read up to the first character whose low byte is zero, whatever
its length; that character has to be in the value. -/
def UnicodeFits (b : GNetBuf) : Prop :=
  obexValueLen b ≠ 0 → ∃ k, k * 2 + 1 < obexValueLen b ∧ 3 + (k * 2 + 1) < b.len ∧
    b.byte (3 + (k * 2 + 1)) = 0

def ObexHeaderFits (b : GNetBuf) : Prop :=
  let hi := b.byte 0 &&& obexHiMask
  if hi = obexUnicode then 3 ≤ b.len ∧ UnicodeFits b
  else if hi = obexByteStream then
    3 ≤ b.len ∧ ((obexLabel (b.byte 0)).2 = true → StringFits b 3 (obexValueLen b))
  else if hi = obexByte then True
  else 5 ≤ b.len

theorem two_le_obexHeaderLen (b : GNetBuf) : 2 ≤ obexHeaderLen b := by
  unfold obexHeaderLen
  simp only
  split_ifs <;> omega

theorem len_pull_lt {b : GNetBuf} {n : ℕ} (h0 : 0 < n) (h : n ≤ b.len) :
    (b.pull n).len < b.len := by
  simp only [GNetBuf.pull, gNetbufPull, if_neg (Nat.not_lt.2 h)]
  omega

/-- The headers from here to the end; one that is longer than the rest is the last. -/
def ObexHeadersFit (b : GNetBuf) : Prop :=
  if 0 < b.len then
    ObexHeaderFits b ∧
      if h : obexHeaderLen b ≤ b.len then
        have : (b.pull (obexHeaderLen b)).len < b.len :=
          len_pull_lt (Nat.lt_of_lt_of_le Nat.zero_lt_two (two_le_obexHeaderLen b)) h
        ObexHeadersFit (b.pull (obexHeaderLen b))
      else True
  else True
termination_by b.len

def obexHeadersRest (b : GNetBuf) : GNetBuf :=
  if 0 < b.len then
    if h : obexHeaderLen b ≤ b.len then
      have : (b.pull (obexHeaderLen b)).len < b.len :=
        len_pull_lt (Nat.lt_of_lt_of_le Nat.zero_lt_two (two_le_obexHeaderLen b)) h
      obexHeadersRest (b.pull (obexHeaderLen b))
    else b
  else b
termination_by b.len

/-- Where the headers start in a frame that has headers. -/
def obexOffset (cmd lastCommand opcode : UInt8) : Option ℕ :=
  if cmd = 0 then
    if opcode = obexContinue then some sizeofObexMinimalFrame
    else if opcode = obexSuccess then
      if lastCommand = obexConnect then some sizeofObexConnectFrame else some sizeofObexMinimalFrame
    else none
  else if opcode = obexPut ∨ opcode = obexGet then some sizeofObexMinimalFrame
  else if opcode = obexSetpath then some sizeofObexSetpathFrame
  else none

/-- All headers start behind the fixed part, and a `CONNECT` has one as well. -/
def ObexFits (cmd lastCommand : UInt8) (b : GNetBuf) : Prop :=
  b.len ≠ 0 →
    (∀ off, obexOffset cmd lastCommand (b.byte 0 &&& ~~~0x80) = some off →
      off ≤ b.len ∧ ObexHeadersFit (b.pull off)) ∧
    (cmd ≠ 0 → b.byte 0 &&& ~~~0x80 = obexConnect → 3 ≤ b.len ∧ (b.be16 1 = 7 → 7 ≤ b.len))

def obexRest (cmd lastCommand : UInt8) (b : GNetBuf) : GNetBuf :=
  if b.len = 0 then b
  else
    match obexOffset cmd lastCommand (b.byte 0 &&& ~~~0x80) with
    | some off => obexHeadersRest (b.pull off)
    | none => b

/-! ### TinyTP -/

def TtpFits (b : GNetBuf) : Prop := 1 ≤ b.len

/-- The parameter of a connect frame has a fixed place. -/
def TtpConnectFits (b : GNetBuf) : Prop :=
  1 ≤ b.len ∧ (b.byte 0 &&& 0x80 ≠ 0 → 6 ≤ b.len)

def ttpConnectRest (b : GNetBuf) : GNetBuf :=
  (if b.byte 0 &&& 0x80 ≠ 0 then b.pull (b.byte 1).toNat else b).pull 1

/-! ### IAS -/

def QueryFits (b : GNetBuf) : Prop :=
  1 ≤ b.len ∧
    (b.byte 0 &&& ~~~0x80 = getInfoBase ∨ b.byte 0 &&& ~~~0x80 = getValueByClass →
      2 ≤ b.len ∧ 2 + (b.byte 1).toNat < b.len ∧
        StringFits b (3 + (b.byte 1).toNat) (b.byte (2 + (b.byte 1).toNat)).toNat)

/-- An octet sequence is read only as the parameters of an IrCOMM lookup. -/
def ValueFits (ircomm : Bool) (b : GNetBuf) : Prop :=
  5 ≤ b.len ∧ (b.byte 4 = iasInteger → 9 ≤ b.len) ∧
    (b.byte 4 = iasString → 7 ≤ b.len ∧ StringFits b 7 (b.byte 6).toNat) ∧
    (b.byte 4 = iasOctSeq → ircomm = true →
      7 ≤ b.len ∧ IrcommParamsFit (b.byte 6).toNat (b.pull 7) 0)

def ResponseFits (ircomm : Bool) (b : GNetBuf) : Prop :=
  2 ≤ b.len ∧ (b.byte 1 = iasSuccess → ValueFits ircomm (b.pull 2))

def responseRest (ircomm : Bool) (b : GNetBuf) : GNetBuf :=
  if b.byte 1 = iasSuccess ∧ (b.pull 2).byte 4 = iasOctSeq then
    if ircomm then ((b.pull 2).pull 7).pull ((b.pull 2).byte 6).toNat else (b.pull 2).pull 7
  else b.pull 2

/-! ### LM frames -/

def ConnectFits (c : LsapState) (b : GNetBuf) : Prop :=
  (c.ttp = true → TtpConnectFits b) ∧
    (c.ircomm = true → IrcommTtpFits (if c.ttp then ttpConnectRest b else b))

def DataFits (c : LsapState) (cmd lastCommand : UInt8) (b : GNetBuf) : Prop :=
  c.valid = true →
    let b₁ := if c.ttp then b.pull 1 else b
    let b₂ := if c.obex then obexRest cmd lastCommand b₁ else b₁
    (c.ttp = true → TtpFits b) ∧ (c.obex = true → ObexFits cmd lastCommand b₁) ∧
      (c.ircomm = true → c.ttp = true → IrcommTtpFits b₂)

def ConnectCmdFits (cfg : Config) (d : Decoder) (h : LmHead) (b : GNetBuf) : Prop :=
  if h.dlsapSel = d.lastIas.lsapSel then
    findFreeConnection d.conn ≠ none → ConnectFits (.ofConnect d.lastIas h) b
  else cfg.forceTtp = true ∧ h.dlsapSel ≠ 0 → TtpConnectFits b

def ConnectRspFits (cfg : Config) (d : Decoder) (h : LmHead) (b : GNetBuf) : Prop :=
  match d.tracker.find h.pair with
  | some i => ConnectFits (d.conn i) b
  | none => cfg.forceTtp = true ∧ h.slsapSel ≠ 0 → TtpConnectFits b

def LmDataFits (cfg : Config) (d : Decoder) (cmd : UInt8) (h : LmHead) (b : GNetBuf) : Prop :=
  (if h.dlsapSel = 0 then QueryFits b
    else if h.slsapSel = 0 then ResponseFits d.lastIas.ircomm b else True) ∧
  let b := if h.dlsapSel ≠ 0 ∧ h.slsapSel = 0 then responseRest d.lastIas.ircomm b else b
  match d.tracker.find h.pair with
  | some i => DataFits (d.conn i) cmd d.lastCommand b
  | none => h.dlsapSel ≠ 0 ∧ h.slsapSel ≠ 0 ∧ cfg.forceTtp = true → TtpFits b

/-- A buffer behind the LAP header. -/
def LmFits (cfg : Config) (d : Decoder) (caddr : UInt8) (type : ℤ) (cmd : UInt8) (b : GNetBuf) :
    Prop :=
  2 ≤ b.len ∧
    let h : LmHead := ⟨caddr, type, b.byte 1, b.byte 0 &&& lsapMask⟩
    if b.byte 0 &&& controlBit ≠ 0 then
      1 ≤ (b.pull 2).len ∧
        ((b.pull 2).byte 0 = connectCmd → ConnectCmdFits cfg d h ((b.pull 2).pull 2)) ∧
        ((b.pull 2).byte 0 = connectRsp → ConnectRspFits cfg d h ((b.pull 2).pull 2))
    else LmDataFits cfg d cmd h (b.pull 2)

def UiFits (d : Decoder) (b : GNetBuf) : Prop :=
  2 ≤ b.len ∧
    (b.byte 1 = 0x70 ∧ b.byte 0 &&& lsapMask = 0x70 →
      1 ≤ (b.pull 2).len ∧
        ((b.pull 2).byte 0 &&& 0x7f = 0x01 →
          ObexFits 1 d.lastCommand (((b.pull 2).pull 1).pull 1)))

/-! ### LAP frames -/

/-- The bytes of a QoS parameter that are used. -/
def qosParamSize (pi : ℕ) (pl : ℕ) : ℕ :=
  if pi = piBaudRate then if 2 ≤ pl then 4 else 3
  else if (qosTable pi).isSome then 3
  else 1

def QosFits (clen : ℕ) (b : GNetBuf) (n : ℕ) : Prop :=
  if n < clen then
    n + qosParamSize (b.byte n &&& 0x7f).toNat (b.byte (n + 1)).toNat ≤ b.len ∧
      (n + 2 < clen → n + 2 ≤ b.len) ∧ QosFits clen b (n + ((b.byte (n + 1)).toNat + 2))
  else True
termination_by clen - n

/-- The fixed part of `n` bytes, and the parameters behind it. -/
def IFieldFits (n : ℕ) (b : GNetBuf) : Prop :=
  n ≤ b.len ∧ ((b.pull n).len ≠ 0 → QosFits (UInt8.ofNat (b.pull n).len).toNat (b.pull n) 0)

def XidFits (cmd : UInt8) (b : GNetBuf) : Prop :=
  13 ≤ b.len ∧
    (xidHasInfo cmd (b.byte 12) = true →
      15 ≤ b.len ∧ (if b.byte 14 &&& 0x80 ≠ 0 then 17 else 16) ≤ b.len)

def UFrameFits (cfg : Config) (d : Decoder) (cmd ctrl : UInt8) (b : GNetBuf) : Prop :=
  if ctrl = xidRsp ∨ ctrl = xidCmd then XidFits cmd b
  else if ctrl = snrmCmd then (if cmd ≠ 0 then IFieldFits 11 b else 10 ≤ b.len)
  else if ctrl = testCmd then 10 ≤ b.len
  else if ctrl = uaRsp then IFieldFits 10 b
  else if ctrl = frmrRsp then 3 ≤ b.len
  else if ctrl = uiFrame then cfg.printIrlmp = true → UiFits d (b.pull 2)
  else True

/-- The frame has every byte that is used to decode it. -/
def FrameFits (cfg : Config) (d : Decoder) (type : ℤ) (b : GNetBuf) : Prop :=
  2 ≤ b.len ∧
    let cmd := b.byte 0 &&& cmdFrame
    let caddr := b.byte 0 &&& cbroadcast
    let ctrl := b.byte 1 &&& ~~~pfBit
    if ctrl &&& 0x01 = 0 then cfg.printIrlmp = true → LmFits cfg d caddr type cmd (b.pull 2)
    else if ctrl &&& 0x02 = 0 then True
    else UFrameFits cfg d cmd ctrl b

end Irdadump
