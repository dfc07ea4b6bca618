import IrdaUtils.Lib.Tlv
import IrdaUtils.Spec.Fits

/-! The parameter lists of IrCOMM and of the QoS field as they are meant: what a line
should show of a parameter, from its own bytes. `qosLookups` has the table lookups that
`parse_irlap_params` makes. -/

namespace Irdadump
open Memory Tlv

/-- The identifier without its critical bit. -/
def paramId (p : Param) : ℕ := (p.id &&& 0x7f).toNat

/-! ### IrCOMM -/

def ircommKnown (p : Param) : Bool := ircommParamSize (paramId p) != 1

/-- A known parameter has the value bytes that are read for it. -/
def IrcommComplete (p : Param) : Prop := ircommParamSize (paramId p) ≤ p.size

instance : DecidablePred IrcommComplete := fun _ => inferInstanceAs (Decidable (_ ≤ _))

/-- The words for the bits of a value that are set, or that there is none. -/
def bitWords (table : List (ℕ × String)) (v : ℕ) : String :=
  let words := (table.filter fun w => v.testBit w.1).map Prod.snd
  if words = [] then "N/A " else String.join words

def serviceTypes : List (ℕ × String) :=
  [(3, "CENTRONICS "), (2, "NINE_WIRE "), (1, "THREE_WIRE "), (0, "THREE_WIRE_RAW ")]

def portTypes : List (ℕ × String) := [(0, "SERIAL "), (1, "PARALLEL ")]

def ircommRender (p : Param) : String :=
  let v i := (p.value.getD i 0).toNat
  if paramId p = serviceTypePi then "Service Type=" ++ bitWords serviceTypes (v 0)
  else if paramId p = portTypePi then "Port Type=" ++ bitWords portTypes (v 0)
  else if paramId p = dataRatePi then
    s!"Data Rate={fmtInt32 ((v 0 * 256 + v 1) * 65536 + (v 2 * 256 + v 3))} "
  else if paramId p = dataFormatPi then s!"Data Format={fmtX 2 (v 0)} "
  else if paramId p = flowControlPi then s!"Flow Control={fmtX 2 (v 0)} "
  else if paramId p = xonXoffCharPi then s!"XON/XOFF={fmtX 2 (v 0)},{fmtX 2 (v 1)} "
  else if paramId p = dtelineStatePi then s!"DTEline State={fmtX 2 (v 0)} "
  else ""

/-! ### QoS -/

/-- A value and the table that its highest bit is an index of. -/
structure QosLookup where
  label : String
  pv : ℕ
  array : List ℕ
  unit : String

def QosLookup.index (l : QosLookup) : ℕ := msbIndex l.pv

def QosLookup.text (env : Env) (l : QosLookup) : String :=
  l.label ++ fmtInt32 (indexValue env l.index l.array) ++ l.unit

def lookupText (env : Env) : Option QosLookup → String
  | some l => l.text env
  | none => ""

/-- The lookup for an identifier, a length and the first two value bytes; only a baud rate
has a second one. -/
def qosLookup (pi pl : ℕ) (b0 b1 : UInt8) : Option QosLookup :=
  if pi = piBaudRate then
    some ⟨"Baud Rate=", if 2 ≤ pl then b0.toNat + b1.toNat * 256 else b0.toNat, baudRates, "bps "⟩
  else (qosTable pi).map fun t => ⟨t.1, b0.toNat, t.2.1, t.2.2⟩

/-- The lookup for the parameter at offset `n`. -/
def qosLookupAt (m : Mem) (n : ℕ) : Option QosLookup :=
  qosLookup (m n &&& 0x7f).toNat (m (n + 1)).toNat (m (n + 2)) (m (n + 3))

/-- The lookups of the loop of `parse_irlap_params`, from offset `n` on. -/
def qosLookups (m : Mem) (clen n : ℕ) : List QosLookup :=
  (visits m clen n).filterMap (qosLookupAt m)

def qosKnown (p : Param) : Bool := paramId p == piBaudRate || (qosTable (paramId p)).isSome

def QosComplete (p : Param) : Prop := qosKnown p = true → 1 ≤ p.value.length

instance : DecidablePred QosComplete := fun _ => inferInstanceAs (Decidable (_ → _))

def qosRender (env : Env) (p : Param) : String :=
  lookupText env
    (qosLookup (paramId p) p.value.length (p.value.getD 0 0) (p.value.getD 1 0))

/-- The bits that the tables have no entries for are clear in the parameter at offset `n`. -/
def NoReservedBits (m : Mem) (n : ℕ) : Prop :=
  ((m n &&& 0x7f).toNat = piMaxTurnTime → m (n + 2) < 16) ∧
    ((m n &&& 0x7f).toNat = piDataSize → m (n + 2) < 64) ∧
    ((m n &&& 0x7f).toNat = piBaudRate → 2 ≤ (m (n + 1)).toNat → m (n + 3) < 4)

instance (m : Mem) (n : ℕ) : Decidable (NoReservedBits m n) :=
  inferInstanceAs (Decidable (_ ∧ _ ∧ _))

/-! ### The frames with a QoS field -/

inductive QosFrame where
  | snrm
  | ua
  deriving DecidableEq

namespace QosFrame

/-- The bytes in front of the information field. -/
def fixed : QosFrame → ℕ
  | snrm => 11
  | ua => 10

/-- The frame is an `SNRM` command or a `UA`. -/
def Heads : QosFrame → St → Prop
  | snrm, s => s.byte 0 &&& cmdFrame ≠ 0 ∧ s.byte 1 &&& ~~~pfBit = snrmCmd
  | ua, s => s.byte 1 &&& ~~~pfBit = uaRsp

end QosFrame

/-- The frame without the bytes from `n` on. -/
def St.cut (s : St) (n : ℕ) : St := { s with buf := { s.buf with len := n } }

/-- The lookups for an information field that is the contents of the buffer. -/
def fieldLookups (s : St) : List QosLookup := qosLookups s.byte (s.buf.len % 256) 0

/-- What an information field adds to the line. -/
def fieldText (env : Env) (s : St) : String :=
  if s.buf.len = 0 then ""
  else "\n\tLAP QoS: " ++ String.join ((fieldLookups s).map (·.text env))

/-- The known parameters of a QoS field as they are meant to be shown, behind the line of
the frame without the field. -/
def QosShown (env : Env) (type : ℤ) (k : QosFrame) (s : St) (ps : List Param) : Prop :=
  (parseIrlapFrame env type s).str = (parseIrlapFrame env type (s.cut k.fixed)).str ++
    ((if ps = [] then "" else "\n\tLAP QoS: ") ++
      String.join ((ps.filter qosKnown).map (qosRender env)))

/-- A frame with a well-formed QoS field. -/
structure QosField (k : QosFrame) (s : St) (ps : List Param) : Prop where
  heads : k.Heads s
  bytes : ∃ header, header.length = k.fixed ∧ s.buf.bytes = header ++ encode ps
  complete : ∀ p ∈ ps, QosComplete p

/-- The line in front of an octet sequence in an answer to an IrCOMM query. -/
def octSeqLine (opcode : UInt8) : String :=
  (if opcode &&& ~~~0x80 = getValueByClass then "GET_VALUE_BY_CLASS: " else "") ++
    "Success \n\tIrCOMM Parameters "

def ircommShown (ps : List Param) : String := String.join ((ps.filter ircommKnown).map ircommRender)

/-- A successful answer to an IrCOMM query with an octet sequence of well-formed
parameters. -/
structure OctSeqAnswer (opcode : UInt8) (s : St) (ps : List Param) : Prop where
  ircomm : s.dec.lastIas.ircomm = true
  bytes : ∃ header rest, header.length = 4 ∧ s.buf.bytes = opcode :: iasSuccess :: header ++
    (iasOctSeq :: UInt8.ofNat ((encode ps).length / 256) :: UInt8.ofNat (encode ps).length ::
      encode ps ++ rest)
  len : (encode ps).length < 2 ^ 16
  complete : ∀ p ∈ ps, IrcommComplete p

/-- The known parameters of the answer as they are meant to be shown. -/
def OctSeqShown (opcode : UInt8) (s : St) (ps : List Param) : Prop :=
  (parseIriapResponse s).str = s.str ++ octSeqLine opcode ++ ircommShown ps

/-! ### TinyTP -/

/-- The header of a TinyTP connect frame: the credits, and parameters behind their length
when the top bit is set. -/
structure TtpHeader where
  first : UInt8
  params : List UInt8
  bare : first &&& 0x80 = 0 → params = []
  complete : first &&& 0x80 ≠ 0 → 4 ≤ params.length ∧ params.length < 256

def TtpHeader.encode (h : TtpHeader) : List UInt8 :=
  if h.first &&& 0x80 = 0 then [h.first]
  else h.first :: UInt8.ofNat h.params.length :: h.params

/-- The header is taken off, and the parser that is called next starts with the user data. -/
structure HeaderConsumed (s : St) (u : List UInt8) : Prop where
  rest : (parseIrttpConnect s).buf.bytes = u
  next : ∀ c : LsapState, c.ttp = true →
    ∀ k, (connectParsers c s).calls[s.calls.length + 1]? = some k → k.contents = u

end Irdadump
