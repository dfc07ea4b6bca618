import IrdaUtils.Spec.Decoder

/-! `obex.c` -/

namespace Irdadump

def obexHiMask : UInt8 := 0xc0
def obexUnicode : UInt8 := 0x00
def obexByteStream : UInt8 := 0x40
def obexByte : UInt8 := 0x80

def obexConnect : UInt8 := 0x00
def obexDisconnect : UInt8 := 0x01
def obexPut : UInt8 := 0x02
def obexGet : UInt8 := 0x03
def obexSetpath : UInt8 := 0x05
def obexAbort : UInt8 := 0x7f

def obexContinue : UInt8 := 0x10
def obexSwitchPro : UInt8 := 0x11
def obexSuccess : UInt8 := 0x20
def obexCreated : UInt8 := 0x21
def obexAccepted : UInt8 := 0x22
def obexBadRequest : UInt8 := 0x40
def obexForbidden : UInt8 := 0x43
def obexConflict : UInt8 := 0x49

def headerName : UInt8 := 0x01
def headerAname : UInt8 := 0x31
def headerType : UInt8 := 0x42
def headerLength : UInt8 := 0xc3
def headerDescription : UInt8 := 0x05
def headerTarget : UInt8 := 0x46
def headerBody : UInt8 := 0x48
def headerBodyEnd : UInt8 := 0x49
def headerConnId : UInt8 := 0xcb

def sizeofObexConnectFrame : ℕ := 7
def sizeofObexSetpathFrame : ℕ := 5
def sizeofObexMinimalFrame : ℕ := 3

theorem getD_ne_zero_lt {l : List UInt8} {i : ℕ} (h : l.getD i 0 ≠ 0) : i < l.length := by
  by_contra hn
  exact h (List.getD_eq_default l 0 (by omega))

/-- The narrowing loop from index `n` on, in place. Past the end of the stack the
array reads as zero. -/
def unicodeToCharLoop (buf : List UInt8) (n : ℕ) : List UInt8 :=
  if h : buf.getD (n * 2 + 1) 0 ≠ 0 then
    have : n * 2 + 1 < buf.length := getD_ne_zero_lt h
    unicodeToCharLoop (buf.set n (buf.getD (n * 2 + 1) 0)) (n + 1)
  else buf.set n 0
termination_by buf.length - n
decreasing_by simp only [List.length_set]; omega

def unicodeToChar (buf : List UInt8) : List UInt8 := unicodeToCharLoop buf 0

/-- `memcpy` to the start of an array. -/
def overwrite (array bs : List UInt8) : List UInt8 := bs ++ array.drop bs.length

/-- The `guint16` that holds the length of the value: a field below 3 wraps. -/
def obexStringLen (s : St) : ℕ := (s.be16 1 + 2 ^ 16 - 3) % 2 ^ 16

/-- What `parse_obex_header` prints of a Unicode value. -/
def obexUnicodeText (stack : List UInt8) (s : St) : String :=
  let stringLen := obexStringLen s
  let string := if stringLen = 0 then stack
    else unicodeToChar (overwrite stack (s.copy 3 stringLen))
  "\"" ++ cString (string.set stringLen 0) ++ "\" "

/-- The length of the header, and the text for its value. -/
def parseObexHeader (env : Env) (s : St) (istext : Bool) : ℕ × St :=
  let hi := s.byte 0 &&& obexHiMask
  if hi = obexUnicode then
    (3 + obexStringLen s, s.append (obexUnicodeText (env.stack s.buf.len) s))
  else if hi = obexByteStream then
    let stringLen := obexStringLen s
    let text :=
      if istext then
        if stringLen ≠ 0 then "\"" ++ cString (s.copy 3 stringLen) ++ "\" " else ""
      else s!"[{stringLen} bytes] "
    (stringLen + 3, s.append text)
  else if hi = obexByte then (2, s.append s!"{(s.byte 0).toNat} ")
  else (5, s.append s!"{fmtInt32 (s.be32 1)} ")

/-- The label of a header identifier, and whether a byte stream is shown as text. -/
def obexLabel (hi : UInt8) : String × Bool :=
  if hi = headerName ∨ hi = headerAname then ("Name=", true)
  else if hi = headerDescription then ("Description=", false)
  else if hi = headerLength then ("Lenght=", false)
  else if hi = headerType then ("Type=", true)
  else if hi = headerTarget then ("Target=", true)
  else if hi = headerBody then ("body=", false)
  else if hi = headerBodyEnd then ("body-end=", false)
  else if hi = headerConnId then ("Connection ID=", false)
  else (s!"custom(0x{fmtX 0 hi.toNat})=", false)

/-- One header of the loop: its label and value are printed. -/
def obexHeaderStep (env : Env) (s : St) : ℕ × St :=
  parseObexHeader env (s.append (obexLabel (s.byte 0)).1) (obexLabel (s.byte 0)).2

theorem parseObexHeader_buf (env : Env) (s : St) (istext : Bool) :
    (parseObexHeader env s istext).2.buf = s.buf := by
  unfold parseObexHeader
  simp only
  split_ifs <;> rfl

theorem two_le_parseObexHeader (env : Env) (s : St) (istext : Bool) :
    2 ≤ (parseObexHeader env s istext).1 := by
  unfold parseObexHeader
  simp only
  split_ifs <;> simp only <;> omega

theorem obexHeaderStep_buf (env : Env) (s : St) : (obexHeaderStep env s).2.buf = s.buf :=
  parseObexHeader_buf env _ _

theorem two_le_obexHeaderStep (env : Env) (s : St) : 2 ≤ (obexHeaderStep env s).1 :=
  two_le_parseObexHeader env _ _

/-- The `while` loop of `parse_obex_headers`. -/
def obexHeadersLoop (env : Env) (s : St) : St :=
  if h0 : 0 < s.buf.len then
    let r := obexHeaderStep env s
    if h : r.2.buf.len < r.1 then r.2.append "\x7bunterminated\x7d "
    else
      have : (r.2.pull r.1).buf.len < s.buf.len := by
        have hb : r.2.buf = s.buf := obexHeaderStep_buf env s
        have h2 : 2 ≤ r.1 := two_le_obexHeaderStep env s
        simp only [St.pull, gNetbufPull]
        rw [if_neg h, hb]
        simp only
        omega
      obexHeadersLoop env (r.2.pull r.1)
  else s
termination_by s.buf.len

def parseObexHeaders (env : Env) (s : St) (headerOffset : ℕ) : St :=
  let final := s.byte 0 &&& 0x80
  let size := s.be16 1
  let s := s.pull headerOffset
  obexHeadersLoop env (s.append s!"final={(final >>> 7).toNat} len={size} ")

def parseObexConnect (s : St) : St :=
  let length := s.be16 1
  if length = 7 then
    let version := s.byte 3
    s.append (s!"CONNECT len={length} ver={((version &&& 0xf0) >>> 4).toNat}." ++
      s!"{(version &&& 0x0f).toNat} flags={(s.byte 4).toNat} mtu={s.be16 5} ")
  else s.append s!"CONNECT len={length} "

def parseObexSuccess (env : Env) (s : St) (lastCmd : UInt8) : St :=
  if lastCmd = obexConnect then
    let version := s.byte 3
    parseObexHeaders env
      (s.append (s!"SUCCESS len={s.be16 1} ver={((version &&& 0xf0) >>> 4).toNat}." ++
        s!"{(version &&& 0x0f).toNat} flags={(s.byte 4).toNat} mtu={s.be16 5} "))
      sizeofObexConnectFrame
  else
    parseObexHeaders env (s.append s!"SUCCESS (from 0x{fmtX 0 lastCmd.toNat}) ")
      sizeofObexMinimalFrame

def parseObexSetpath (env : Env) (s : St) : St :=
  parseObexHeaders env
    (s.append s!"SETPATH flags=0x{fmtX 0 (s.byte 3).toNat} constants={(s.byte 4).toNat} ")
    sizeofObexSetpathFrame

def parseObexResponse (env : Env) (s : St) (opcode : UInt8) : St :=
  if opcode = obexContinue then
    parseObexHeaders env (s.append "CONTINUE ") sizeofObexMinimalFrame
  else if opcode = obexSwitchPro then s.append "SWITCH_PRO "
  else if opcode = obexSuccess then parseObexSuccess env s s.dec.lastCommand
  else if opcode = obexCreated then s.append "CREATED "
  else if opcode = obexAccepted then s.append "ACCEPTED "
  else if opcode = obexBadRequest then s.append "BAD REQUEST "
  else if opcode = obexForbidden then s.append "FORBIDDEN "
  else if opcode = obexConflict then s.append "CONFLICT "
  else s.append s!"Unknown response {fmtX 2 opcode.toNat} "

def parseObexCommand (env : Env) (s : St) (opcode : UInt8) : St :=
  let s := s.setCommand opcode
  if opcode = obexConnect then parseObexConnect s
  else if opcode = obexPut then
    parseObexHeaders env (s.append "PUT ") sizeofObexMinimalFrame
  else if opcode = obexGet then
    parseObexHeaders env (s.append "GET ") sizeofObexMinimalFrame
  else if opcode = obexDisconnect then s.append "DISC "
  else if opcode = obexAbort then s.append "ABORT "
  else if opcode = obexSetpath then parseObexSetpath env s
  else if 0x04 < opcode ∧ opcode < 0x10 then s.append "RESERVED "
  else if 0x0f < opcode ∧ opcode < 0x20 then s.append "USER_DEFINED "
  else s.append s!"unknown opcode {fmtAltX 0 opcode.toNat} "

def parseObex (env : Env) (s : St) (cmd : UInt8) : St :=
  let s := s.enter .obex
  let s := s.append "\n\tOBEX "
  -- empty frames
  if s.buf.len = 0 then s
  else
    let opcode := s.byte 0 &&& ~~~0x80
    if cmd = 0 then parseObexResponse env s opcode else parseObexCommand env s opcode

end Irdadump
