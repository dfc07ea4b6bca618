import IrdaUtils.Lib.PrefixCode
import IrdaUtils.Spec.Fits

/-! The OBEX headers of a packet as they are meant: the bytes of a header, a header with its
value, and what a line should show of it. `obexHeadersLog` is the loop of
`parse_obex_headers` with an account of its turns. -/

namespace Irdadump

/-- One header with all its bytes: its first byte says how long it is, or that the length
stands behind it. No bytes are no header: they miss the length. -/
def CompleteHeader (h : List UInt8) : Prop :=
  if h.getD 0 0 < 0x80 then
    3 ≤ h.length ∧ (h.getD 1 0).toNat * 256 + (h.getD 2 0).toNat = h.length
  else if h.getD 0 0 < 0xc0 then h.length = 2
  else h.length = 5

/-- What the line gets from the header that the buffer starts with. -/
def obexItem (env : Env) (s : St) : String := (obexHeaderStep env { s with str := "" }).2.str

/-- The texts of the headers that the loop visits, and whether it ends because one of them
is longer than the rest. -/
def obexHeadersLog (env : Env) (s : St) : List String × Bool :=
  if h0 : 0 < s.buf.len then
    let r := obexHeaderStep env s
    if h : r.2.buf.len < r.1 then ([obexItem env s], true)
    else
      have : (r.2.pull r.1).buf.len < s.buf.len := by
        rw [← obexHeaderStep_buf env s]
        exact len_pull_lt (Nat.lt_of_lt_of_le Nat.zero_lt_two (two_le_obexHeaderStep env s))
          (Nat.le_of_not_lt h)
      (obexItem env s :: (obexHeadersLog env (r.2.pull r.1)).1,
        (obexHeadersLog env (r.2.pull r.1)).2)
  else ([], false)
termination_by s.buf.len

/-- The line in front of the headers. -/
def obexHeadersPrefix (s : St) : String :=
  s!"final={((s.byte 0 &&& 0x80) >>> 7).toNat} len={s.be16 1} "

/-! ### Values -/

/-- A well-formed header. The text of a Unicode header is without the unit 0x0000 that ends
it; a text has at most 254 bytes. -/
inductive ObexHeader where
  | unicode (id : UInt8) (text : List (UInt8 × UInt8)) (hid : id &&& obexHiMask = obexUnicode)
      (hlow : ∀ u ∈ text, u.2 ≠ 0) (hlen : 2 * text.length + 2 ≤ 254)
  | stream (id : UInt8) (bytes : List UInt8) (hid : id &&& obexHiMask = obexByteStream)
      (hlen : bytes.length + 3 < 2 ^ 16) (htext : (obexLabel id).2 = true → bytes.length ≤ 254)
  | byte (id value : UInt8) (hid : id &&& obexHiMask = obexByte)
  | int (id : UInt8) (value : BitVec 32) (hid : id &&& obexHiMask = obexHiMask)

namespace ObexHeader

def be16 (n : ℕ) : List UInt8 := [UInt8.ofNat (n / 256), UInt8.ofNat n]

def be32 (n : ℕ) : List UInt8 := be16 (n / 65536) ++ be16 n

/-- The bytes of a Unicode text, high byte first. -/
def units (text : List (UInt8 × UInt8)) : List UInt8 := text.flatMap fun u => [u.1, u.2]

def encode : ObexHeader → List UInt8
  | unicode id text _ _ _ => id :: be16 (3 + (2 * text.length + 2)) ++ units text ++ [0, 0]
  | stream id bytes _ _ _ => id :: be16 (3 + bytes.length) ++ bytes
  | byte id value _ => [id, value]
  | int id value _ => id :: be32 value.toNat

def id : ObexHeader → UInt8
  | unicode id .. => id
  | stream id .. => id
  | byte id .. => id
  | int id .. => id

def chars (bs : List UInt8) : String := String.ofList (bs.map fun b => Char.ofNat b.toNat)

/-- A text without the zero byte that may end it. -/
def dropTerminator (bs : List UInt8) : List UInt8 :=
  if bs.getLast? = some 0 then bs.dropLast else bs

/-- What a line should show of the value; an empty text shows as nothing. -/
def value : ObexHeader → String
  | unicode _ text _ _ _ => "\"" ++ chars (text.map Prod.snd) ++ "\" "
  | stream id bytes _ _ _ =>
    if (obexLabel id).2 then
      if bytes = [] then "" else "\"" ++ chars (dropTerminator bytes) ++ "\" "
    else s!"[{bytes.length} bytes] "
  | byte _ value _ => s!"{value.toNat} "
  | int _ value _ => s!"{value.toNat} "

def item (h : ObexHeader) : String := (obexLabel h.id).1 ++ h.value

/-- The headers that the program shows as they are: a one-byte value that happens to be the
identifier, a four-byte value that is not negative as a C `int`, and a text without a zero
byte inside. -/
def Plain : ObexHeader → Prop
  | unicode .. => True
  | stream id bytes _ _ _ => (obexLabel id).2 = true → 0 ∉ bytes.dropLast
  | byte id value _ => value = id
  | int _ value _ => value.toNat < 2 ^ 31

end ObexHeader

end Irdadump
