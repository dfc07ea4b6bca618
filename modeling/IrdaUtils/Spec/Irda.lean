import IrdaUtils.Lib.Arguments
import IrdaUtils.Lib.Columns
import IrdaUtils.Spec.Smcinit

/-! `irda`: the command line of `main.c` and `irias.c`, and the queries of `irda ias get`. An
argument is its bytes in front of the zero. What `irias_list` reads is left out. -/

namespace Irda

open Arguments Decimal Smcinit

abbrev Arg := List UInt8

def char (c : Char) : UInt8 := UInt8.ofNat c.toNat

inductive Message where
  | version
  | mainHelp
  | mainNoOption (option : Arg)
  | mainNoObject (object : Arg)
  | mainNoAction
  | mainErrParam (param : Arg)
  | mainNoComplete
  | iriasHelp
  | iriasNoOption (option : Arg)
  | iriasNoComplete
  | iriasNoIasclass
  | iriasNoIasattrib
  | iriasErrDaddr (daddr : Arg)
  deriving DecidableEq, Repr

/-- A message, and the status of the `exit` behind it. -/
structure Exit where
  status : ℕ
  message : Message
  deriving DecidableEq, Repr

/-! ### The general options -/

/-- `debug`, which nothing reads, is left out. -/
@[ext] structure Options where
  delay : BitVec 32
  count : BitVec 32
  fmtColumn : Bool
  fmtNoHeader : Bool
  fmtSep : UInt8
  deriving DecidableEq, Repr

def Options.default : Options := ⟨1, 0, false, false, char ':'⟩

/-- What is stored for a number that `strtoul` has read to its end: `abs` of it as an `int`. -/
def number (nptr : Arg) : Option (BitVec 32) :=
  let (v, endptr) := strtoul nptr
  if nptr = [] ∨ endptr ≠ [] then none else some (v.setWidth 32).abs

/-- The branches of `-d` and `-c` when there is an argument. -/
def numberOption (set : Options → BitVec 32 → Options) (o : Options) (nptr : Arg) :
    Except Exit Options :=
  match number nptr with
  | none => .error ⟨255, .mainErrParam nptr⟩
  | some n => .ok (set o n)

def Options.setDelay (o : Options) (n : BitVec 32) : Options := { o with delay := n }
def Options.setCount (o : Options) (n : BitVec 32) : Options := { o with count := n }
/-- The byte at `m_argv[arg_index][0]`, a zero if the argument is empty. -/
def Options.setSep (o : Options) (arg : Arg) : Options := { o with fmtSep := arg.headD 0 }
def Options.setColumn (o : Options) : Options := { o with fmtColumn := true }
def Options.setNoHeader (o : Options) : Options := { o with fmtNoHeader := true }

/-- A turn of the first loop of `main`. -/
def optionTurn (arg : Arg) : Turn Arg Exit Options :=
  if arg.head? ≠ some (char '-') then .stop
  else
    match arg.tail with
    | [] => .flag id
    | c :: _ =>
      if c = char 'V' then .fail ⟨0, .version⟩
      else if c = char 'h' then .fail ⟨255, .mainHelp⟩
      else if c = char 'D' then .flag id
      else if c = char 'C' then .flag .setColumn
      else if c = char 'H' then .flag .setNoHeader
      else if c = char 'S' then .value ⟨255, .mainNoComplete⟩ fun o v => .ok (o.setSep v)
      else if c = char 'd' then .value ⟨255, .mainNoComplete⟩ (numberOption .setDelay)
      else if c = char 'c' then .value ⟨255, .mainNoComplete⟩ (numberOption .setCount)
      else .fail ⟨255, .mainNoOption arg⟩

/-! ### The arguments of `get` -/

/-- `ias_data`, with the arrays of `query` that are filled here. -/
@[ext] structure IasData where
  isLocal : Bool
  daddr : BitVec 32
  irdaClassName : List UInt8
  irdaAttribName : List UInt8
  filename : List UInt8
  haveIasClass : ℕ
  haveIasAttrib : ℕ
  deriving DecidableEq, Repr

def IAS_EXPORT_CLASSNAME : ℕ := 64
def IAS_EXPORT_ATTRIBNAME : ℕ := 256
def PATH_MAX : ℕ := 4096

/-- The first `n` bytes of the string, and zeros up to `n`. -/
def strncpy (src : Arg) (n : ℕ) : List UInt8 := src.take n ++ List.replicate (n - src.length) 0

def IasData.init : IasData :=
  ⟨true, 0, strncpy [] IAS_EXPORT_CLASSNAME, strncpy [] IAS_EXPORT_ATTRIBNAME, strncpy [] PATH_MAX,
    0, 0⟩

/-- `strtoul` with the base 16. -/
def strtoulHex (nptr : Arg) : BitVec 64 × Arg :=
  let s := skipSpace nptr
  let neg := s.head? == some (char '-')
  let s := if neg || s.head? == some (char '+') then s.tail else s
  let s := if (numberBase s).1 = 16 then (numberBase s).2 else s
  let ds := s.takeWhile (digitValue · < 16)
  if ds = [] then (0, nptr)
  else
    let n := ds.foldl (fun n d => 16 * n + digitValue d) 0
    (if 2 ^ 64 ≤ n then -1 else if neg then -BitVec.ofNat 64 n else BitVec.ofNat 64 n,
      s.dropWhile (digitValue · < 16))

def deviceAddress (nptr : Arg) : Option (BitVec 32) :=
  let (v, endptr) := strtoulHex nptr
  if nptr = [] ∨ endptr ≠ [] then none else some (v.setWidth 32)

def IasData.setLocal (q : IasData) : IasData := { q with isLocal := true }
def IasData.setRemote (q : IasData) (daddr : BitVec 32) : IasData :=
  { q with isLocal := false, daddr := daddr }
def IasData.setClass (q : IasData) (arg : Arg) : IasData :=
  { q with
    irdaClassName := strncpy arg IAS_EXPORT_CLASSNAME
    haveIasClass := q.haveIasClass + 1 }
def IasData.setAttrib (q : IasData) (arg : Arg) : IasData :=
  { q with
    irdaAttribName := strncpy arg IAS_EXPORT_ATTRIBNAME
    haveIasAttrib := q.haveIasAttrib + 1 }
def IasData.setFilename (q : IasData) (arg : Arg) : IasData :=
  { q with filename := strncpy arg PATH_MAX }

/-- The branch of `remote` when there is an argument. -/
def remoteOption (q : IasData) (nptr : Arg) : Except Exit IasData :=
  match deviceAddress nptr with
  | none => .error ⟨1, .iriasErrDaddr nptr⟩
  | some daddr => .ok (q.setRemote daddr)

/-- `!strncmp(word, arg, 2)` for a word of two characters. -/
def starts (word : String) (arg : Arg) : Prop := ascii word <+: arg

instance (word : String) (arg : Arg) : Decidable (starts word arg) :=
  inferInstanceAs (Decidable (_ <+: _))

/-- A turn of the loop of `irias_get`. -/
def getTurn (arg : Arg) : Turn Arg Exit IasData :=
  if starts "lo" arg then .flag .setLocal
  else if starts "re" arg then .value ⟨255, .iriasNoComplete⟩ remoteOption
  else if starts "cl" arg then .value ⟨255, .iriasNoComplete⟩ fun q v => .ok (q.setClass v)
  else if starts "at" arg then .value ⟨255, .iriasNoComplete⟩ fun q v => .ok (q.setAttrib v)
  else if starts "fi" arg then .value ⟨255, .iriasNoComplete⟩ fun q v => .ok (q.setFilename v)
  else .fail ⟨255, .iriasNoOption arg⟩

/-- `irias_get` up to the socket. -/
def iriasGet (args : List Arg) : Except Exit IasData :=
  match loop getTurn .init args with
  | .error e => .error e
  | .ok (q, _) =>
    if q.haveIasClass = 0 then .error ⟨255, .iriasNoIasclass⟩
    else if q.haveIasAttrib = 0 then .error ⟨255, .iriasNoIasattrib⟩
    else .ok q

/-! ### The objects and their commands -/

/-- What a command line comes to. -/
inductive Action where
  | exit (e : Exit)
  | list
  | set
  | get (o : Options) (q : IasData)
  deriving DecidableEq, Repr

def iriasMain (o : Options) : List Arg → Action
  | [] => .list
  | arg :: rest =>
    if starts "he" arg then .exit ⟨255, .iriasHelp⟩
    else if starts "ge" arg then
      match iriasGet rest with
      | .error e => .exit e
      | .ok q => .get o q
    else if starts "se" arg then .set
    else if starts "ls" arg ∨ starts "sh" arg ∨ starts "li" arg then .list
    else .exit ⟨255, .iriasNoOption arg⟩

/-- `main` on the arguments behind the name of the program. -/
def main (args : List Arg) : Action :=
  if args = [] then .exit ⟨255, .mainHelp⟩
  else
    match loop optionTurn .default args with
    | .error e => .exit e
    | .ok (_, []) => .exit ⟨255, .mainNoAction⟩
    | .ok (o, arg :: rest) =>
      if starts "he" arg then .exit ⟨255, .mainHelp⟩
      else if starts "ia" arg then iriasMain o rest
      else .exit ⟨255, .mainNoObject arg⟩

/-! ### The answer to a query -/

/-- The bytes from `&m_query` on: a `struct irda_ias_set`, and what lies behind it. -/
abbrev IasSet := List UInt8

/-- The bytes of a string up to its zero. -/
def string (s : List UInt8) : List UInt8 := s.takeWhile (· ≠ 0)

/-- The bytes at `i`, as a little-endian number of `n` bytes. -/
def field (m : IasSet) (i n : ℕ) : ℕ := ((m.drop i).take n).foldr (fun b v => b.toNat + 256 * v) 0

namespace IasSet

def irdaClassName (m : IasSet) : List UInt8 := string m
def irdaAttribName (m : IasSet) : List UInt8 := string (m.drop 64)
def irdaAttribType (m : IasSet) : ℕ := field m 320 4
def irdaAttribInt (m : IasSet) : BitVec 32 := BitVec.ofNat 32 (field m 324 4)
def octetSeqLen (m : IasSet) : ℕ := field m 324 2
def octetSeq (m : IasSet) : List UInt8 := (m.drop 326).take m.octetSeqLen
def stringLen (m : IasSet) : ℕ := field m 324 1
def stringCharset (m : IasSet) : ℕ := field m 325 1
def stringString (m : IasSet) : List UInt8 := string (m.drop 326)

end IasSet

def charset : List (List UInt8) :=
  [ascii "ASCII", ascii "ISO-8859-1", ascii "ISO-8859-2", ascii "ISO-8859-3", ascii "ISO-8859-4",
    ascii "ISO-8859-5", ascii "ISO-8859-6", ascii "ISO-8859-7", ascii "ISO-8859-8",
    ascii "ISO-8859-9", ascii "UNICODE"]

/-- `getsockopt` and what it has stored, and for the file of the octets if it opens and how many
bytes `write` takes. -/
structure Reply where
  ok : Bool
  query : IasSet
  opens : Bool
  wlen : ℕ
  deriving DecidableEq, Repr

inductive End where
  | exit (status : ℕ)
  /-- `charset` is read behind its end. -/
  | fault
  deriving DecidableEq, Repr

/-- What is printed on `stdout`, the bytes that `write` takes, and how the program ends. -/
structure Entry where
  out : List UInt8
  wrote : Option (List UInt8)
  ended : Option End
  deriving DecidableEq, Repr

def iriasShowOctetseq (m : IasSet) : List UInt8 :=
  m.octetSeq.flatMap fun b => printHex 2 b.toNat ++ [char ' ']

section
variable (o : Options) (filename : List UInt8) (r : Reply)

/-- The names in front of the value. -/
def entryNames : List UInt8 :=
  if o.fmtColumn then r.query.irdaClassName ++ o.fmtSep :: r.query.irdaAttribName
  else
    ascii "Class: \"" ++ r.query.irdaClassName ++ ascii "\"\nAttribute: \"" ++
      r.query.irdaAttribName ++ ascii "\"\n"

/-- The case `IAS_INTEGER`. -/
def entryInteger : List UInt8 :=
  if o.fmtColumn then
    o.fmtSep :: ascii "integer" ++ o.fmtSep :: printInt r.query.irdaAttribInt.toInt ++ ascii "\n"
  else
    ascii "Attribute Type: Integer\nValue: " ++ printInt r.query.irdaAttribInt.toInt ++ ascii "\n"

/-- The case `IAS_OCT_SEQ`. -/
def entryOctets : Entry :=
  let kind :=
    if o.fmtColumn then o.fmtSep :: ascii "octetseq" ++ [o.fmtSep]
    else
      ascii "Attribute Type: Octet Sequence (length=" ++ print r.query.octetSeqLen ++ ascii ")\n"
  if string filename ≠ [] then
    if r.opens then
      let name :=
        if o.fmtColumn then ascii "(" ++ string filename ++ ascii ")\n"
        else ascii "Value: (file=" ++ string filename ++ ascii ")\n"
      ⟨kind ++ name, some (r.query.octetSeq.take r.wlen), none⟩
    else ⟨kind, none, none⟩
  else if o.fmtColumn then ⟨kind ++ iriasShowOctetseq r.query ++ ascii "\n", none, none⟩
  else ⟨kind ++ ascii "Value: " ++ iriasShowOctetseq r.query ++ ascii "\n", none, none⟩

/-- The case `IAS_STRING`. -/
def entryString : Entry :=
  if o.fmtColumn then
    ⟨o.fmtSep :: ascii "string" ++ o.fmtSep :: r.query.stringString ++ ascii "\n", none, none⟩
  else
    match charset[r.query.stringCharset]? with
    | none => ⟨[], none, some .fault⟩
    | some name =>
      ⟨ascii "Attribute Type: String (length=" ++ print r.query.stringLen ++ ascii ", charset=" ++
        name ++ ascii ")\nValue: \"" ++ r.query.stringString ++ ascii "\"\n", none, none⟩

/-- `irias_list_entry` behind the names. -/
def entryValue : Entry :=
  if r.query.irdaAttribType = 0 then ⟨[], none, none⟩
  else if r.query.irdaAttribType = 1 then ⟨entryInteger o r, none, none⟩
  else if r.query.irdaAttribType = 2 then entryOctets o filename r
  else if r.query.irdaAttribType = 3 then entryString o r
  else ⟨[], none, some (.exit 1)⟩

def iriasListEntry : Entry :=
  let e := entryValue o filename r
  { e with out := entryNames o r ++ e.out }

end

/-! ### The queries of a run -/

/-- The bytes of a file after a `write` at its start. The file has been opened without
`O_TRUNC`. -/
def overwrite (old bs : List UInt8) : List UInt8 := bs ++ old.drop bs.length

/-- `file` is what the file of the octets contains. -/
structure Run where
  count : BitVec 32
  out : List UInt8
  file : List UInt8
  ended : Option End
  deriving DecidableEq, Repr

def iriasGetExec (o : Options) (q : IasData) (s : Run) (r : Reply) : Run :=
  if r.ok then
    let e := iriasListEntry o q.filename r
    { s with
      out := s.out ++ e.out
      file := (e.wrote.map (overwrite s.file)).getD s.file
      ended := e.ended }
  else s

/-- The handler of `SIGALRM`. -/
def timeout (o : Options) (q : IasData) (s : Run) (r : Reply) : Run :=
  if s.count ≠ 0 then
    let s := iriasGetExec o q s r
    if s.ended = none then { s with count := s.count - 1 } else s
  else { s with ended := some (.exit 0) }

/-- With no `-c` there is one call of `irias_get_exec`; else there is one `turn` for every alarm,
and with the delay 0 no alarm comes. A `signal` is one of those that `cleanup` handles. -/
inductive Event where
  | turn (r : Reply)
  | signal
  deriving DecidableEq, Repr

def Run.step (o : Options) (q : IasData) (s : Run) : Event → Run
  | .signal => if s.ended = none then { s with ended := some (.exit 0) } else s
  | .turn r =>
    if s.ended ≠ none then s
    else if o.count = 0 then
      let s := iriasGetExec o q s r
      if s.ended = none then { s with ended := some (.exit 0) } else s
    else if o.delay = 0 then s
    else timeout o q s r

def header (o : Options) : List UInt8 :=
  if o.fmtColumn ∧ o.fmtNoHeader = false then
    ascii "class" ++ o.fmtSep :: ascii "attribute" ++ o.fmtSep :: ascii "type" ++
      o.fmtSep :: ascii "value\n"
  else []

/-- `irias_get` from the socket on. An error is the `errno` of a socket that is not there. -/
def start (o : Options) (socket : Except ℕ Unit) (file : List UInt8) : Run :=
  match socket with
  | .error errno => ⟨0, [], file, some (.exit errno)⟩
  | .ok () => ⟨o.count, header o, file, none⟩

def run (o : Options) (q : IasData) (socket : Except ℕ Unit) (file : List UInt8)
    (es : List Event) : Run :=
  es.foldl (Run.step o q) (start o socket file)

/-! ### The command line as it is meant -/

inductive Opt where
  | dash
  | debug
  | column
  | noHeader
  | sep (arg : Arg)
  | delay (n : BitVec 32)
  | count (n : BitVec 32)
  deriving DecidableEq, Repr

/-- An option is its first letter, whatever stands behind it. -/
inductive Opt.Spelled : Opt → List Arg → Prop
  | dash : Spelled .dash [[char '-']]
  | debug (t : Arg) : Spelled .debug [char '-' :: char 'D' :: t]
  | column (t : Arg) : Spelled .column [char '-' :: char 'C' :: t]
  | noHeader (t : Arg) : Spelled .noHeader [char '-' :: char 'H' :: t]
  | sep (t v : Arg) : Spelled (.sep v) [char '-' :: char 'S' :: t, v]
  | delay (t : Arg) {v : Arg} {n : BitVec 32} (h : number v = some n) :
      Spelled (.delay n) [char '-' :: char 'd' :: t, v]
  | count (t : Arg) {v : Arg} {n : BitVec 32} (h : number v = some n) :
      Spelled (.count n) [char '-' :: char 'c' :: t, v]

def Opt.delayOf : Opt → Option (BitVec 32)
  | .delay n => some n
  | _ => none

def Opt.countOf : Opt → Option (BitVec 32)
  | .count n => some n
  | _ => none

def Opt.sepOf : Opt → Option UInt8
  | .sep v => some (v.headD 0)
  | _ => none

/-- Of each kind the last option counts. -/
def meantOptions (os : List Opt) : Options where
  delay := lastOf Opt.delayOf os 1
  count := lastOf Opt.countOf os 0
  fmtColumn := decide (.column ∈ os)
  fmtNoHeader := decide (.noHeader ∈ os)
  fmtSep := lastOf Opt.sepOf os (char ':')

inductive Clause where
  | here
  | remote (daddr : BitVec 32)
  | ofClass (name : Arg)
  | attrib (name : Arg)
  | filename (name : Arg)
  deriving DecidableEq, Repr

/-- A clause is the first two letters of its word. -/
inductive Clause.Spelled : Clause → List Arg → Prop
  | here {a : Arg} (h : starts "lo" a) : Spelled .here [a]
  | remote {a v : Arg} {daddr : BitVec 32} (h : starts "re" a) (hv : deviceAddress v = some daddr) :
      Spelled (.remote daddr) [a, v]
  | ofClass {a : Arg} (h : starts "cl" a) (v : Arg) : Spelled (.ofClass v) [a, v]
  | attrib {a : Arg} (h : starts "at" a) (v : Arg) : Spelled (.attrib v) [a, v]
  | filename {a : Arg} (h : starts "fi" a) (v : Arg) : Spelled (.filename v) [a, v]

def Clause.isLocalOf : Clause → Option Bool
  | .here => some true
  | .remote _ => some false
  | _ => none

def Clause.daddrOf : Clause → Option (BitVec 32)
  | .remote daddr => some daddr
  | _ => none

def Clause.classOf : Clause → Option Arg
  | .ofClass name => some name
  | _ => none

def Clause.attribOf : Clause → Option Arg
  | .attrib name => some name
  | _ => none

def Clause.filenameOf : Clause → Option Arg
  | .filename name => some name
  | _ => none

/-- An address stays when the query is local in the end. -/
def meantData (cs : List Clause) : IasData where
  isLocal := lastOf Clause.isLocalOf cs true
  daddr := lastOf Clause.daddrOf cs 0
  irdaClassName := strncpy (lastOf Clause.classOf cs []) IAS_EXPORT_CLASSNAME
  irdaAttribName := strncpy (lastOf Clause.attribOf cs []) IAS_EXPORT_ATTRIBNAME
  filename := strncpy (lastOf Clause.filenameOf cs []) PATH_MAX
  haveIasClass := (cs.filterMap Clause.classOf).length
  haveIasAttrib := (cs.filterMap Clause.attribOf).length

/-! ### The answers as they are meant -/

/-- The reply ends the program. -/
def Reply.Ends (o : Options) (r : Reply) : Prop :=
  r.ok = true ∧ (3 < r.query.irdaAttribType ∨ r.query.irdaAttribType = 3 ∧ o.fmtColumn = false ∧
    charset.length ≤ r.query.stringCharset)

instance (o : Options) (r : Reply) : Decidable (r.Ends o) := inferInstanceAs (Decidable (_ ∧ _))

/-- How often an answer is asked for, at most. -/
def Options.turns (o : Options) : ℕ :=
  if o.count = 0 then 1 else if o.delay = 0 then 0 else o.count.toNat

/-- The replies to the first `n` turns, up to a signal or a reply that ends the program. -/
def asked (o : Options) : ℕ → List Event → List Reply
  | n + 1, .turn r :: es => r :: if r.Ends o then [] else asked o n es
  | _, _ => []

/-- The replies of a run in which the call has not failed. -/
def answered (o : Options) (es : List Event) : List Reply := (asked o o.turns es).filter (·.ok)

inductive Value where
  | integer (n : BitVec 32)
  | octets (bs : List UInt8)
  | file (name : List UInt8)
  | text (s : List UInt8)
  deriving DecidableEq, Repr

structure Attribute where
  className : List UInt8
  name : List UInt8
  value : Value
  deriving DecidableEq, Repr

/-- The value that is printed for a reply, if there is one. -/
def Reply.value (filename : List UInt8) (r : Reply) : Option Value :=
  if r.query.irdaAttribType = 1 then some (.integer r.query.irdaAttribInt)
  else if r.query.irdaAttribType = 2 then
    if string filename = [] then some (.octets r.query.octetSeq)
    else if r.opens then some (.file (string filename)) else none
  else if r.query.irdaAttribType = 3 then some (.text r.query.stringString)
  else none

def Reply.attribute (filename : List UInt8) (r : Reply) : Option Attribute :=
  (r.value filename).map (⟨r.query.irdaClassName, r.query.irdaAttribName, ·⟩)

/-- Pairs of digits with a blank behind each. -/
def readOctets : List UInt8 → List UInt8
  | h :: l :: _ :: rest => UInt8.ofNat (16 * digitValue h + digitValue l) :: readOctets rest
  | _ => []

def readValue (kind s : List UInt8) : Option Value :=
  if kind = ascii "integer" then (scanUnsigned (s ++ [char '\n'])).map (.integer ·.1)
  else if kind = ascii "octetseq" then
    if s.head? = some (char '(') then some (.file s.tail.dropLast) else some (.octets (readOctets s))
  else if kind = ascii "string" then some (.text s)
  else none

/-- A line of columns with the separator `sep`. -/
def readRow (sep : UInt8) (line : List UInt8) : Option Attribute :=
  match Columns.cut sep 3 line with
  | [className, name, kind, s] => (readValue kind s).map (⟨className, name, ·⟩)
  | _ => none

/-- The bytes of the reply that are written to the file, if it is. -/
def Reply.stored (filename : List UInt8) (r : Reply) : Option (List UInt8) :=
  if r.query.irdaAttribType = 2 ∧ string filename ≠ [] ∧ r.opens = true then
    some (r.query.octetSeq.take r.wlen)
  else none

/-- The rows that are printed with `-C`. -/
def readRows (o : Options) (out : List UInt8) : List (Option Attribute) :=
  ((Columns.lines (char '\n') out).map (readRow o.fmtSep)).drop (if o.fmtNoHeader then 0 else 1)

end Irda
