import IrdaUtils.Lib.Memory

/-! The network buffer of `netbuf.c`. Pointers are heap addresses and the heap is
carried along with the buffer. `len` and `truesize` are `guint`, so their
arithmetic is modulo `2 ^ 32`. `realloc` is code outside the program: a call is
given its outcome, the new block and the heap after it, or failure. -/

namespace Irdadump
open Memory

structure GNetBuf where
  data : ℕ
  head : ℕ
  tail : ℕ
  end_ : ℕ
  len : ℕ
  truesize : ℕ
  mem : Mem

/-- What `realloc (p, n)` answers on a heap. -/
abbrev Realloc := Mem → ℕ → ℕ → Option (ℕ × Mem)

def guint (n : ℕ) : ℕ := n % 2 ^ 32

/-- `g_malloc` ends the program when memory is short, and answers `NULL` only for
a request of no bytes. -/
def gMalloc (base n : ℕ) : Option ℕ := if n = 0 then none else some base

def gNetbufRecycle (msg : GNetBuf) : GNetBuf :=
  { msg with data := msg.head, tail := msg.head, len := 0, end_ := msg.head + msg.truesize }

def gNetbufNew (base : ℕ) (heap : Mem) (len : ℕ) : Option GNetBuf :=
  match gMalloc base len with
  | none => none
  | some buf =>
    some (gNetbufRecycle
      { data := 0, head := buf, tail := 0, end_ := 0, len := 0, truesize := len, mem := heap })

def gNetbufRealloc (re : Realloc) (msg : GNetBuf) (len : ℕ) : Option GNetBuf :=
  match re msg.mem msg.head len with
  | none => none
  | some (buf, heap) =>
    some { msg with
      truesize := len
      data := buf + (msg.data - msg.head)
      tail := buf + (msg.tail - msg.head)
      head := buf
      end_ := buf + len
      mem := heap }

/-- The pointer is `NULL` when the buffer could not grow; `tail` and `len` have
moved by then. -/
def gNetbufPut (re : Realloc) (msg : GNetBuf) (len : ℕ) : Option ℕ × GNetBuf :=
  let tmp := msg.tail
  let msg := { msg with tail := msg.tail + len, len := guint (msg.len + len) }
  if msg.end_ < msg.tail then
    match gNetbufRealloc re msg (guint (msg.truesize + len)) with
    | none => (none, msg)
    | some msg => (some (msg.tail - len), msg)
  else (some tmp, msg)

def gNetbufPutData (re : Realloc) (msg : GNetBuf) (data : List UInt8) : Option ℕ × GNetBuf :=
  match gNetbufPut re msg data.length with
  | (none, msg) => (none, msg)
  | (some tmp, msg) => (some tmp, { msg with mem := store msg.mem tmp data })

/-- The room in front is tested on pointers, `data - len < head`. -/
def gNetbufPush (re : Realloc) (msg : GNetBuf) (len : ℕ) : Option ℕ × GNetBuf :=
  let push (msg : GNetBuf) : Option ℕ × GNetBuf :=
    (some (msg.data - len), { msg with data := msg.data - len, len := guint (msg.len + len) })
  if (msg.data : ℤ) - len < msg.head then
    match gNetbufRealloc re msg (guint (msg.truesize + len)) with
    | none => (none, msg)
    | some msg =>
      push { msg with
        mem := store msg.mem (msg.data + len) (load msg.mem msg.data msg.len)
        data := msg.data + len
        tail := msg.tail + len }
  else push msg

def gNetbufPrependHdr (re : Realloc) (msg : GNetBuf) (hdr : List UInt8) : Option ℕ × GNetBuf :=
  match gNetbufPush re msg hdr.length with
  | (none, msg) => (none, msg)
  | (some tmp, msg) => (some tmp, { msg with mem := store msg.mem tmp hdr })

def gNetbufPull (msg : GNetBuf) (len : ℕ) : Option ℕ × GNetBuf :=
  if msg.len < len then (none, msg)
  else (some (msg.data + len), { msg with len := msg.len - len, data := msg.data + len })

def gNetbufReserve (msg : GNetBuf) (len : ℕ) : GNetBuf :=
  { msg with data := msg.data + len, tail := msg.tail + len }

def gNetbufTailroom (msg : GNetBuf) : ℕ := msg.end_ - msg.tail

def gNetbufTrim (msg : GNetBuf) (len : ℕ) : GNetBuf :=
  if len < msg.len then { msg with len := len, tail := msg.data + len } else msg

/-- The bytes `data .. data + len`. -/
def GNetBuf.bytes (msg : GNetBuf) : List UInt8 := load msg.mem msg.data msg.len

end Irdadump
