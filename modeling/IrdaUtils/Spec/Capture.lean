import IrdaUtils.Lib.ByteOrder
import IrdaUtils.Spec.NetBuf

/-! The capture files of `capture.c`. The structures are written to the file as they
lie in memory (none has padding), so their integers are in the byte order of the
host. An open file is the list of its bytes: what has been written, or what is left
to read. Writes are complete and a read is short only at the end of the file. -/

namespace Irdadump
open Memory ByteOrder

structure Timeval where
  tvSec : ℤ
  tvUsec : ℤ
  deriving DecidableEq, Repr

/-- `struct sockaddr_ll`, less its family: `sllProtocol` is as the socket gave it. -/
structure SockaddrLl where
  sllProtocol : UInt16
  sllIfindex : ℤ
  sllHatype : UInt16
  sllPkttype : UInt8
  sllHalen : UInt8
  sllAddr : Fin 8 → UInt8

structure SllHeader where
  sllPkttype : UInt16
  sllHatype : UInt16
  sllHalen : UInt16
  sllAddr : Fin 8 → UInt8
  sllProtocol : UInt16

def sizeofSllHeader : ℕ := 16
def sizeofPcaprecHdr : ℕ := 16
def sizeofPcapHdr : ℕ := 24

structure PcaprecHdr where
  tsSec : ℕ
  tsUsec : ℕ
  inclLen : ℕ
  origLen : ℕ

structure PcapHdr where
  magic : ℕ
  versionMajor : ℕ
  versionMinor : ℕ
  thiszone : ℕ
  sigfigs : ℕ
  snaplen : ℕ
  network : ℕ

def dltLinuxIrda : ℕ := 144

def fileHeader : PcapHdr where
  magic := 0xa1b2c3d4
  versionMajor := 2
  versionMinor := 0
  thiszone := 0
  sigfigs := 0
  snaplen := 2050 + sizeofSllHeader
  network := dltLinuxIrda

def PcapHdr.toBytes (o : Order) (h : PcapHdr) : List UInt8 :=
  bytesOf o 4 h.magic ++ bytesOf o 2 h.versionMajor ++ bytesOf o 2 h.versionMinor ++
    bytesOf o 4 h.thiszone ++ bytesOf o 4 h.sigfigs ++ bytesOf o 4 h.snaplen ++
    bytesOf o 4 h.network

def PcaprecHdr.toBytes (o : Order) (h : PcaprecHdr) : List UInt8 :=
  bytesOf o 4 h.tsSec ++ bytesOf o 4 h.tsUsec ++ bytesOf o 4 h.inclLen ++ bytesOf o 4 h.origLen

def SllHeader.toBytes (o : Order) (h : SllHeader) : List UInt8 :=
  bytesOf o 2 h.sllPkttype.toNat ++ bytesOf o 2 h.sllHatype.toNat ++
    bytesOf o 2 h.sllHalen.toNat ++ List.ofFn h.sllAddr ++ bytesOf o 2 h.sllProtocol.toNat

/-- The integer of `k` bytes at offset `i` of a structure. -/
def field (o : Order) (bs : List UInt8) (i k : ℕ) : ℕ := ofBytes o ((bs.drop i).take k)

/-! ### Writing -/

def capwriteInit (o : Order) : List UInt8 := fileHeader.toBytes o

def packetHost : UInt8 := 0
def packetBroadcast : UInt8 := 1
def packetMulticast : UInt8 := 2
def packetOtherhost : UInt8 := 3
def packetOutgoing : UInt8 := 4

/-- `hdrp` holds what was on the stack: address bytes beyond `sll_halen` stay. -/
def capwriteFillsll (o : Order) (hdrp : SllHeader) (src : SockaddrLl) : SllHeader where
  sllPkttype :=
    if src.sllPkttype = packetHost then htons o 0
    else if src.sllPkttype = packetBroadcast then htons o 1
    else if src.sllPkttype = packetMulticast then htons o 2
    else if src.sllPkttype = packetOtherhost then htons o 3
    else if src.sllPkttype = packetOutgoing then htons o 4
    else 0xffff
  sllHatype := htons o src.sllHatype
  sllHalen := htons o src.sllHalen.toUInt16
  sllAddr := fun i =>
    if i.val < (if src.sllHalen.toNat > 8 then 8 else src.sllHalen.toNat) then src.sllAddr i
    else hdrp.sllAddr i
  sllProtocol := src.sllProtocol

/-- The `__u32` that a signed field is assigned to. -/
def toU32 (z : ℤ) : ℕ := (z % 2 ^ 32).toNat

/-- The record that `capwrite_dump` appends to the file. -/
def capwriteDump (o : Order) (stack : SllHeader) (frameBuf : GNetBuf) (len : ℕ)
    (src : SockaddrLl) (currTime : Timeval) : List UInt8 :=
  let recHdr : PcaprecHdr :=
    { tsSec := toU32 currTime.tvSec
      tsUsec := toU32 currTime.tvUsec
      inclLen := toU32 (len + sizeofSllHeader)
      origLen := toU32 (len + sizeofSllHeader) }
  let psdHdr := capwriteFillsll o stack src
  recHdr.toBytes o ++ psdHdr.toBytes o ++ load frameBuf.mem frameBuf.head len

/-! ### Reading -/

/-- `0`, or `-1` for a file that is too short or has another header, and what is
left of the file. -/
def capreadCheck (o : Order) (fd : List UInt8) : ℤ × List UInt8 :=
  let readHeader := fd.take sizeofPcapHdr
  let fd := fd.drop sizeofPcapHdr
  if readHeader.length ≠ sizeofPcapHdr then (-1, fd)
  else if field o readHeader 0 4 ≠ fileHeader.magic ∨
      field o readHeader 4 2 ≠ fileHeader.versionMajor ∨
      field o readHeader 6 2 ≠ fileHeader.versionMinor ∨
      field o readHeader 20 4 ≠ fileHeader.network then (-1, fd)
  else (0, fd)

/-- The `int` that a wider value is truncated to. -/
def toInt32 (z : ℤ) : ℤ := Int.bmod z (2 ^ 32)

/-- The `size_t` that an `int` count is converted to. -/
def toSize (z : ℤ) : ℕ := (z % 2 ^ 64).toNat

/-- The answer of `read`, and the bytes that it stores; a count above `SSIZE_MAX` is refused. -/
def readFd (fd : List UInt8) (count : ℕ) : ℤ × List UInt8 :=
  if count < 2 ^ 63 then ((fd.take count).length, fd.take count) else (-1, [])

/-- What `capread_get` reads from and stores through its pointers. -/
structure Capread where
  fd : List UInt8
  frameBuf : GNetBuf
  plen : ℤ
  pdir : ℤ
  pprot : ℤ
  currTime : Timeval

def capreadGet (o : Order) (c : Capread) : ℤ × Capread :=
  let recHdr := c.fd.take sizeofPcaprecHdr
  let c := { c with fd := c.fd.drop sizeofPcaprecHdr }
  if recHdr.length ≠ sizeofPcaprecHdr then (-1, c)
  else
    let c := { c with
      currTime := ⟨field o recHdr 0 4, field o recHdr 4 4⟩
      plen := toInt32 ((field o recHdr 12 4 : ℤ) - sizeofSllHeader) }
    let psdHdr := c.fd.take sizeofSllHeader
    let c := { c with fd := c.fd.drop sizeofSllHeader }
    if psdHdr.length ≠ sizeofSllHeader then (-1, c)
    else
      let c := { c with
        pdir := if field o psdHdr 0 2 ≠ 0 then 1 else 0
        pprot := field o psdHdr 14 2 }
      let r := readFd c.fd (toSize c.plen)
      let c := { c with
        fd := c.fd.drop r.2.length
        frameBuf := { c.frameBuf with mem := store c.frameBuf.mem c.frameBuf.head r.2 } }
      if r.1 ≠ c.plen then (-1, c) else (0, c)

/-! The record at the front of a file, as `capread_get` takes it. -/

/-- `*plen` for the record at the front of the file. -/
def recordLen (o : Order) (fd : List UInt8) : ℤ :=
  toInt32 ((field o (fd.take sizeofPcaprecHdr) 12 4 : ℤ) - sizeofSllHeader)

/-- Its protocol. -/
def recordProt (o : Order) (fd : List UInt8) : ℕ :=
  field o ((fd.drop sizeofPcaprecHdr).take sizeofSllHeader) 14 2

/-- What `read` answers for it. -/
def recordRead (o : Order) (fd : List UInt8) : ℤ :=
  (readFd ((fd.drop sizeofPcaprecHdr).drop sizeofSllHeader) (toSize (recordLen o fd))).1

/-- What `read` puts in the buffer for it. -/
def recordData (o : Order) (fd : List UInt8) : List UInt8 :=
  (readFd ((fd.drop sizeofPcaprecHdr).drop sizeofSllHeader) (toSize (recordLen o fd))).2

end Irdadump
