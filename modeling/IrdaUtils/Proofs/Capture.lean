import IrdaUtils.Spec.Capture

/-! Capture files are read back as they were written, also when the file was cut off
at any byte. -/

namespace Irdadump
open Memory ByteOrder

theorem field_here (o : Order) (a b : List UInt8) : field o (a ++ b) 0 a.length = ofBytes o a := by
  simp [field]

theorem field_skip (o : Order) (a b : List UInt8) (i k : ℕ) :
    field o (a ++ b) (a.length + i) k = field o b i k := by
  simp [field, List.drop_append, List.drop_eq_nil_of_le]

/-- The integer that was stored is read where it was stored. -/
theorem field_bytesOf (o : Order) (k n : ℕ) (b : List UInt8) :
    field o (bytesOf o k n ++ b) 0 k = n % 256 ^ k := by
  have h := field_here o (bytesOf o k n) b
  rwa [bytesOf_length, ofBytes_bytesOf] at h

theorem field_bytesOf_skip (o : Order) (j n : ℕ) (b : List UInt8) (i k : ℕ) :
    field o (bytesOf o j n ++ b) (j + i) k = field o b i k := by
  have h := field_skip o (bytesOf o j n) b i k
  rwa [bytesOf_length] at h

theorem pcaprecHdr_fields (o : Order) (h : PcaprecHdr) :
    field o (h.toBytes o) 0 4 = h.tsSec % 2 ^ 32 ∧ field o (h.toBytes o) 4 4 = h.tsUsec % 2 ^ 32 ∧
      field o (h.toBytes o) 12 4 = h.origLen % 2 ^ 32 := by
  have e : h.toBytes o = bytesOf o 4 h.tsSec ++ (bytesOf o 4 h.tsUsec ++
      (bytesOf o 4 h.inclLen ++ (bytesOf o 4 h.origLen ++ []))) := by
    simp [PcaprecHdr.toBytes]
  rw [e]
  refine ⟨field_bytesOf o 4 _ _, ?_, ?_⟩
  · rw [show (4 : ℕ) = 4 + 0 from rfl, field_bytesOf_skip, field_bytesOf]
    norm_num
  · rw [show (12 : ℕ) = 4 + (4 + (4 + 0)) from rfl, field_bytesOf_skip, field_bytesOf_skip,
      field_bytesOf_skip, field_bytesOf]
    norm_num

theorem sllHeader_fields (o : Order) (h : SllHeader) :
    field o (h.toBytes o) 0 2 = h.sllPkttype.toNat ∧
      field o (h.toBytes o) 14 2 = h.sllProtocol.toNat := by
  have e : h.toBytes o = bytesOf o 2 h.sllPkttype.toNat ++ (bytesOf o 2 h.sllHatype.toNat ++
      (bytesOf o 2 h.sllHalen.toNat ++ (List.ofFn h.sllAddr ++
        (bytesOf o 2 h.sllProtocol.toNat ++ [])))) := by
    simp [SllHeader.toBytes]
  have hskip := field_skip o (List.ofFn h.sllAddr) (bytesOf o 2 h.sllProtocol.toNat ++ []) 0 2
  rw [List.length_ofFn] at hskip
  rw [e]
  constructor
  · rw [field_bytesOf]
    exact Nat.mod_eq_of_lt h.sllPkttype.toNat_lt
  · rw [show (14 : ℕ) = 2 + (2 + (2 + (8 + 0))) from rfl, field_bytesOf_skip, field_bytesOf_skip,
      field_bytesOf_skip, hskip, field_bytesOf]
    exact Nat.mod_eq_of_lt h.sllProtocol.toNat_lt

@[simp] theorem pcapHdr_length (o : Order) (h : PcapHdr) : (h.toBytes o).length = 24 := by
  simp [PcapHdr.toBytes]

@[simp] theorem pcaprecHdr_length (o : Order) (h : PcaprecHdr) : (h.toBytes o).length = 16 := by
  simp [PcaprecHdr.toBytes]

@[simp] theorem sllHeader_length (o : Order) (h : SllHeader) : (h.toBytes o).length = 16 := by
  simp [SllHeader.toBytes]

/-- Any type but `PACKET_HOST` is stored as a number other than zero. -/
theorem fillsll_pkttype (o : Order) (stack : SllHeader) (src : SockaddrLl) :
    (capwriteFillsll o stack src).sllPkttype.toNat ≠ 0 ↔ src.sllPkttype ≠ packetHost := by
  simp only [capwriteFillsll]
  by_cases h : src.sllPkttype = packetHost
  · cases o <;> simp [h, htons, swap16]
  · rw [if_neg h]
    cases o <;> split_ifs <;> simp [h, htons, swap16]

/-! ### One record -/

/-- The arguments of one call of `capwrite_dump`. -/
structure Dump where
  stack : SllHeader
  frameBuf : GNetBuf
  len : ℕ
  src : SockaddrLl
  time : Timeval

/-- Frames have at most `MAX_FRAME_SIZE` bytes and times fit the record. -/
structure Dump.Ok (d : Dump) : Prop where
  len_le : d.len ≤ 2050
  sec : 0 ≤ d.time.tvSec ∧ d.time.tvSec < 2 ^ 32
  usec : 0 ≤ d.time.tvUsec ∧ d.time.tvUsec < 2 ^ 32

def Dump.frame (d : Dump) : List UInt8 := load d.frameBuf.mem d.frameBuf.head d.len

def Dump.record (o : Order) (d : Dump) : List UInt8 :=
  capwriteDump o d.stack d.frameBuf d.len d.src d.time

def Dump.size (d : Dump) : ℕ := sizeofPcaprecHdr + sizeofSllHeader + d.len

/-- What a successful `capread_get` hands to its caller. -/
structure Packet where
  len : ℤ
  frame : List UInt8
  dir : ℤ
  prot : ℤ
  time : Timeval
  deriving DecidableEq

def Capread.packet (c : Capread) : Packet where
  len := c.plen
  frame := load c.frameBuf.mem c.frameBuf.head c.plen.toNat
  dir := c.pdir
  prot := c.pprot
  time := c.currTime

def Dump.packet (d : Dump) : Packet where
  len := d.len
  frame := d.frame
  dir := if d.src.sllPkttype ≠ packetHost then 1 else 0
  prot := d.src.sllProtocol.toNat
  time := d.time

def Dump.recHdr (d : Dump) : PcaprecHdr where
  tsSec := toU32 d.time.tvSec
  tsUsec := toU32 d.time.tvUsec
  inclLen := toU32 (d.len + sizeofSllHeader)
  origLen := toU32 (d.len + sizeofSllHeader)

theorem record_eq (o : Order) (d : Dump) :
    d.record o = d.recHdr.toBytes o ++ ((capwriteFillsll o d.stack d.src).toBytes o ++ d.frame) := by
  simp [Dump.record, capwriteDump, Dump.recHdr, Dump.frame]

@[simp] theorem frame_length (d : Dump) : d.frame.length = d.len := load_length _ _ _

theorem record_length (o : Order) (d : Dump) : (d.record o).length = d.size := by
  simp [record_eq, Dump.size, sizeofPcaprecHdr, sizeofSllHeader]
  omega

theorem toU32_of_range {z : ℤ} (h : 0 ≤ z ∧ z < 2 ^ 32) : (toU32 z : ℤ) = z := by
  rw [toU32, Int.emod_eq_of_lt h.1 h.2, Int.toNat_of_nonneg h.1]

theorem toU32_lt (z : ℤ) : toU32 z < 2 ^ 32 := by
  unfold toU32
  omega

/-- The header fields of the record, as `capread_get` reads them. -/
theorem recHdr_read (o : Order) {d : Dump} (h : d.Ok) :
    (⟨field o (d.recHdr.toBytes o) 0 4, field o (d.recHdr.toBytes o) 4 4⟩ : Timeval) = d.time ∧
      toInt32 ((field o (d.recHdr.toBytes o) 12 4 : ℤ) - sizeofSllHeader) = d.len := by
  obtain ⟨h1, h2, h3⟩ := pcaprecHdr_fields o d.recHdr
  have hl := h.len_le
  have e : (toU32 ((d.len : ℤ) + sizeofSllHeader) : ℤ) = d.len + sizeofSllHeader :=
    toU32_of_range (by simp only [sizeofSllHeader]; omega)
  rw [h1, h2, h3]
  simp only [Dump.recHdr, Nat.mod_eq_of_lt (toU32_lt _)]
  constructor
  · rw [toU32_of_range h.sec, toU32_of_range h.usec]
  · rw [e, add_sub_cancel_right, toInt32]
    exact Int.bmod_eq_of_le (by omega) (by omega)

/-! ### One call of `capread_get` -/

theorem both_headers {fd : List UInt8} (h : sizeofPcaprecHdr + sizeofSllHeader ≤ fd.length) :
    (fd.take sizeofPcaprecHdr).length = sizeofPcaprecHdr ∧
      ((fd.drop sizeofPcaprecHdr).take sizeofSllHeader).length = sizeofSllHeader := by
  rw [List.length_take, List.length_take, List.length_drop]
  omega

theorem second_header_missing {fd : List UInt8} (h : fd.length < sizeofPcaprecHdr + sizeofSllHeader)
    (h1 : (fd.take sizeofPcaprecHdr).length = sizeofPcaprecHdr) :
    ((fd.drop sizeofPcaprecHdr).take sizeofSllHeader).length ≠ sizeofSllHeader := by
  rw [List.length_take] at h1
  rw [List.length_take, List.length_drop]
  omega

/-- A file without two headers in front is not read further. -/
theorem capreadGet_headless {o : Order} {c : Capread}
    (h : c.fd.length < sizeofPcaprecHdr + sizeofSllHeader) :
    (capreadGet o c).1 = -1 ∧ (capreadGet o c).2.frameBuf = c.frameBuf := by
  unfold capreadGet
  simp only
  by_cases h1 : (c.fd.take sizeofPcaprecHdr).length = sizeofPcaprecHdr
  · rw [if_neg (not_not.2 h1), if_pos (second_header_missing h h1)]
    exact ⟨rfl, rfl⟩
  · rw [if_pos h1]
    exact ⟨rfl, rfl⟩

/-- What `capread_get` leaves when it has read both headers. -/
def Capread.record (o : Order) (c : Capread) : Capread where
  fd := ((c.fd.drop sizeofPcaprecHdr).drop sizeofSllHeader).drop (recordData o c.fd).length
  frameBuf := { c.frameBuf with mem := store c.frameBuf.mem c.frameBuf.head (recordData o c.fd) }
  plen := recordLen o c.fd
  pdir := if field o ((c.fd.drop sizeofPcaprecHdr).take sizeofSllHeader) 0 2 ≠ 0 then 1 else 0
  pprot := recordProt o c.fd
  currTime := ⟨field o (c.fd.take sizeofPcaprecHdr) 0 4, field o (c.fd.take sizeofPcaprecHdr) 4 4⟩

theorem readFd_of_lt {fd : List UInt8} {count : ℕ} (h : count < 2 ^ 63) :
    readFd fd count = (((fd.take count).length : ℤ), fd.take count) := if_pos h

theorem toU32_natCast {n : ℕ} (h : n < 2 ^ 32) : toU32 n = n := by
  unfold toU32
  omega

theorem recordLen_lt (o : Order) (fd : List UInt8) : recordLen o fd < 2 ^ 31 := by
  have := Int.bmod_lt (x := (field o (fd.take sizeofPcaprecHdr) 12 4 : ℤ) - sizeofSllHeader)
    (m := 2 ^ 32) (by decide)
  exact this.trans_le (by decide)

/-- For a record that is as long as its own header, `read` is asked for what it can do. -/
theorem recordRead_of_nonneg {o : Order} {fd : List UInt8} (h : 0 ≤ recordLen o fd) :
    recordRead o fd = (recordData o fd).length := by
  have hlt := recordLen_lt o fd
  rw [recordRead, recordData, readFd_of_lt (by unfold toSize; omega)]

/-- Behind two headers the outcome depends on whether `read` answers with the length. -/
theorem capreadGet_headed {o : Order} {c : Capread}
    (h : sizeofPcaprecHdr + sizeofSllHeader ≤ c.fd.length) :
    capreadGet o c =
      (if recordRead o c.fd = recordLen o c.fd then 0 else -1, c.record o) := by
  obtain ⟨h1, h2⟩ := both_headers h
  have hget : capreadGet o c = if recordRead o c.fd ≠ recordLen o c.fd then
      (-1, c.record o) else (0, c.record o) := by
    unfold capreadGet
    exact (if_neg (not_not.2 h1)).trans (if_neg (not_not.2 h2))
  rw [hget]
  by_cases hdata : recordRead o c.fd = recordLen o c.fd
  · rw [if_neg (not_not.2 hdata), if_pos hdata]
  · rw [if_pos hdata, if_neg hdata]

/-- Where both headers of a record are in the file, the outcome depends only on
whether its frame is. -/
theorem capreadGet_headers {o : Order} {d : Dump} (h : d.Ok) {c : Capread} {more : List UInt8}
    (hfd : c.fd = d.recHdr.toBytes o ++ ((capwriteFillsll o d.stack d.src).toBytes o ++ more)) :
    capreadGet o c =
      (if ((more.take d.len).length : ℤ) = d.len then 0 else -1,
        { fd := more.drop d.len
          frameBuf := { c.frameBuf with
            mem := store c.frameBuf.mem c.frameBuf.head (more.take d.len) }
          plen := d.len
          pdir := d.packet.dir
          pprot := d.packet.prot
          currTime := d.time }) := by
  obtain ⟨htime, hlen⟩ := recHdr_read o h
  obtain ⟨hpkt, hprot⟩ := sllHeader_fields o (capwriteFillsll o d.stack d.src)
  have hl := h.len_le
  have hsize : toSize (d.len : ℤ) = d.len := by
    unfold toSize
    omega
  have hdir : (if (capwriteFillsll o d.stack d.src).sllPkttype.toNat ≠ 0 then (1 : ℤ) else 0) =
      d.packet.dir := by
    simp only [fillsll_pkttype]
    rfl
  have t1 : c.fd.take sizeofPcaprecHdr = d.recHdr.toBytes o := by
    rw [hfd, List.take_left' (by simp [sizeofPcaprecHdr])]
  have d1 : c.fd.drop sizeofPcaprecHdr =
      (capwriteFillsll o d.stack d.src).toBytes o ++ more := by
    rw [hfd, List.drop_left' (by simp [sizeofPcaprecHdr])]
  have t2 : ((capwriteFillsll o d.stack d.src).toBytes o ++ more).take sizeofSllHeader =
      (capwriteFillsll o d.stack d.src).toBytes o := List.take_left' (by simp [sizeofSllHeader])
  have d2 : ((capwriteFillsll o d.stack d.src).toBytes o ++ more).drop sizeofSllHeader = more :=
    List.drop_left' (by simp [sizeofSllHeader])
  have hrecord : recordLen o c.fd = d.len := by
    rw [recordLen, t1, hlen]
  have hdata : recordData o c.fd = more.take d.len := by
    have hlt : d.len < 2 ^ 63 := by omega
    rw [recordData, hrecord, d1, d2, hsize, readFd_of_lt hlt]
  have hread : recordRead o c.fd = (more.take d.len).length := by
    rw [recordRead_of_nonneg (by omega), hdata]
  have hheaders : sizeofPcaprecHdr + sizeofSllHeader ≤ c.fd.length := by
    simp [hfd, sizeofPcaprecHdr, sizeofSllHeader]
    omega
  have hrest : more.drop (more.take d.len).length = more.drop d.len := by
    rw [List.drop_eq_drop_iff, List.length_take]
    omega
  rw [capreadGet_headed hheaders, Capread.record]
  simp only [recordProt, hread, hrecord, hdata, t1, d1, t2, d2, hrest, hpkt, hprot, htime, hdir]
  rfl

/-- A complete record is read back, and the next one follows. -/
theorem capreadGet_record {o : Order} {d : Dump} (h : d.Ok) {c : Capread} {rest : List UInt8}
    (hfd : c.fd = d.record o ++ rest) :
    ∃ c', capreadGet o c = (0, c') ∧ c'.fd = rest ∧ c'.packet = d.packet := by
  rw [record_eq, List.append_assoc, List.append_assoc] at hfd
  have e := capreadGet_headers h hfd
  have ht : (d.frame ++ rest).take d.len = d.frame := List.take_left' (frame_length d)
  have hd : (d.frame ++ rest).drop d.len = rest := List.drop_left' (frame_length d)
  rw [ht, hd, if_pos (by simp)] at e
  refine ⟨_, e, rfl, ?_⟩
  have hload := load_store c.frameBuf.mem c.frameBuf.head d.frame
  rw [frame_length] at hload
  simp only [Capread.packet, Dump.packet, Int.toNat_natCast, hload]

/-- A record that the file does not hold completely is not read. -/
theorem capreadGet_short {o : Order} {d : Dump} (h : d.Ok) {c : Capread} {k : ℕ}
    (hfd : c.fd = (d.record o).take k) (hk : k < d.size) : (capreadGet o c).1 = -1 := by
  by_cases h2 : k < sizeofPcaprecHdr + sizeofSllHeader
  · refine (capreadGet_headless ?_).1
    rw [hfd, List.length_take]
    omega
  · have e : c.fd = d.recHdr.toBytes o ++
        ((capwriteFillsll o d.stack d.src).toBytes o ++ d.frame.take (k - 32)) := by
      simp only [sizeofPcaprecHdr, sizeofSllHeader] at h2
      rw [hfd, record_eq, List.take_append, List.take_append, pcaprecHdr_length,
        sllHeader_length, List.take_of_length_le (by simp; omega),
        List.take_of_length_le (by simp; omega), show k - 16 - 16 = k - 32 by omega]
    rw [capreadGet_headers h e, if_neg]
    simp only [Dump.size, sizeofPcaprecHdr, sizeofSllHeader] at hk h2
    simp only [List.length_take, frame_length]
    omega

/-! ### Whole files -/

/-- Successive calls of `capread_get` return the packets `ps`, and then fail. -/
inductive Reads (o : Order) : Capread → List Packet → Prop
  | fail {c : Capread} : (capreadGet o c).1 = -1 → Reads o c []
  | next {c c' : Capread} {ps : List Packet} : capreadGet o c = (0, c') → Reads o c' ps →
      Reads o c (c'.packet :: ps)

/-- The dumps of a list that are completely inside the first `k` bytes they write. -/
def inside : ℕ → List Dump → List Dump
  | _, [] => []
  | k, d :: ds => if d.size ≤ k then d :: inside (k - d.size) ds else []

theorem reads_records {o : Order} (ds : List Dump) (hok : ∀ d ∈ ds, d.Ok) (k : ℕ) (c : Capread)
    (hfd : c.fd = (ds.flatMap (Dump.record o)).take k) :
    Reads o c ((inside k ds).map Dump.packet) := by
  induction ds generalizing k c with
  | nil =>
    simp only [List.flatMap_nil, List.take_nil] at hfd
    refine Reads.fail (capreadGet_headless ?_).1
    rw [hfd]
    exact Nat.zero_lt_succ _
  | cons d ds ih =>
    have hd := hok d (by simp)
    rw [List.flatMap_cons] at hfd
    simp only [inside]
    split_ifs with hk
    · rw [List.take_append, record_length, List.take_of_length_le (by rw [record_length]; exact hk)]
        at hfd
      obtain ⟨c', hget, hrest, hpkt⟩ := capreadGet_record hd hfd
      have hread := Reads.next hget (ih (fun d' h' => hok d' (by simp [h'])) (k - d.size) c' hrest)
      rw [hpkt] at hread
      exact hread
    · refine Reads.fail (capreadGet_short hd ?_ (Nat.lt_of_not_le hk))
      rw [hfd, List.take_append_of_le_length (by rw [record_length]; omega)]

/-- The file that `capwrite_init` and one `capwrite_dump` for each element write. -/
def captureFile (o : Order) (ds : List Dump) : List UInt8 :=
  capwriteInit o ++ ds.flatMap (Dump.record o)

theorem capreadCheck_init (o : Order) (rest : List UInt8) :
    capreadCheck o (capwriteInit o ++ rest) = (0, rest) := by
  have ht : (capwriteInit o ++ rest).take sizeofPcapHdr = capwriteInit o :=
    List.take_left' (by simp [capwriteInit, sizeofPcapHdr])
  have hd : (capwriteInit o ++ rest).drop sizeofPcapHdr = rest :=
    List.drop_left' (by simp [capwriteInit, sizeofPcapHdr])
  unfold capreadCheck
  simp only [ht, hd]
  rw [if_neg (by simp [capwriteInit, sizeofPcapHdr]), if_neg]
  cases o <;> decide

/-- Of a capture file cut off after `k` bytes, header included, exactly the packets
that lie completely before the cut are read, in order, and then a failure. -/
theorem capture_prefix_codec (o : Order) (ds : List Dump) (hok : ∀ d ∈ ds, d.Ok) (k : ℕ)
    (hk : sizeofPcapHdr ≤ k) (c : Capread) :
    (capreadCheck o ((captureFile o ds).take k)).1 = 0 ∧
      Reads o { c with fd := (capreadCheck o ((captureFile o ds).take k)).2 }
        ((inside (k - sizeofPcapHdr) ds).map Dump.packet) := by
  have e : (captureFile o ds).take k =
      capwriteInit o ++ (ds.flatMap (Dump.record o)).take (k - sizeofPcapHdr) := by
    have hlen : (capwriteInit o).length = sizeofPcapHdr := by simp [capwriteInit, sizeofPcapHdr]
    rw [captureFile, List.take_append, hlen, List.take_of_length_le (by omega)]
  rw [e, capreadCheck_init]
  exact ⟨rfl, reads_records ds hok _ _ rfl⟩

/-- A dump of the two bytes `07 07`, received from the host. -/
def pairDump : Dump where
  stack := ⟨0, 0, 0, fun _ => 0, 0⟩
  frameBuf := ⟨0, 0, 2, 2050, 2, 2050, fun _ => 7⟩
  len := 2
  src := ⟨0x1700, 1, 783, packetHost, 4, fun _ => 0⟩
  time := ⟨5, 6⟩

/-- Twenty bytes into the second record only the first packet is read. -/
theorem capture_prefix_codec_cut :
    sizeofPcapHdr ≤ 78 ∧
      Reads .little ⟨(capreadCheck .little ((captureFile .little [pairDump, pairDump]).take 78)).2,
        pairDump.frameBuf, 0, 0, 0, ⟨0, 0⟩⟩ [⟨2, [7, 7], 0, 0x1700, ⟨5, 6⟩⟩] := by
  have hok : pairDump.Ok := ⟨by decide, by decide, by decide⟩
  refine ⟨by decide, ?_⟩
  exact (capture_prefix_codec .little [pairDump, pairDump] (by simp [hok]) 78 (by decide)
    ⟨[], pairDump.frameBuf, 0, 0, 0, ⟨0, 0⟩⟩).2

end Irdadump
