import IrdaUtils.Spec.Irdaping

/-! The time that `irdaping` measures. `timeout` copies as many bytes of the time of day as a
`struct timezone` has, which is a whole `struct timeval` of four byte fields and the first
half of one of eight byte fields; the other half of the frame's time stamp keeps the zeros of
`self`. -/

namespace Irdaping

open Memory ByteOrder

/-! ### Signed arithmetic -/

theorem wrap_of_small {k : ℕ} (hk : 0 < k) {z : ℤ} (h1 : -2 ^ (8 * k - 1) ≤ z)
    (h2 : z < 2 ^ (8 * k - 1)) : wrap k z = z := by
  have e : (2 : ℤ) ^ (8 * k) = 2 * 2 ^ (8 * k - 1) := by
    rw [← pow_succ']
    congr 1
    omega
  have hcast : ((2 ^ (8 * k) : ℕ) : ℤ) = 2 ^ (8 * k) := by push_cast; rfl
  rw [wrap]
  refine Int.bmod_eq_of_le_mul_two ?_ ?_
  · rw [hcast, e]
    omega
  · rw [hcast, e]
    omega

theorem field_pos (a : Abi) : 0 < a.field := by cases a <;> decide

theorem wrap_sec {a : Abi} (t : Timeval a) : wrap a.field t.sec = t.sec := by
  have h := t.sec_lt
  refine wrap_of_small (field_pos a) ?_ ?_
  · have : (0 : ℤ) ≤ 2 ^ (8 * a.field - 1) := by positivity
    omega
  · exact_mod_cast h

/-- Two million microseconds fit into every field. -/
theorem micros_fit (a : Abi) : (2000000 : ℤ) < 2 ^ (8 * a.field - 1) := by
  cases a <;> decide

theorem wrap_usec {a : Abi} {z : ℤ} (h1 : -2000000 ≤ z) (h2 : z < 2000000) :
    wrap a.field z = z := by
  have h := micros_fit a
  exact wrap_of_small (field_pos a) (by omega) (by omega)

/-! ### The frame in `self.buf` -/

theorem bytes_length {a : Abi} (o : Order) (t : Timeval a) :
    (t.bytes o).length = a.sizeofTimeval := by
  simp only [Timeval.bytes, List.length_append, bytesOf_length, Abi.sizeofTimeval]
  omega

theorem stamp_length {a : Abi} (o : Order) (t : Timeval a) :
    ((t.bytes o).take sizeofTimezone).length = 8 := by
  rw [List.length_take, bytes_length]
  cases a <;> rfl

/-- The stamp is the whole time, or the seconds alone. -/
theorem stamp_ilp32 (o : Order) (t : Timeval .ilp32) :
    (t.bytes o).take sizeofTimezone = bytesOf o 4 t.sec ++ bytesOf o 4 t.usec := by
  refine List.take_of_length_le ?_
  rw [bytes_length]
  decide

theorem stamp_lp64 (o : Order) (t : Timeval .lp64) :
    (t.bytes o).take sizeofTimezone = bytesOf o 8 t.sec := by
  have h : (bytesOf o 8 t.sec).length = sizeofTimezone := bytesOf_length o 8 t.sec
  rw [← h]
  exact List.take_left' rfl

section Built

variable (o : Order) (a : Abi) (self : Instance) (t : Timeval a)

theorem built_head : buildFrame o a self t 0 = 0xff ∧ buildFrame o a self t 1 = 0xf3 := by
  have hfill : 28 ≥ a.fillAt ∧ 20 ≤ a.fillAt := by cases a <;> decide
  have ht : ∀ n, n < 2 → buildFrame o a self t n =
      store (store self.buf 0 [cbroadcast ||| cmdFrame]) 1 [testFrame ||| pfBit] n := by
    intro n hn
    unfold buildFrame
    rw [store_outside (by omega), store_outside (by simp [timeAt, pktNrAt, sizeofTestFrame]; omega),
      store_outside (by simp [pktNrAt, sizeofTestFrame]; omega), store_outside (by simp; omega),
      store_outside (by simp; omega)]
  rw [ht 0 (by omega), ht 1 (by omega)]
  exact ⟨rfl, rfl⟩

theorem built_pktNr : load (buildFrame o a self t) pktNrAt 2 = leBytes 2 self.packets.toNat := by
  have hfill : 20 ≤ a.fillAt := by cases a <;> decide
  unfold buildFrame
  simp only
  rw [load_store_disjoint (by simp [pktNrAt, sizeofTestFrame]; omega),
    load_store_disjoint (by simp [timeAt, pktNrAt, sizeofTestFrame])]
  have h := load_store (store (store (store (store self.buf 0 [cbroadcast ||| cmdFrame]) 1
    [testFrame ||| pfBit]) 2 (leBytes 4 self.hwaddr)) 6 (leBytes 4 self.daddr)) pktNrAt
    (leBytes 2 self.packets.toNat)
  rwa [leBytes_length] at h

theorem built_stamp :
    load (buildFrame o a self t) timeAt 8 = (t.bytes o).take sizeofTimezone := by
  have hfill : 20 ≤ a.fillAt := by cases a <;> decide
  unfold buildFrame
  simp only
  rw [load_store_disjoint (by simp [timeAt, pktNrAt, sizeofTestFrame]; omega)]
  have h := load_store (store (store (store (store (store self.buf 0 [cbroadcast ||| cmdFrame]) 1
    [testFrame ||| pfBit]) 2 (leBytes 4 self.hwaddr)) 6 (leBytes 4 self.daddr)) pktNrAt
    (leBytes 2 self.packets.toNat)) timeAt ((t.bytes o).take sizeofTimezone)
  rwa [stamp_length] at h

end Built

/-- With eight byte fields no ping writes the microseconds of the frame. -/
theorem built_usec_lp64 (o : Order) (self : Instance) (t : Timeval .lp64) :
    load (buildFrame o .lp64 self t) 20 8 = load self.buf 20 8 := by
  unfold buildFrame
  simp only
  rw [load_store_disjoint (by simp [Abi.fillAt, sizeofTestFrame, Abi.sizeofTestInfo,
      Abi.sizeofTimeval, Abi.field]),
    load_store_disjoint (by rw [stamp_length]; decide), load_store_disjoint (by simp [pktNrAt, sizeofTestFrame]),
    load_store_disjoint (by simp), load_store_disjoint (by simp), load_store_disjoint (by simp),
    load_store_disjoint (by simp)]

/-! ### The frame at the other side -/

theorem echo_load (m : Mem) (n : ℕ) :
    echo (load m 0 (n + 1)) = (m 0 &&& ~~~cmdFrame) :: load m 1 n := by
  rw [Nat.add_comm, load_add]
  rfl

theorem echoed_byte (old m : Mem) {n i : ℕ} (h0 : 0 < i) (hi : i < n) :
    store old 0 (echo (load m 0 n)) i = m i := by
  obtain ⟨n, rfl⟩ : ∃ k, n = k + 1 := ⟨n - 1, by omega⟩
  obtain ⟨i, rfl⟩ : ∃ k, i = k + 1 := ⟨i - 1, by omega⟩
  have hlen : i + 1 < (echo (load m 0 (n + 1))).length := by
    rw [echo_load, List.length_cons, load_length]
    exact hi
  have h := store_inside (m := old) (a := 0) hlen
  rw [Nat.zero_add] at h
  rw [h]
  simp only [echo_load, List.getElem_cons_succ, load_getElem, Nat.add_comm]

theorem echoed_head (old m : Mem) {n : ℕ} (hn : 0 < n) :
    store old 0 (echo (load m 0 n)) 0 = m 0 &&& ~~~cmdFrame := by
  obtain ⟨n, rfl⟩ : ∃ k, n = k + 1 := ⟨n - 1, by omega⟩
  rw [echo_load]
  rfl

theorem echoed_length (m : Mem) (n : ℕ) : (echo (load m 0 n)).length = n := by
  cases n with
  | zero => rfl
  | succ n => rw [echo_load, List.length_cons, load_length]

theorem load_echo (old m : Mem) {n b k : ℕ} (hb : 0 < b) (h : b + k ≤ n) :
    load (store old 0 (echo (load m 0 n))) b k = load m b k :=
  load_congr fun i hi => echoed_byte old m (by omega) (by omega)

/-! ### Earlier pings -/

/-- `self` when `earlier` pings have been sent. -/
def pinged (o : Order) (a : Abi) (hwaddr daddr framelen : ℕ) (earlier : List (Timeval a)) :
    Instance :=
  earlier.foldl (timeout o a) (start a hwaddr daddr framelen)

theorem pinged_concat (o : Order) (a : Abi) (hwaddr daddr framelen : ℕ)
    (earlier : List (Timeval a)) (t : Timeval a) :
    pinged o a hwaddr daddr framelen (earlier ++ [t]) =
      timeout o a (pinged o a hwaddr daddr framelen earlier) t := by
  rw [pinged, List.foldl_append]
  rfl

theorem pinged_framelen (o : Order) (a : Abi) (hwaddr daddr framelen : ℕ)
    (earlier : List (Timeval a)) :
    a.fillAt ≤ (pinged o a hwaddr daddr framelen earlier).framelen := by
  induction earlier using List.reverseRecOn with
  | nil =>
    simp only [pinged, List.foldl_nil, start, Abi.fillAt, sizeofTestFrame, Abi.sizeofTestInfo]
    split_ifs <;> omega
  | append_singleton ts t ih =>
    rw [pinged_concat]
    exact ih

theorem pinged_packets (o : Order) (a : Abi) (hwaddr daddr framelen : ℕ)
    (earlier : List (Timeval a)) :
    (pinged o a hwaddr daddr framelen earlier).packets = BitVec.ofNat 32 earlier.length := by
  induction earlier using List.reverseRecOn with
  | nil => rfl
  | append_singleton ts t ih =>
    rw [pinged_concat, List.length_append, List.length_singleton, BitVec.ofNat_add, ← ih]
    rfl

/-- The microseconds in the buffer are zero as long as no ping writes them. -/
theorem pinged_usec_lp64 (o : Order) (hwaddr daddr framelen : ℕ) (earlier : List (Timeval .lp64)) :
    load (pinged o .lp64 hwaddr daddr framelen earlier).buf 20 8 = List.replicate 8 0 := by
  induction earlier using List.reverseRecOn with
  | nil => rfl
  | append_singleton ts t ih =>
    rw [pinged_concat, timeout, built_usec_lp64, ih]

/-! ### The answer -/

/-- The microseconds that the frame carries. -/
def stampedUsec : (a : Abi) → Timeval a → ℕ
  | .ilp32, t => t.usec
  | .lp64, _ => 0

theorem ofBytes_zeros (o : Order) : ofBytes o (List.replicate 8 0) = 0 := by
  cases o <;> rfl

theorem pow_field (a : Abi) : 2 ^ (8 * a.field - 1) ≤ 256 ^ a.field := by
  cases a <;> decide

theorem stamped_fields (o : Order) (a : Abi) (hwaddr daddr framelen : ℕ)
    (earlier : List (Timeval a)) (t : Timeval a) :
    let buf := (timeout o a (pinged o a hwaddr daddr framelen earlier) t).buf
    ofBytes o (load buf timeAt a.field) = t.sec ∧
      ofBytes o (load buf (timeAt + a.field) a.field) = stampedUsec a t := by
  intro buf
  have hstamp := built_stamp o a (pinged o a hwaddr daddr framelen earlier) t
  have hsec : t.sec < 256 ^ a.field := t.sec_lt.trans_le (pow_field a)
  cases a with
  | ilp32 =>
    rw [stamp_ilp32, show 8 = 4 + 4 from rfl, load_add] at hstamp
    obtain ⟨h1, h2⟩ := List.append_inj hstamp (by simp)
    have husec : t.usec < 256 ^ 4 := t.usec_lt.trans (by decide)
    constructor
    · exact (congrArg (ofBytes o) h1).trans (ofBytes_bytesOf_of_lt hsec)
    · exact (congrArg (ofBytes o) h2).trans (ofBytes_bytesOf_of_lt husec)
  | lp64 =>
    rw [stamp_lp64] at hstamp
    constructor
    · exact (congrArg (ofBytes o) hstamp).trans (ofBytes_bytesOf_of_lt hsec)
    · have hz := (built_usec_lp64 o (pinged o .lp64 hwaddr daddr framelen earlier) t).trans
        (pinged_usec_lp64 o hwaddr daddr framelen earlier)
      exact (congrArg (ofBytes o) hz).trans (ofBytes_zeros o)

/-- The subtraction with borrow of `main`, exact for every pair of times. -/
theorem elapsed {a : Abi} (t1 : Timeval a) {sec usec : ℕ} (hsec : sec < 2 ^ (8 * a.field - 1))
    (husec : usec < 1000000) :
    let p : ℤ × ℤ := if (usec : ℤ) > t1.usec then
      (wrap a.field (t1.sec - 1), wrap a.field (t1.usec + 1000000)) else (t1.sec, t1.usec)
    wrap a.field (p.1 - sec) * 1000000 + wrap a.field (p.2 - usec)
      = t1.micros - (sec * 1000000 + usec) := by
  intro p
  have h1 : (t1.sec : ℤ) < 2 ^ (8 * a.field - 1) := by exact_mod_cast t1.sec_lt
  have hs : (sec : ℤ) < 2 ^ (8 * a.field - 1) := by exact_mod_cast hsec
  have hu := t1.usec_lt
  have hm := micros_fit a
  by_cases hb : (usec : ℤ) > t1.usec
  · have hp : p = ((t1.sec : ℤ) - 1, (t1.usec : ℤ) + 1000000) := by
      simp only [p, if_pos hb]
      rw [wrap_of_small (field_pos a) (by omega) (by omega), wrap_usec (by omega) (by omega)]
    rw [hp, wrap_of_small (field_pos a) (by simp only; omega) (by simp only; omega),
      wrap_usec (by simp only; omega) (by simp only; omega), Timeval.micros]
    ring
  · have hp : p = ((t1.sec : ℤ), (t1.usec : ℤ)) := by simp only [p, if_neg hb]
    rw [hp, wrap_of_small (field_pos a) (by simp only; omega) (by simp only; omega),
      wrap_usec (by simp only; omega) (by simp only; omega), Timeval.micros]
    ring

theorem seq_of_packets (n : ℕ) :
    ofLeBytes (leBytes 2 (BitVec.ofNat 32 n).toNat) = n % 2 ^ 16 := by
  rw [ofLeBytes_leBytes, BitVec.toNat_ofNat]
  exact Nat.mod_mod_of_dvd n (by decide)

/-- `main` takes the echoed frame and prints its number and the time since its stamp. -/
theorem answer_echo (o : Order) (a : Abi) (hwaddr daddr framelen : ℕ) (earlier : List (Timeval a))
    (t0 t1 : Timeval a) (old : Mem) :
    ∃ r, answer o a old
        (echo (timeout o a (pinged o a hwaddr daddr framelen earlier) t0).frame) t1 = some r ∧
      r.irdaSeq = earlier.length % 2 ^ 16 ∧
      r.tvSec * 1000000 + r.tvUsec = t1.micros - (t0.sec * 1000000 + stampedUsec a t0) := by
  set s := pinged o a hwaddr daddr framelen earlier with hs
  have hlen : a.fillAt ≤ s.framelen := pinged_framelen o a hwaddr daddr framelen earlier
  have hfill : a.fillAt = timeAt + a.field + a.field := by cases a <;> rfl
  have hframe : (timeout o a s t0).frame = load (buildFrame o a s t0) 0 s.framelen := rfl
  have htimeAt : timeAt = 12 := rfl
  have hpos : 12 ≤ s.framelen := by omega
  obtain ⟨hb0, hb1⟩ := built_head o a s t0
  have h0 : store old 0 (echo (load (buildFrame o a s t0) 0 s.framelen)) 0 = 0xfe := by
    rw [echoed_head old _ (by omega), hb0]
    decide
  have h1 : store old 0 (echo (load (buildFrame o a s t0) 0 s.framelen)) 1 = 0xf3 := by
    rw [echoed_byte old _ (by omega) (by omega), hb1]
  have hguard : ¬ ((0xfe : UInt8) &&& cmdFrame ≠ 0 ∨ (0xf3 : UInt8) ≠ testFrame ||| pfBit) := by
    decide
  have hseq : load (store old 0 (echo (load (buildFrame o a s t0) 0 s.framelen))) pktNrAt 2
      = leBytes 2 (BitVec.ofNat 32 earlier.length).toNat := by
    rw [load_echo old _ (by decide) (by simpa [pktNrAt, sizeofTestFrame] using hpos), built_pktNr,
      hs, pinged_packets]
  obtain ⟨hsec, husec⟩ := stamped_fields o a hwaddr daddr framelen earlier t0
  have hsec' : ofBytes o (load (store old 0 (echo (load (buildFrame o a s t0) 0 s.framelen)))
      timeAt a.field) = t0.sec := by
    rw [load_echo old _ (by decide) (by omega)]
    exact hsec
  have husec' : ofBytes o (load (store old 0 (echo (load (buildFrame o a s t0) 0 s.framelen)))
      (timeAt + a.field) a.field) = stampedUsec a t0 := by
    rw [load_echo old _ (by omega) (by omega)]
    exact husec
  have hstamped : stampedUsec a t0 < 1000000 := by
    cases a with
    | ilp32 => exact t0.usec_lt
    | lp64 => exact Nat.zero_lt_succ _
  have hwrap : wrap a.field (stampedUsec a t0) = stampedUsec a t0 :=
    wrap_usec (by omega) (by omega)
  rw [hframe, answer]
  simp only [h0, h1, if_neg hguard, echoed_length, hseq, hsec', husec', wrap_sec, hwrap,
    seq_of_packets]
  rw [if_neg (by simp only [sizeofTestFrame]; omega), if_neg (by simp only [Abi.fillAt] at hlen; omega)]
  exact ⟨_, rfl, rfl, elapsed t1 t0.sec_lt hstamped⟩

/-- The round trip of a ping behind `earlier` others is measured and numbered rightly. -/
def Measures (o : Order) (a : Abi) (hwaddr daddr framelen : ℕ) (earlier : List (Timeval a))
    (t0 t1 : Timeval a) (old : Mem) : Prop :=
  ∃ r, answer o a old
      (echo (timeout o a (pinged o a hwaddr daddr framelen earlier) t0).frame) t1 = some r ∧
    r.tvSec * 1000000 + r.tvUsec = t1.micros - t0.micros ∧ r.irdaSeq = earlier.length % 2 ^ 16

/-- The time of the round trip is right with four byte fields, and with eight byte fields for
the pings of a whole second. -/
theorem measures_iff (o : Order) (a : Abi) (hwaddr daddr framelen : ℕ) (_hlen : framelen ≤ 2048)
    (earlier : List (Timeval a)) (t0 t1 : Timeval a) (old : Mem) :
    Measures o a hwaddr daddr framelen earlier t0 t1 old ↔ a = .ilp32 ∨ t0.usec = 0 := by
  obtain ⟨r, hr, hseq, htime⟩ := answer_echo o a hwaddr daddr framelen earlier t0 t1 old
  have hiff : Measures o a hwaddr daddr framelen earlier t0 t1 old ↔ stampedUsec a t0 = t0.usec := by
    constructor
    · rintro ⟨r', hr', htime', -⟩
      rw [hr] at hr'
      cases hr'
      rw [htime] at htime'
      simp only [Timeval.micros] at htime'
      omega
    · intro h
      refine ⟨r, hr, ?_, hseq⟩
      rw [htime, h, Timeval.micros, Timeval.micros]
  rw [hiff]
  cases a with
  | ilp32 => simp [stampedUsec]
  | lp64 =>
    simp only [stampedUsec, reduceCtorEq, false_or]
    exact eq_comm

/-- Half a second past one, seen a quarter of a second later. -/
def halfPast (a : Abi) : Timeval a := ⟨1, 500000, by cases a <;> decide, by decide⟩
def quarterTo (a : Abi) : Timeval a := ⟨1, 750000, by cases a <;> decide, by decide⟩

theorem measures_iff_ilp32 :
    Measures .little .ilp32 0x01020304 0xffffffff 32 [halfPast .ilp32] (halfPast .ilp32)
      (quarterTo .ilp32) (fun _ => 0) :=
  (measures_iff .little .ilp32 0x01020304 0xffffffff 32 (by decide) [halfPast .ilp32]
    (halfPast .ilp32) (quarterTo .ilp32) (fun _ => 0)).2 (.inl rfl)

/-- With eight byte fields the first ping of the same times is wrong by half a second. -/
theorem half_second_lost :
    answer .little .lp64 (fun _ => 0)
        (echo (timeout .little .lp64 (start .lp64 0x01020304 0xffffffff 32) (halfPast .lp64)).frame)
        (quarterTo .lp64) = some ⟨0, 0, 750000⟩ ∧
      ¬ Measures .little .lp64 0x01020304 0xffffffff 32 [] (halfPast .lp64) (quarterTo .lp64)
        (fun _ => 0) := by
  have h : answer .little .lp64 (fun _ => 0)
      (echo (timeout .little .lp64 (start .lp64 0x01020304 0xffffffff 32) (halfPast .lp64)).frame)
      (quarterTo .lp64) = some ⟨0, 0, 750000⟩ := by decide +kernel
  refine ⟨h, ?_⟩
  rintro ⟨r, hr, htime, -⟩
  have e : some r = some ⟨0, 0, 750000⟩ := hr.symm.trans h
  cases e
  exact absurd htime (by decide)

end Irdaping
