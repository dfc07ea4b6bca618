import IrdaUtils.Spec.Irkbd

/-! The subframes of `irkbd` as a format. The data handler keeps an index that only grows and
a counter of eight bits; on a list of subframes the two move together, so that the loop ends
behind the last one, also when the counter has wrapped on the way. -/

namespace Irkbd

/-! ### The format -/

inductive Kind where
  | mouse
  | mouse2
  | keyboard
  | response
  deriving DecidableEq, Repr

instance : Fintype Kind := ⟨{.mouse, .mouse2, .keyboard, .response}, by intro k; cases k <;> decide⟩

def Kind.code : Kind → UInt8
  | .mouse => 0x80
  | .mouse2 => 0xc0
  | .keyboard => 0x40
  | .response => 0x00

def Kind.target : Kind → Target
  | .mouse => .fifo
  | .mouse2 => .fifo
  | .keyboard => .console
  | .response => .response

/-- The bytes of one record. -/
def Kind.width : Kind → ℕ
  | .mouse => 3
  | .mouse2 => 3
  | .keyboard => 1
  | .response => 1

/-- A subframe has up to 63 records. -/
structure Subframe where
  kind : Kind
  count : Fin 64
  payload : List UInt8
  length_eq : payload.length = kind.width * count
  deriving DecidableEq

def Subframe.header (f : Subframe) : UInt8 := f.kind.code ||| UInt8.ofNat f.count

def Subframe.encode (f : Subframe) : List UInt8 := f.header :: f.payload

def encode (fs : List Subframe) : List UInt8 := fs.flatMap Subframe.encode

/-- The payloads for one target, one behind the other. -/
def payloads (t : Target) (fs : List Subframe) : List UInt8 :=
  (fs.filter (·.kind.target = t)).flatMap Subframe.payload

theorem header_fields : ∀ (k : Kind) (c : Fin 64),
    (k.code ||| UInt8.ofNat c) &&& 0xc0 = k.code ∧
      recordBytes k.code ((k.code ||| UInt8.ofNat c) &&& ~~~0xc0) = k.width * c := by
  decide +kernel

theorem subframeTarget_code (k : Kind) : subframeTarget k.code = k.target := by
  cases k <;> decide

def headerKind (b : UInt8) : Kind :=
  if b &&& 0xc0 = 0x80 then .mouse
  else if b &&& 0xc0 = 0xc0 then .mouse2
  else if b &&& 0xc0 = 0x40 then .keyboard
  else .response

/-- Every byte is the header of a subframe. -/
theorem header_of_byte (b : UInt8) :
    ∃ (k : Kind) (c : Fin 64), b = k.code ||| UInt8.ofNat c := by
  have h : ∀ n : Fin 256, UInt8.ofNat n = (headerKind (UInt8.ofNat n)).code ||| UInt8.ofNat (n.val % 64) := by
    decide +kernel
  have hb := h ⟨b.toNat, b.toNat_lt⟩
  rw [UInt8.ofNat_toNat] at hb
  exact ⟨headerKind b, ⟨b.toNat % 64, Nat.mod_lt _ (by decide)⟩, hb⟩

theorem header_type (f : Subframe) : f.header &&& 0xc0 = f.kind.code :=
  (header_fields f.kind f.count).1

theorem header_records (f : Subframe) :
    recordBytes f.kind.code (f.header &&& ~~~0xc0) = f.payload.length := by
  rw [f.length_eq]
  exact (header_fields f.kind f.count).2

theorem encode_cons (f : Subframe) (fs : List Subframe) :
    encode (f :: fs) = f.header :: (f.payload ++ encode fs) := by
  simp [encode, Subframe.encode]

/-! ### The loop -/

/-- The counter at `len` runs over exactly these subframes: it gets to zero behind the last
of them and not before. -/
def Covers : UInt8 → List Subframe → Prop
  | len, [] => len = 0
  | len, f :: fs => len ≠ 0 ∧ Covers (len - 1 - UInt8.ofNat f.payload.length) fs

def Subframe.visit (f : Subframe) (n : ℕ) : Visit := ⟨f.kind.code, n + 1, f.payload⟩

def visitsOf : ℕ → List Subframe → List Visit
  | _, [] => []
  | n, f :: fs => f.visit n :: visitsOf (n + 1 + f.payload.length) fs

theorem visits_zero (n : ℕ) (mem : List UInt8) : visits 0 n mem = some [] := by
  unfold visits
  simp

theorem visits_subframe {len : UInt8} (h : len ≠ 0) (n : ℕ) (f : Subframe) (rest : List UInt8) :
    visits len n (f.header :: (f.payload ++ rest)) =
      (visits (len - 1 - UInt8.ofNat f.payload.length) (n + 1 + f.payload.length) rest).map
        (f.visit n :: ·) := by
  rw [visits, if_neg h]
  have hlong : ¬ (f.payload ++ rest).length < f.payload.length := by simp
  simp only [header_type, header_records, if_neg hlong, List.drop_left, List.take_left]
  rfl

/-- Index and counter move together, whatever stands behind the subframes. -/
theorem visits_encode (fs : List Subframe) (rest : List UInt8) :
    ∀ (len : UInt8) (n : ℕ), Covers len fs →
      visits len n (encode fs ++ rest) = some (visitsOf n fs) := by
  induction fs with
  | nil =>
    intro len n h
    obtain rfl : len = 0 := h
    exact visits_zero n _
  | cons f fs ih =>
    intro len n ⟨hlen, h⟩
    rw [encode_cons, List.cons_append, List.append_assoc, visits_subframe hlen, ih _ _ h]
    rfl

theorem covers_length (fs : List Subframe) (h : (encode fs).length ≤ 255) :
    Covers (UInt8.ofNat (encode fs).length) fs := by
  induction fs with
  | nil => rfl
  | cons f fs ih =>
    rw [encode_cons, List.length_cons, List.length_append] at h ⊢
    constructor
    · intro e
      have := congrArg UInt8.toNat e
      rw [UInt8.toNat_ofNat', Nat.mod_eq_of_lt (by omega)] at this
      exact absurd this (by simp)
    · have hsub : UInt8.ofNat (f.payload.length + (encode fs).length + 1) - 1 -
          UInt8.ofNat f.payload.length = UInt8.ofNat (encode fs).length := by
        have h1 : UInt8.ofNat 1 = 1 := rfl
        rw [UInt8.ofNat_add, UInt8.ofNat_add, h1, UInt8.add_sub_cancel, UInt8.add_comm,
          UInt8.add_sub_cancel]
      rw [hsub]
      exact ih (by omega)

/-- The state behind the data handler is made by the subframes that the loop has come to. -/
theorem parseFrame_eq (len : UInt8) (mem : List UInt8) (s : Cb) :
    ∀ n, parseFrame len mem s =
      (visits len n mem).map (·.foldl (fun s v => handleSubframe v.subtype v.bytes s) s) := by
  fun_induction parseFrame len mem s with
  | case1 mem s => intro n; rw [visits_zero]; rfl
  | case2 len s hlen => intro n; rw [visits, if_neg hlen]; rfl
  | case3 len s hlen b mem sublen subtype k hk =>
    intro n
    rw [visits, if_neg hlen]
    simp only [sublen, subtype, k] at hk
    simp [hk]
  | case4 len s hlen b mem sublen subtype k hk ih =>
    intro n
    rw [visits, if_neg hlen, ih (n + 1 + k)]
    simp only [sublen, subtype, k] at hk
    simp only [if_neg hk, Option.map_map, sublen, subtype, k]
    rfl

/-! ### What goes where -/

/-- The bytes that went to `t`, in order. -/
def sentTo (t : Target) (ds : List Delivery) : List UInt8 :=
  (ds.filter (·.target = t)).map Delivery.byte

theorem sentTo_append (t : Target) (ds ds' : List Delivery) :
    sentTo t (ds ++ ds') = sentTo t ds ++ sentTo t ds' := by
  simp [sentTo]

theorem sentTo_deliveries (t : Target) (v : Visit) :
    sentTo t v.deliveries = if subframeTarget v.subtype = t then v.bytes else [] := by
  have hbytes : (v.bytes.zipIdx v.start).map (fun p => p.1) = v.bytes := List.zipIdx_map_fst _ _
  simp only [sentTo, Visit.deliveries]
  split_ifs with h
  · rw [List.filter_map, List.filter_eq_self.2 (by simp [h]), List.map_map]
    exact hbytes
  · rw [List.filter_map, List.filter_eq_nil_iff.2 (by simp [h])]
    rfl

theorem sentTo_visit (t : Target) (f : Subframe) (n : ℕ) :
    sentTo t (f.visit n).deliveries = if f.kind.target = t then f.payload else [] := by
  rw [sentTo_deliveries, ← subframeTarget_code]
  rfl

theorem sentTo_visitsOf (t : Target) (fs : List Subframe) :
    ∀ n, sentTo t ((visitsOf n fs).flatMap Visit.deliveries) = payloads t fs := by
  induction fs with
  | nil => intro n; rfl
  | cons f fs ih =>
    intro n
    rw [visitsOf, List.flatMap_cons, sentTo_append, sentTo_visit, ih]
    by_cases h : f.kind.target = t
    · simp [payloads, h]
    · simp [payloads, h]

/-! ### The state behind the calls -/

/-- The fifo and the typed text have got their bytes, and the responses have been looked at in
their order; the timer and `power_save` also know the empty subframes. -/
structure Delivered (ds : List Delivery) (s s' : Cb) : Prop where
  fifo : s'.fifo = s.fifo ++ sentTo .fifo ds
  typed : s'.typed = s.typed ++ sentTo .console ds
  state : s'.state = ((sentTo .response ds).foldl handleResponse s).state
  connected : s'.connected = s.connected
  sent : s'.sent = s.sent

/-- What the responses leave depends on the state only, and they touch nothing else of this. -/
theorem foldl_handleResponse (rsps : List UInt8) : ∀ s t : Cb, s.state = t.state →
    (rsps.foldl handleResponse s).state = (rsps.foldl handleResponse t).state ∧
      (rsps.foldl handleResponse s).fifo = s.fifo ∧ (rsps.foldl handleResponse s).typed = s.typed ∧
      (rsps.foldl handleResponse s).connected = s.connected ∧
      (rsps.foldl handleResponse s).sent = s.sent := by
  induction rsps with
  | nil =>
    intro s t h
    exact ⟨h, rfl, rfl, rfl, rfl⟩
  | cons r rs ih =>
    intro s t h
    have hstate : (handleResponse s r).state = (handleResponse t r).state := by
      unfold handleResponse
      split_ifs
      all_goals first | exact h | rfl
    have hkeep : (handleResponse s r).fifo = s.fifo ∧ (handleResponse s r).typed = s.typed ∧
        (handleResponse s r).connected = s.connected ∧ (handleResponse s r).sent = s.sent := by
      unfold handleResponse
      split_ifs <;> exact ⟨rfl, rfl, rfl, rfl⟩
    obtain ⟨h1, h2, h3, h4, h5⟩ := ih _ _ hstate
    exact ⟨h1, h2.trans hkeep.1, h3.trans hkeep.2.1, h4.trans hkeep.2.2.1, h5.trans hkeep.2.2.2⟩

theorem Delivered.refl (s : Cb) : Delivered [] s s := by
  constructor <;> simp [sentTo]

theorem Delivered.trans {ds ds' : List Delivery} {s s' s'' : Cb} (h : Delivered ds s s')
    (h' : Delivered ds' s' s'') : Delivered (ds ++ ds') s s'' := by
  constructor
  · rw [h'.fifo, h.fifo, sentTo_append, List.append_assoc]
  · rw [h'.typed, h.typed, sentTo_append, List.append_assoc]
  · rw [h'.state, sentTo_append, List.foldl_append]
    exact (foldl_handleResponse _ _ _ h.state).1
  · rw [h'.connected, h.connected]
  · rw [h'.sent, h.sent]

theorem visit_delivered (v : Visit) (s : Cb) :
    Delivered v.deliveries s (handleSubframe v.subtype v.bytes s) := by
  unfold handleSubframe
  split_ifs with hmouse hkeys
  · have ht : subframeTarget v.subtype = .fifo := if_pos hmouse
    constructor <;> simp [sentTo_deliveries, ht, startWatchdogTimer]
  · have ht : subframeTarget v.subtype = .console := by
      rw [subframeTarget, if_neg hmouse, if_pos hkeys]
    constructor <;> simp [sentTo_deliveries, ht, startWatchdogTimer]
  · have ht : subframeTarget v.subtype = .response := by
      rw [subframeTarget, if_neg hmouse, if_neg hkeys]
    obtain ⟨-, hfifo, htyped, hconnected, hsent⟩ := foldl_handleResponse v.bytes s s rfl
    constructor <;> simp [sentTo_deliveries, ht, hfifo, htyped, hconnected, hsent]

theorem visits_delivered (vs : List Visit) : ∀ s : Cb,
    Delivered (vs.flatMap Visit.deliveries) s
      (vs.foldl (fun s v => handleSubframe v.subtype v.bytes s) s) := by
  induction vs with
  | nil => exact Delivered.refl
  | cons v vs ih =>
    intro s
    exact (visit_delivered v s).trans (ih _)

/-- What the data handler leaves agrees with the log of its calls. -/
theorem dataIndication_delivered {mem : List UInt8} {ds : List Delivery}
    (h : deliveries mem = some ds) (received : Bool) (s : Cb) :
    ∃ s', dataIndication received mem s = some s' ∧
      Delivered ds (if received then s else { s with connected := false }) s' := by
  cases mem with
  | nil => cases h
  | cons len mem =>
    obtain ⟨vs, hvs, rfl⟩ := Option.map_eq_some_iff.1 h
    refine ⟨_, ?_, visits_delivered vs _⟩
    rw [dataIndication, parseFrame_eq len mem _ 1, hvs, Option.map_some]

/-! ### A whole frame -/

theorem deliveries_frame {len : UInt8} {fs : List Subframe} (h : Covers len fs) (rest : List UInt8) :
    deliveries (len :: (encode fs ++ rest)) = some ((visitsOf 1 fs).flatMap Visit.deliveries) := by
  rw [deliveries, visits_encode fs rest len 1 h, Option.map_some]

theorem foldl_visitsOf (fs : List Subframe) : ∀ (n : ℕ) (s : Cb),
    (visitsOf n fs).foldl (fun s v => handleSubframe v.subtype v.bytes s) s =
      fs.foldl (fun s g => handleSubframe g.kind.code g.payload s) s := by
  induction fs with
  | nil => intro n s; rfl
  | cons f fs ih => intro n s; exact ih _ _

theorem dataIndication_frame {len : UInt8} {fs : List Subframe} (h : Covers len fs)
    (rest : List UInt8) (s : Cb) :
    dataIndication true (len :: (encode fs ++ rest)) s =
      some (fs.foldl (fun s g => handleSubframe g.kind.code g.payload s) s) := by
  have hrun : dataIndication true (len :: (encode fs ++ rest)) s =
      parseFrame len (encode fs ++ rest) s := rfl
  rw [hrun, parseFrame_eq _ _ _ 1, visits_encode fs rest len 1 h, Option.map_some, foldl_visitsOf]

/-- A frame of subframes with its length in front is taken apart exactly, whatever the buffer
held before, and the state behind it is the one that the subframes leave in turn: the state of
the keyboard comes from its responses in their order. The memory may end behind the last
subframe: no byte there is read. -/
theorem frame_demultiplexed (fs : List Subframe) (h : (encode fs).length ≤ 255) (f : Frame)
    (r : Recv) (hr : r.bytes = UInt8.ofNat (encode fs).length :: encode fs) (s : Cb) :
    ∃ s' ds, dataIndication true (f.recv r).bytes s = some s' ∧
      deliveries (f.recv r).bytes = some ds ∧
      s'.fifo = s.fifo ++ payloads .fifo fs ∧ s'.typed = s.typed ++ payloads .console fs ∧
      s'.state = ((payloads .response fs).foldl handleResponse s).state ∧
      s' = fs.foldl (fun s g => handleSubframe g.kind.code g.payload s) s ∧
      (∀ t, sentTo t ds = payloads t fs) ∧ Delivered ds s s' ∧
      dataIndication true r.bytes s = some s' ∧ deliveries r.bytes = some ds := by
  have hcov := covers_length fs h
  have hframe : (f.recv r).bytes = UInt8.ofNat (encode fs).length ::
      (encode fs ++ f.bytes.drop r.bytes.length) := by
    rw [Frame.recv_bytes, hr, List.cons_append]
  have hown : r.bytes = UInt8.ofNat (encode fs).length :: (encode fs ++ []) := by
    rw [hr, List.append_nil]
  have hsent := fun t => sentTo_visitsOf t fs 1
  have hdel := visits_delivered (visitsOf 1 fs) s
  rw [foldl_visitsOf] at hdel
  rw [hframe, hown]
  refine ⟨_, _, dataIndication_frame hcov _ s, deliveries_frame hcov _, ?_, ?_, ?_, rfl, hsent, hdel,
    dataIndication_frame hcov [] s, deliveries_frame hcov []⟩
  · rw [hdel.fifo, hsent]
  · rw [hdel.typed, hsent]
  · rw [hdel.state, hsent]

/-- A record of the mouse, two keys, and the answers to a poll and to the start of the mouse. -/
def sampleFrame : List Subframe :=
  [⟨.mouse, 1, [0x08, 0x01, 0xff], rfl⟩, ⟨.keyboard, 2, [0x1e, 0x9e], rfl⟩,
    ⟨.response, 2, [0x41, 0x21], rfl⟩]

def sampleRecv : Recv :=
  .data [10, 0x81, 0x08, 0x01, 0xff, 0x42, 0x1e, 0x9e, 0x02, 0x41, 0x21] (by decide) (by decide)

theorem frame_demultiplexed_sample :
    ∃ s' ds, dataIndication true (Frame.init.recv sampleRecv).bytes .init = some s' ∧
      deliveries (Frame.init.recv sampleRecv).bytes = some ds ∧
      s'.fifo = [0x08, 0x01, 0xff] ∧ s'.typed = [0x1e, 0x9e] ∧ s'.state = .ready ∧
      sentTo .response ds = [0x41, 0x21] := by
  obtain ⟨s', ds, h1, h2, hfifo, htyped, hstate, -, hsent, -⟩ :=
    frame_demultiplexed sampleFrame (by decide) .init sampleRecv (by decide) .init
  exact ⟨s', ds, h1, h2, hfifo, htyped, hstate, hsent .response⟩

end Irkbd
