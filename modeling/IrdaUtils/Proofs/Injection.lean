import IrdaUtils.Lib.Runs
import IrdaUtils.Proofs.Subframes

/-! Which bytes the data handler of `irkbd` hands on. It compares neither its length byte nor
the length of a subframe with what came in, and it parses the buffer also when nothing came in;
the buffer keeps the bytes of earlier frames. Its clear second half stops every loop. -/

namespace Irkbd

def Recv.received : Recv → Bool
  | .data _ _ _ => true
  | _ => false

/-- The call ends in a state that the bytes it hands on account for, and every one of them came
in with it, behind the first one. -/
def OnlyReceived (f : Frame) (r : Recv) : Prop :=
  ∃ ds, deliveries (f.recv r).bytes = some ds ∧
    (∀ s, ∃ s', dataIndication r.received (f.recv r).bytes s = some s' ∧
      Delivered ds (if r.received then s else { s with connected := false }) s') ∧
    ∀ d ∈ ds, 1 ≤ d.index ∧ r.bytes[d.index]? = some d.byte

/-- Of the subframes that the counter runs over, those with a payload lie in the bytes that
came in. -/
def Enclosed (f : Frame) (r : Recv) : Prop :=
  ∃ len fs rest, (f.recv r).bytes = len :: (encode fs ++ rest) ∧ Covers len fs ∧
    ∀ pre g post, fs = pre ++ g :: post → g.payload ≠ [] →
      1 + (encode (pre ++ [g])).length ≤ r.bytes.length

/-! ### The loop ends -/

/-- Cleared memory is a list of empty subframes. -/
theorem covers_zeros : ∀ (k : ℕ) (len : UInt8) (mem : List UInt8), len.toNat = k →
    (∀ b ∈ mem, b = 0) → k ≤ mem.length → ∃ fs rest, mem = encode fs ++ rest ∧ Covers len fs := by
  intro k
  induction k with
  | zero =>
    intro len mem hk _ _
    exact ⟨[], mem, rfl, UInt8.toNat_inj.1 hk⟩
  | succ k ih =>
    intro len mem hk hzero hlen
    cases mem with
    | nil => simp at hlen
    | cons b mem =>
      have hb : b = 0 := hzero b (by simp)
      have hne : len ≠ 0 := by rintro rfl; simp at hk
      have hsub : (len - 1 - UInt8.ofNat 0).toNat = k := by
        have h1 : (1 : UInt8) ≤ len := by
          rw [UInt8.le_iff_toNat_le, hk]
          exact Nat.succ_le_succ (Nat.zero_le k)
        have h0 : UInt8.ofNat 0 = 0 := rfl
        rw [h0, UInt8.sub_zero, UInt8.toNat_sub_of_le _ _ h1, hk]
        rfl
      obtain ⟨fs, rest, e, hcov⟩ := ih (len - 1 - UInt8.ofNat 0) mem hsub
        (fun b hb => hzero b (by simp [hb])) (by simpa using hlen)
      refine ⟨⟨.response, 0, [], rfl⟩ :: fs, rest, ?_, hne, hcov⟩
      rw [encode_cons, e, hb]
      rfl

/-- From `c` on the memory is clear, and it is long enough for a last payload and for the
counter behind it. -/
theorem exists_covers : ∀ (c : ℕ) (len : UInt8) (mem : List UInt8), (∀ b ∈ mem.drop c, b = 0) →
    c + 445 ≤ mem.length → ∃ fs rest, mem = encode fs ++ rest ∧ Covers len fs := by
  intro c
  induction c using Nat.strong_induction_on with
  | _ c ih =>
    intro len mem hclear hlen
    have hcount : len.toNat < 256 := len.toNat_lt
    rcases Nat.eq_zero_or_pos c with rfl | hc
    · exact covers_zeros _ len mem rfl (by simpa using hclear) (by omega)
    by_cases hz : len = 0
    · exact ⟨[], mem, rfl, hz⟩
    cases mem with
    | nil => simp at hlen
    | cons b mem =>
      rw [List.length_cons] at hlen
      obtain ⟨k, n, rfl⟩ := header_of_byte b
      have hrec : k.width * n ≤ 189 := by
        have hw : k.width ≤ 3 := by cases k <;> decide
        have hn : (n : ℕ) ≤ 63 := by omega
        exact Nat.mul_le_mul hw hn
      let g : Subframe := ⟨k, n, mem.take (k.width * n), by rw [List.length_take]; omega⟩
      have hg : g.payload.length = k.width * n := g.length_eq
      have hrest : ∃ fs rest, mem.drop (k.width * n) = encode fs ++ rest ∧
          Covers (len - 1 - UInt8.ofNat g.payload.length) fs := by
        by_cases hin : k.width * n + 1 ≤ c
        · -- the payload ends before the clear part
          apply ih (c - (k.width * n + 1)) (by omega)
          · have hdrop : c = (k.width * n + (c - (k.width * n + 1))) + 1 := by omega
            rw [hdrop, List.drop_succ_cons, ← List.drop_drop] at hclear
            exact hclear
          · rw [List.length_drop]
            omega
        · have hall : ∀ b ∈ mem.drop (k.width * n), b = 0 := by
            intro b hb
            apply hclear
            have hc' : c = (c - 1) + 1 := by omega
            have hdrop : k.width * n = (c - 1) + (k.width * n - (c - 1)) := by omega
            rw [hdrop, ← List.drop_drop] at hb
            rw [hc', List.drop_succ_cons]
            exact List.mem_of_mem_drop hb
          apply covers_zeros _ _ _ rfl hall
          have hlt := (len - 1 - UInt8.ofNat g.payload.length).toNat_lt
          rw [List.length_drop]
          omega
      obtain ⟨fs, rest, e, hcov⟩ := hrest
      refine ⟨g :: fs, rest, ?_, hz, hcov⟩
      rw [encode_cons, List.cons_append, List.append_assoc, ← e]
      congr 1
      exact (List.take_append_drop _ _).symm

theorem frame_covers (f : Frame) :
    ∃ len fs rest, f.bytes = len :: (encode fs ++ rest) ∧ Covers len fs := by
  have hlen := f.length_eq
  have hclear := f.clean
  cases hf : f.bytes with
  | nil =>
    rw [hf] at hlen
    simp [bufSize] at hlen
  | cons len mem =>
    rw [hf] at hlen hclear
    obtain ⟨fs, rest, e, hcov⟩ := exists_covers 2047 len mem hclear
      (by simp only [List.length_cons, bufSize] at hlen; omega)
    exact ⟨len, fs, rest, by rw [e], hcov⟩

/-! ### The places of the bytes -/

theorem visitsOf_append (fs gs : List Subframe) :
    ∀ n, visitsOf n (fs ++ gs) = visitsOf n fs ++ visitsOf (n + (encode fs).length) gs := by
  induction fs with
  | nil => intro n; rfl
  | cons f fs ih =>
    intro n
    have hn : n + 1 + f.payload.length + (encode fs).length = n + (encode (f :: fs)).length := by
      rw [encode_cons, List.length_cons, List.length_append]
      omega
    rw [List.cons_append, visitsOf, visitsOf, ih, hn, List.cons_append]

theorem mem_visit {d : Delivery} {f : Subframe} {n : ℕ} (h : d ∈ (f.visit n).deliveries) :
    ∃ i, f.payload[i]? = some d.byte ∧ d.index = n + 1 + i := by
  obtain ⟨⟨b, j⟩, hj, rfl⟩ := List.mem_map.1 h
  obtain ⟨hle, hget⟩ := List.mem_zipIdx_iff_le_and_getElem?_sub.1 hj
  exact ⟨j - (n + 1), hget, (Nat.add_sub_cancel' hle).symm⟩

theorem visit_mem (f : Subframe) (n : ℕ) {i : ℕ} {b : UInt8} (h : f.payload[i]? = some b) :
    ⟨f.kind.target, n + 1 + i, b⟩ ∈ (f.visit n).deliveries := by
  refine List.mem_map.2 ⟨(b, n + 1 + i), ?_, by simp [Subframe.visit, subframeTarget_code]⟩
  exact List.mk_add_mem_zipIdx_iff_getElem?.2 h

theorem mem_visitsOf {d : Delivery} (fs : List Subframe) :
    ∀ n, d ∈ (visitsOf n fs).flatMap Visit.deliveries →
      ∃ pre g post i, fs = pre ++ g :: post ∧ g.payload[i]? = some d.byte ∧
        d.index = n + (encode pre).length + 1 + i := by
  induction fs with
  | nil => intro n h; simp [visitsOf] at h
  | cons f fs ih =>
    intro n h
    rw [visitsOf, List.flatMap_cons] at h
    rcases List.mem_append.1 h with h | h
    · obtain ⟨i, hi, he⟩ := mem_visit h
      exact ⟨[], f, fs, i, rfl, hi, he⟩
    · obtain ⟨pre, g, post, i, rfl, hi, he⟩ := ih _ h
      refine ⟨f :: pre, g, post, i, rfl, hi, ?_⟩
      rw [he, encode_cons, List.length_cons, List.length_append]
      omega

theorem visitsOf_mem (pre : List Subframe) (g : Subframe) (post : List Subframe) (n : ℕ) {i : ℕ}
    {b : UInt8} (h : g.payload[i]? = some b) :
    ⟨g.kind.target, n + (encode pre).length + 1 + i, b⟩ ∈
      (visitsOf n (pre ++ g :: post)).flatMap Visit.deliveries := by
  rw [visitsOf_append, List.flatMap_append, visitsOf, List.flatMap_cons]
  exact List.mem_append_right _ (List.mem_append_left _ (visit_mem g _ h))

/-- The byte of a payload, found in the frame. -/
theorem payload_at (len : UInt8) (pre : List Subframe) (g : Subframe) (post : List Subframe)
    (rest : List UInt8) {i : ℕ} {b : UInt8} (h : g.payload[i]? = some b) :
    (len :: (encode (pre ++ g :: post) ++ rest))[1 + (encode pre).length + 1 + i]? = some b := by
  have hsplit : len :: (encode (pre ++ g :: post) ++ rest) =
      (len :: encode pre ++ [g.header]) ++ (g.payload ++ (encode post ++ rest)) := by
    simp [encode, Subframe.encode]
  have hfront : (len :: encode pre ++ [g.header]).length = 1 + (encode pre).length + 1 := by
    simp only [List.length_append, List.length_cons, List.length_nil]
    omega
  rw [hsplit, ← hfront, List.getElem?_append_right (Nat.le_add_right _ _), Nat.add_sub_cancel_left,
    List.getElem?_append_left (List.getElem?_eq_some_iff.1 h).1]
  exact h

theorem encode_snoc_length (pre : List Subframe) (g : Subframe) :
    (encode (pre ++ [g])).length = (encode pre).length + 1 + g.payload.length := by
  simp only [encode, List.flatMap_append, List.length_append, List.flatMap_singleton,
    Subframe.encode, List.length_cons]
  omega

/-! ### The calls -/

theorem onlyReceived_iff (f : Frame) (r : Recv) : OnlyReceived f r ↔ Enclosed f r := by
  constructor
  · rintro ⟨ds, hds, -, hin⟩
    obtain ⟨len, fs, rest, hframe, hcov⟩ := frame_covers (f.recv r)
    refine ⟨len, fs, rest, hframe, hcov, ?_⟩
    rintro pre g post rfl hne
    rw [hframe, deliveries_frame hcov rest] at hds
    obtain rfl := Option.some.inj hds
    -- the last byte of the payload is handed on, so that it came in
    have hpos : 0 < g.payload.length := List.length_pos_iff.2 hne
    have hlast : g.payload[g.payload.length - 1]? = some (g.payload.getLast hne) := by
      rw [List.getLast_eq_getElem, List.getElem?_eq_getElem (by omega)]
    have hget := (hin _ (visitsOf_mem pre g post 1 hlast)).2
    have hlt := (List.getElem?_eq_some_iff.1 hget).1
    rw [encode_snoc_length]
    simp only at hlt
    omega
  · rintro ⟨len, fs, rest, hframe, hcov, hin⟩
    have hds : deliveries (f.recv r).bytes = some ((visitsOf 1 fs).flatMap Visit.deliveries) := by
      rw [hframe, deliveries_frame hcov rest]
    refine ⟨_, hds, dataIndication_delivered hds r.received, ?_⟩
    intro d hd
    obtain ⟨pre, g, post, i, rfl, hget, hidx⟩ := mem_visitsOf fs 1 hd
    have hi : i < g.payload.length := (List.getElem?_eq_some_iff.1 hget).1
    have hend := hin pre g post rfl (List.ne_nil_of_length_pos (by omega))
    rw [encode_snoc_length] at hend
    have hmem := payload_at len pre g post rest hget
    rw [← hframe, ← hidx, Frame.recv_bytes, List.getElem?_append_left (by omega)] at hmem
    exact ⟨by omega, hmem⟩

/-- Over whole sessions: all calls hand on only what they received exactly when in each of them
the subframes with a payload lie in the received bytes. -/
theorem only_received_iff (rs : List Recv) :
    Runs.Along Frame.recv OnlyReceived .init rs ↔ Runs.Along Frame.recv Enclosed .init rs :=
  Runs.along_congr (fun _ => True) (fun f r _ _ => onlyReceived_iff f r)
    (fun _ _ _ _ _ => trivial) trivial

/-- A key, and a frame that announces two keys and has one. -/
def keyRecv : Recv := .data [2, 0x41, 0x1e] (by decide) (by decide)
def cutRecv : Recv := .data [3, 0x42, 0x1e] (by decide) (by decide)

/-- The end of the connection types the key again, and the second key of the cut frame is
what the buffer held. -/
theorem old_bytes_injected :
    ¬ Runs.Along Frame.recv OnlyReceived .init [keyRecv, .eof] ∧
      ¬ Runs.Along Frame.recv OnlyReceived .init [cutRecv] := by
  constructor
  · rintro ⟨-, ⟨ds, hds, -, hin⟩, -⟩
    have hframe : ((Frame.init.recv keyRecv).recv .eof).bytes =
        2 :: (encode [⟨.keyboard, 1, [0x1e], rfl⟩] ++ Frame.init.bytes.drop 3) := rfl
    have hcov : Covers 2 [⟨.keyboard, 1, [0x1e], rfl⟩] := ⟨by decide, rfl⟩
    rw [hframe, deliveries_frame hcov] at hds
    obtain rfl := Option.some.inj hds
    exact absurd (hin ⟨.console, 2, 0x1e⟩ (by decide)).2 (by decide)
  · rintro ⟨⟨ds, hds, -, hin⟩, -⟩
    have hframe : (Frame.init.recv cutRecv).bytes =
        3 :: (encode [⟨.keyboard, 2, [0x1e, 0x00], rfl⟩] ++ Frame.init.bytes.drop 4) := rfl
    have hcov : Covers 3 [⟨.keyboard, 2, [0x1e, 0x00], rfl⟩] := ⟨by decide, rfl⟩
    rw [hframe, deliveries_frame hcov] at hds
    obtain rfl := Option.some.inj hds
    exact absurd (hin ⟨.console, 3, 0x00⟩ (by decide)).2 (by decide)

end Irkbd
