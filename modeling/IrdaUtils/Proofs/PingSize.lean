import IrdaUtils.Spec.Irdaping

/-! The size of the frames of `irdaping`. A size below the two structures is raised to them,
but a negative one is a large `size_t` and is not, and there is no upper limit. -/

namespace Irdaping

open Memory ByteOrder Stores

/-- What a frame of `framelen` bytes must keep to. -/
structure FrameFits (o : Order) (a : Abi) (ping : Instance) (now : Timeval a) (framelen : ℤ) :
    Prop where
  low : (sizeofTestFrame + a.sizeofTestInfo : ℤ) ≤ framelen
  high : framelen ≤ sizeofBuf
  writes : ∀ w ∈ frameLog o a ping framelen now, (w.1 : ℤ) < framelen
  sent : a.sizeT framelen = framelen

/-- The number that the last `-s` gives, as `strtol` reads it. -/
def sizeGiven (a : Abi) : List Opt → ℤ → ℤ
  | [], z => z
  | .s optarg :: opts, _ => sizeGiven a opts (Decimal.strtol a.bits optarg)
  | .i _ :: opts, z => sizeGiven a opts z
  | .unknown :: opts, z => sizeGiven a opts z

/-! ### Conversions -/

theorem sizeT_of_nonneg (a : Abi) {z : ℤ} (h0 : 0 ≤ z) (h : z < 2 ^ 31) : a.sizeT z = z := by
  refine Int.emod_eq_of_lt h0 (h.trans ?_)
  cases a <;> decide

theorem sizeT_of_neg (a : Abi) {z : ℤ} (h0 : z < 0) (h : -2 ^ 31 ≤ z) : 2 ^ 31 ≤ a.sizeT z := by
  cases a <;> simp only [Abi.sizeT, Abi.bits, Abi.field] <;> omega

theorem wrap_bounds (z : ℤ) : -2 ^ 31 ≤ wrap 4 z ∧ wrap 4 z < 2 ^ 31 := by
  have hl := Int.le_bmod (x := z) (m := 2 ^ (8 * 4)) (by decide)
  have hu := Int.bmod_lt (x := z) (m := 2 ^ (8 * 4)) (by decide)
  unfold wrap
  omega

theorem wrap_of_bounds {z : ℤ} (h0 : -2 ^ 31 ≤ z) (h : z < 2 ^ 31) : wrap 4 z = z := by
  unfold wrap
  rw [Int.bmod_def]
  split_ifs <;> omega

/-- The `int` of a number is in the buffer when the number is, up to multiples of 2 ^ 32. -/
theorem wrap_range (z : ℤ) : 0 ≤ wrap 4 z ∧ wrap 4 z ≤ 2048 ↔ z % 2 ^ 32 ≤ 2048 := by
  unfold wrap
  rw [Int.bmod_def]
  split_ifs <;> omega

theorem Abi.fillAt_le (a : Abi) : (20 : ℤ) ≤ a.fillAt ∧ (a.fillAt : ℤ) ≤ 28 := by
  cases a <;> decide

theorem fillAt_eq (a : Abi) : (sizeofTestFrame + a.sizeofTestInfo : ℤ) = a.fillAt := by
  cases a <;> rfl

theorem floor_eq_fillAt (a : Abi) : (12 + a.sizeofTimeval : ℤ) = a.fillAt := by
  cases a <;> rfl

/-! ### The correction -/

theorem correct_of_neg (a : Abi) {f : ℤ} (h0 : f < 0) (h : -2 ^ 31 ≤ f) :
    correctFramesize a f = f := by
  have hbig := sizeT_of_neg a h0 h
  have hfill := a.fillAt_le
  rw [correctFramesize, floor_eq_fillAt, if_neg (by omega)]

theorem correct_of_nonneg (a : Abi) {f : ℤ} (h0 : 0 ≤ f) (h : f < 2 ^ 31) :
    correctFramesize a f = max f a.fillAt := by
  rw [correctFramesize, floor_eq_fillAt, sizeT_of_nonneg a h0 h]
  split_ifs with hlt
  · exact (max_eq_right hlt.le).symm
  · exact (max_eq_left (not_lt.1 hlt)).symm

/-- For sizes that an `int` has, it is the correction of `start`. -/
theorem start_framelen (a : Abi) (hwaddr daddr : ℕ) {n : ℕ} (h : n < 2 ^ 31) :
    ((start a hwaddr daddr n).framelen : ℤ) = correctFramesize a n := by
  rw [correctFramesize, sizeT_of_nonneg a (Int.natCast_nonneg n) (by omega), start]
  simp only
  split_ifs <;> omega

/-! ### The frame -/

theorem restOf_eq (a : Abi) {f : ℤ} (h0 : a.fillAt ≤ f) (h : f < 2 ^ 31) :
    restOf a f = f - a.fillAt := by
  have hfill := a.fillAt_le
  have hsub : f - sizeofTestFrame - a.sizeofTestInfo = f - a.fillAt := by
    rw [← fillAt_eq]
    ring
  rw [restOf, sizeT_of_nonneg a (by omega) h, hsub, sizeT_of_nonneg a (by omega) (by omega),
    wrap_of_bounds (by omega) (by omega)]

/-- No field of the frame is behind the two structures, and the filling ends with the frame. -/
theorem frameLog_lt (o : Order) (a : Abi) (self : Instance) (now : Timeval a) {f : ℤ}
    (h0 : a.fillAt ≤ f) (h : f < 2 ^ 31) :
    ∀ w ∈ frameLog o a self f now, (w.1 : ℤ) < f := by
  have hfill := a.fillAt_le
  have hrest := restOf_eq a h0 h
  have hcopy : ∀ {at_ : ℕ} {bs : List UInt8}, (at_ + bs.length : ℤ) ≤ f →
      ∀ w ∈ copyTo at_ bs, (w.1 : ℤ) < f := by
    intro at_ bs hle w hw
    have := mem_copyTo bs hw
    omega
  intro w hw
  simp only [frameLog, List.mem_append] at hw
  obtain (((((hw | hw) | hw) | hw) | hw) | hw) | hw := hw
  · exact hcopy (by simp only [List.length_singleton]; omega) w hw
  · exact hcopy (by simp only [List.length_singleton]; omega) w hw
  · exact hcopy (by rw [leBytes_length]; omega) w hw
  · exact hcopy (by rw [leBytes_length]; omega) w hw
  · exact hcopy (by rw [leBytes_length, pktNrAt, sizeofTestFrame]; omega) w hw
  · have htake : ((now.bytes o).take sizeofTimezone).length ≤ 8 := List.length_take_le _ _
    exact hcopy (by rw [timeAt, pktNrAt, sizeofTestFrame]; omega) w hw
  · exact hcopy (by rw [List.length_map, List.length_range]; omega) w hw

/-- The writes make the frame of `buildFrame`. -/
theorem play_frameLog (o : Order) (a : Abi) (self : Instance) (now : Timeval a)
    (h0 : a.fillAt ≤ self.framelen) (h : self.framelen < 2 ^ 31) :
    play self.buf (frameLog o a self self.framelen now) = buildFrame o a self now := by
  have hrest : (restOf a self.framelen).toNat = self.framelen - sizeofTestFrame - a.sizeofTestInfo := by
    have hfill : a.fillAt = sizeofTestFrame + a.sizeofTestInfo := rfl
    rw [restOf_eq a (by omega) (by omega)]
    omega
  simp only [frameLog, play_append, play_copyTo, hrest]
  rfl

/-! ### The options -/

theorem foldl_option (a : Abi) (opts : List Opt) :
    ∀ z, opts.foldl (option a) (wrap 4 z) = wrap 4 (sizeGiven a opts z) := by
  induction opts with
  | nil => intro z; rfl
  | cons o opts ih =>
    intro z
    cases o with
    | s optarg => exact ih _
    | i optarg => exact ih z
    | unknown => exact ih z

theorem framelenOf_eq (a : Abi) (opts : List Opt) :
    framelenOf a opts = wrap 4 (sizeGiven a opts 32) := foldl_option a opts 32

/-- The frames fit into their buffer exactly when the size that is asked for is, up to
multiples of 2 ^ 32, at least 0 and at most 2048. -/
theorem frame_fits_iff (o : Order) (a : Abi) (opts : List Opt) (self : Instance)
    (now : Timeval a) :
    FrameFits o a self now (correctFramesize a (framelenOf a opts)) ↔
      sizeGiven a opts 32 % 2 ^ 32 ≤ 2048 := by
  have hfill := a.fillAt_le
  obtain ⟨hlow, hhigh⟩ := wrap_bounds (sizeGiven a opts 32)
  rw [framelenOf_eq, ← wrap_range]
  generalize wrap 4 (sizeGiven a opts 32) = f at hlow hhigh
  constructor
  · intro h
    have h1 := h.low
    have h2 := h.high
    rw [fillAt_eq] at h1
    by_cases hneg : f < 0
    · rw [correct_of_neg a hneg hlow] at h1
      omega
    · rw [correct_of_nonneg a (not_lt.1 hneg) hhigh, sizeofBuf] at h2
      omega
  · rintro ⟨h0, h⟩
    have hc : correctFramesize a f = max f a.fillAt := correct_of_nonneg a h0 hhigh
    rw [hc]
    refine ⟨?_, ?_, frameLog_lt o a self now (le_max_right _ _) ?_, sizeT_of_nonneg a ?_ ?_⟩
    · rw [fillAt_eq]
      exact le_max_right _ _
    · rw [sizeofBuf]
      omega
    all_goals omega

/-- With `-s 3000` the frame is longer than the buffer, and with `-s -1` it is shorter than
its own fields. -/
theorem large_and_negative_sizes :
    ¬ FrameFits .little .lp64 (start .lp64 1 2 3000) ⟨1, 0, by decide, by decide⟩
      (correctFramesize .lp64 (framelenOf .lp64 [.s (Decimal.ascii "3000")])) ∧
    ¬ FrameFits .little .lp64 (start .lp64 1 2 3000) ⟨1, 0, by decide, by decide⟩
      (correctFramesize .lp64 (framelenOf .lp64 [.s (Decimal.ascii "-1")])) := by
  have hlarge : correctFramesize .lp64 (framelenOf .lp64 [.s (Decimal.ascii "3000")]) = 3000 := by
    decide
  have hneg : correctFramesize .lp64 (framelenOf .lp64 [.s (Decimal.ascii "-1")]) = -1 := by
    decide
  rw [hlarge, hneg]
  exact ⟨fun h => absurd h.high (by decide), fun h => absurd h.low (by decide)⟩

end Irdaping
