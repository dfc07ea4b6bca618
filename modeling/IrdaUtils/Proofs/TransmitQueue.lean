import IrdaUtils.Lib.Runs
import IrdaUtils.Spec.Ircard

/-! The transmit queue keeps its order: whatever comes in between, frames lie one behind the
other in the shared memory and are started in turn. What it does not keep is the end of the
window, since eight frames of the largest size are longer than the transmit half. -/

namespace Ircard

open Memory

/-! ### Places in the shared memory -/

/-- Where the frame behind `fs` begins, from the start of the transmit half. -/
def offset (fs : List (List UInt8)) : ℕ := (fs.map List.length).sum

@[simp] theorem offset_nil : offset [] = 0 := rfl

theorem offset_concat (fs : List (List UInt8)) (f : List UInt8) :
    offset (fs ++ [f]) = offset fs + f.length := by
  simp [offset]

theorem offset_take_succ {fs : List (List UInt8)} {i : ℕ} (h : i < fs.length) :
    offset (fs.take (i + 1)) = offset (fs.take i) + fs[i].length := by
  rw [List.take_succ_eq_append_getElem h, offset_concat]

theorem offset_take_mono (fs : List (List UInt8)) {i j : ℕ} (h : i ≤ j) :
    offset (fs.take i) ≤ offset (fs.take j) := by
  obtain ⟨k, rfl⟩ := Nat.exists_eq_add_of_le h
  rw [List.take_add, offset, offset, List.map_append, List.sum_append]
  omega

theorem offset_take_le (fs : List (List UInt8)) (i : ℕ) : offset (fs.take i) ≤ offset fs := by
  rcases Nat.lt_or_ge i fs.length with h | h
  · calc offset (fs.take i) ≤ offset (fs.take fs.length) := offset_take_mono fs h.le
      _ = offset fs := by rw [List.take_length]
  · rw [List.take_of_length_le h]

/-! ### The invariant -/

/-- The address of the transmit half. -/
def Cb.txBase (s : Cb) : ℕ := shmemTxStart + s.membase

/-- The frames since the last reset lie one behind the other and are held there. -/
structure Layout (s : Cb) : Prop where
  ptr : 0 ≤ s.txQ.ptr
  len : 0 ≤ s.txQ.len
  sum : s.txQ.ptr + s.txQ.len = s.txQ.free
  free : s.txQ.free = s.since.length
  tail : s.txQ.tail = s.txBase + offset s.since
  entry : ∀ i (h : i < s.since.length),
    s.txQ.queue i = ⟨s.txBase + offset (s.since.take i), s.since[i].length⟩
  held : ∀ i (h : i < s.since.length),
    load s.mem (s.txBase + offset (s.since.take i)) s.since[i].length = s.since[i]

/-- Of the frames in the queue, those behind `ptr` wait for their start. -/
structure QueueInv (s : Cb) : Prop extends Layout s where
  order : s.queued = s.dma.map Dma.data ++ s.since.drop (s.txQ.ptr.toNat + 1)
  inFlight : s.inFlight = if s.txQ.len = 0 then 0 else 1

theorem Layout.counters {s : Cb} (h : Layout s) :
    0 ≤ s.txQ.ptr ∧ 0 ≤ s.txQ.len ∧ s.txQ.ptr + s.txQ.len = s.txQ.free ∧
      s.txQ.free = (s.since.length : ℤ) := ⟨h.ptr, h.len, h.sum, h.free⟩

theorem empty_layout {s : Cb} (hq : s.txQ.ptr = 0 ∧ s.txQ.len = 0 ∧ s.txQ.free = 0)
    (ht : s.txQ.tail = s.txBase) (hs : s.since = []) : Layout s := by
  obtain ⟨h1, h2, h3⟩ := hq
  refine ⟨h1.ge, h2.ge, by omega, by rw [h3, hs]; rfl, by rw [ht, hs]; rfl, ?_, ?_⟩
  · intro i h
    rw [hs] at h
    cases h
  · intro i h
    rw [hs] at h
    cases h

theorem config_inv (membase : ℕ) (mem : Mem) (queue : ℤ → FrameCb) :
    QueueInv (.config membase mem queue) :=
  ⟨empty_layout ⟨rfl, rfl, rfl⟩ rfl rfl, rfl, rfl⟩

theorem dmaWrite_layout {s : Cb} (h : Layout s) : Layout (dmaWrite s) :=
  ⟨h.ptr, h.len, h.sum, h.free, h.tail, h.entry, h.held⟩

/-- The DMA is started for the frame at `ptr`, with the bytes that were queued for it. -/
theorem dmaWrite_inv {s : Cb} (h : Layout s) (hlen : s.txQ.len ≠ 0) (hf : s.inFlight = 0)
    (ho : s.queued = s.dma.map Dma.data ++ s.since.drop s.txQ.ptr.toNat) :
    QueueInv (dmaWrite s) := by
  obtain ⟨h1, h2, h3, h4⟩ := h.counters
  have hlt : s.txQ.ptr.toNat < s.since.length := by omega
  have hptr : ((s.txQ.ptr.toNat : ℕ) : ℤ) = s.txQ.ptr := Int.toNat_of_nonneg h1
  have he := h.entry _ hlt
  rw [hptr] at he
  refine ⟨dmaWrite_layout h, ?_, ?_⟩
  · have hdata : load s.mem (s.txQ.queue s.txQ.ptr).start (s.txQ.queue s.txQ.ptr).len
        = s.since[s.txQ.ptr.toNat] := by
      rw [he]
      exact h.held _ hlt
    have hd : (dmaWrite s).dma.map Dma.data = s.dma.map Dma.data ++ [s.since[s.txQ.ptr.toNat]] := by
      rw [← hdata]
      simp [dmaWrite]
    rw [hd, List.append_assoc, List.singleton_append]
    exact ho.trans (by rw [List.drop_eq_getElem_cons hlt]; rfl)
  · have e : (dmaWrite s).inFlight = s.inFlight + 1 := rfl
    have e' : (dmaWrite s).txQ.len = s.txQ.len := rfl
    rw [e, e', hf, if_neg hlen]

theorem enqueue_entry {s : Cb} (h : Layout s) (skb : List UInt8) (i : ℕ)
    (hi : i < (s.since ++ [skb]).length) :
    (enqueue s skb).txQ.queue i =
      ⟨s.txBase + offset ((s.since ++ [skb]).take i), (s.since ++ [skb])[i].length⟩ := by
  change Function.update s.txQ.queue s.txQ.free ⟨s.txQ.tail, skb.length⟩ (i : ℤ) = _
  rw [List.length_append, List.length_singleton] at hi
  rcases Nat.lt_succ_iff_lt_or_eq.1 hi with hlt | rfl
  · have hne : (i : ℤ) ≠ s.txQ.free := by
      rw [h.free]
      omega
    rw [Function.update_of_ne hne, h.entry i hlt, List.take_append_of_le_length hlt.le,
      List.getElem_append_left hlt]
  · rw [h.free, Function.update_self, h.tail, List.take_left' rfl, List.getElem_concat_length rfl]

/-- A frame at the tail leaves those before it alone. -/
theorem enqueue_held {s : Cb} (h : Layout s) (skb : List UInt8) (i : ℕ)
    (hi : i < (s.since ++ [skb]).length) :
    load (store s.mem s.txQ.tail skb) (s.txBase + offset ((s.since ++ [skb]).take i))
      (s.since ++ [skb])[i].length = (s.since ++ [skb])[i] := by
  rw [List.length_append, List.length_singleton] at hi
  rcases Nat.lt_succ_iff_lt_or_eq.1 hi with hlt | rfl
  · have hend : offset (s.since.take i) + s.since[i].length ≤ offset s.since := by
      rw [← offset_take_succ hlt]
      exact offset_take_le s.since (i + 1)
    simp only [List.take_append_of_le_length hlt.le, List.getElem_append_left hlt]
    rw [load_store_disjoint (by rw [h.tail]; omega)]
    exact h.held i hlt
  · simp only [List.take_left' rfl, List.getElem_concat_length rfl, ← h.tail]
    exact load_store s.mem s.txQ.tail skb

theorem enqueue_layout {s : Cb} (h : Layout s) (skb : List UInt8) : Layout (enqueue s skb) := by
  obtain ⟨h1, h2, h3, h4⟩ := h.counters
  refine ⟨h.ptr, ?_, ?_, ?_, ?_, ?_, ?_⟩
  · change 0 ≤ s.txQ.len + 1
    omega
  · change s.txQ.ptr + (s.txQ.len + 1) = s.txQ.free + 1
    omega
  · change s.txQ.free + 1 = ((s.since ++ [skb]).length : ℤ)
    rw [List.length_append, List.length_singleton]
    push_cast
    omega
  · change s.txQ.tail + skb.length = s.txBase + offset (s.since ++ [skb])
    rw [offset_concat, h.tail]
    omega
  · exact enqueue_entry h skb
  · exact enqueue_held h skb

theorem hardXmit_inv {s : Cb} (h : QueueInv s) (skb : List UInt8) : QueueInv (hardXmit s skb) := by
  obtain ⟨h1, h2, h3, h4⟩ := h.counters
  have hl := enqueue_layout h.toLayout skb
  have hlen : (enqueue s skb).txQ.len = s.txQ.len + 1 := rfl
  unfold hardXmit
  simp only [hlen]
  by_cases h0 : s.txQ.len = 0
  · rw [if_pos (by omega)]
    refine dmaWrite_inv hl (by omega) ?_ ?_
    · change s.inFlight = 0
      rw [h.inFlight, if_pos h0]
    · -- nothing waited, and the new frame is the one at `ptr`
      change s.queued ++ [skb] = s.dma.map Dma.data ++ (s.since ++ [skb]).drop s.txQ.ptr.toNat
      have e : s.txQ.ptr.toNat = s.since.length := by omega
      rw [h.order, List.drop_of_length_le (by omega), List.append_nil, e, List.drop_left' rfl]
  · rw [if_neg (by omega)]
    refine ⟨hl, ?_, ?_⟩
    · change s.queued ++ [skb] = s.dma.map Dma.data ++ (s.since ++ [skb]).drop (s.txQ.ptr.toNat + 1)
      rw [h.order, List.append_assoc, List.drop_append_of_le_length (by omega)]
    · rw [hlen, if_neg (by omega)]
      change s.inFlight = 1
      rw [h.inFlight, if_neg h0]

theorem retire_layout {s : Cb} (h : Layout s) (hlen : s.txQ.len ≠ 0) : Layout (retire s) := by
  obtain ⟨h1, h2, h3, -⟩ := h.counters
  refine ⟨?_, ?_, ?_, h.free, h.tail, h.entry, h.held⟩
  · change 0 ≤ s.txQ.ptr + 1
    omega
  · change 0 ≤ s.txQ.len - 1
    omega
  · change s.txQ.ptr + 1 + (s.txQ.len - 1) = s.txQ.free
    omega

theorem xmitComplete_inv {s : Cb} (h : QueueInv s) (hf : s.inFlight ≠ 0) (empty : Bool) :
    QueueInv (xmitComplete s empty) := by
  have h0 : s.txQ.len ≠ 0 := by
    intro h0
    rw [h.inFlight, if_pos h0] at hf
    exact hf rfl
  obtain ⟨h1, h2, h3, h4⟩ := h.counters
  have hl := retire_layout h.toLayout h0
  have hptr : (retire s).txQ.ptr.toNat = s.txQ.ptr.toNat + 1 := by
    change (s.txQ.ptr + 1).toNat = s.txQ.ptr.toNat + 1
    omega
  have hflight : (retire s).inFlight = 0 := by
    change s.inFlight - 1 = 0
    rw [h.inFlight, if_neg h0]
  have horder : (retire s).queued =
      (retire s).dma.map Dma.data ++ (retire s).since.drop (retire s).txQ.ptr.toNat := by
    rw [hptr]
    exact h.order
  unfold xmitComplete
  simp only
  split_ifs with hne hempty
  · exact dmaWrite_inv hl hne hflight horder
  all_goals
    have hlen : (retire s).txQ.len = 0 := not_not.1 hne
    have hsum := hl.sum
    have hfree := hl.free
    have hdone : (retire s).queued = (retire s).dma.map Dma.data := by
      rw [horder, List.drop_of_length_le (by omega), List.append_nil]
  · refine ⟨empty_layout ⟨rfl, rfl, rfl⟩ rfl rfl, ?_, ?_⟩
    · exact hdone.trans (List.append_nil _).symm
    · exact hflight
  · refine ⟨hl, ?_, ?_⟩
    · rw [hdone, List.drop_of_length_le (by omega), List.append_nil]
    · rw [hflight, if_pos hlen]

theorem step_inv (s : Cb) (e : Event) (h : QueueInv s) (ha : Allowed s e) : QueueInv (step s e) := by
  cases e with
  | xmit skb => exact hardXmit_inv h skb
  | complete empty => exact xmitComplete_inv h ha empty

/-! ### What the queue promises -/

structure Sound (s : Cb) : Prop where
  len : 0 ≤ s.txQ.len
  sum : s.txQ.ptr + s.txQ.len = s.txQ.free
  free : s.txQ.free ≤ maxWindow
  /-- All frames but those that wait behind the current one were started, in turn. -/
  order : s.dma.map Dma.data = s.queued.take (s.queued.length - (s.txQ.len.toNat - 1))
  disjoint : ∀ i j : ℕ, i ≠ j → (i : ℤ) < s.txQ.free → (j : ℤ) < s.txQ.free →
    (s.txQ.queue i).start + (s.txQ.queue i).len ≤ (s.txQ.queue j).start ∨
      (s.txQ.queue j).start + (s.txQ.queue j).len ≤ (s.txQ.queue i).start
  inside : ∀ i : ℕ, (i : ℤ) < s.txQ.free →
    s.membase + shmemTxStart ≤ (s.txQ.queue i).start ∧
      (s.txQ.queue i).start + (s.txQ.queue i).len ≤ s.membase + windowSize

theorem started_in_order {s : Cb} (h : QueueInv s) :
    s.dma.map Dma.data = s.queued.take (s.queued.length - (s.txQ.len.toNat - 1)) := by
  obtain ⟨h1, h2, h3, h4⟩ := h.counters
  have hlen : s.queued.length = (s.dma.map Dma.data).length + (s.txQ.len.toNat - 1) := by
    rw [h.order, List.length_append, List.length_drop]
    omega
  rw [hlen, Nat.add_sub_cancel, h.order, List.take_left' rfl]

/-- Where a frame of the queue ends, and the next one can begin. -/
theorem entry_end {s : Cb} (h : Layout s) {i : ℕ} (hi : i < s.since.length) :
    (s.txQ.queue i).start = s.txBase + offset (s.since.take i) ∧
      (s.txQ.queue i).start + (s.txQ.queue i).len = s.txBase + offset (s.since.take (i + 1)) := by
  rw [h.entry i hi, offset_take_succ hi]
  exact ⟨rfl, Nat.add_assoc ..⟩

theorem entries_apart {s : Cb} (h : Layout s) {i j : ℕ} (hij : i < j) (hj : j < s.since.length) :
    (s.txQ.queue i).start + (s.txQ.queue i).len ≤ (s.txQ.queue j).start := by
  rw [(entry_end h (hij.trans hj)).2, (entry_end h hj).1]
  exact Nat.add_le_add_left (offset_take_mono _ hij) _

/-- Everything holds of the queue but, possibly, the end of the window. -/
theorem sound_iff {s : Cb} (h : QueueInv s) (hw : s.since.length ≤ maxWindow) :
    Sound s ↔ s.txQ.tail ≤ s.membase + windowSize := by
  have hfree := h.free
  have hbase : s.txBase = shmemTxStart + s.membase := rfl
  constructor
  · intro hs
    rcases Nat.eq_zero_or_pos s.since.length with h0 | hpos
    · rw [h.tail, List.length_eq_zero_iff.1 h0, hbase]
      simp only [offset_nil, shmemTxStart, windowSize]
      omega
    · have hlast : s.since.length - 1 < s.since.length := by omega
      have he := (entry_end h.toLayout hlast).2
      rw [Nat.sub_add_cancel hpos, List.take_length, ← h.tail] at he
      rw [← he]
      exact (hs.inside _ (by omega)).2
  · intro ht
    refine ⟨h.len, h.sum, by omega, started_in_order h, ?_, ?_⟩
    · intro i j hij hi hj
      rcases Nat.lt_or_gt_of_ne hij with hlt | hlt
      · exact .inl (entries_apart h.toLayout hlt (by omega))
      · exact .inr (entries_apart h.toLayout hlt (by omega))
    · intro i hi
      have hi' : i < s.since.length := by omega
      obtain ⟨he, he'⟩ := entry_end h.toLayout hi'
      rw [h.tail] at ht
      refine ⟨by rw [he, hbase]; omega, ?_⟩
      rw [he']
      exact (Nat.add_le_add_left (offset_take_le _ _) _).trans ht

/-- The frame does not go past the window. -/
def Fits (s : Cb) : Event → Prop
  | .xmit skb => s.txQ.tail + skb.length ≤ s.membase + windowSize
  | .complete _ => True

instance (s : Cb) : (e : Event) → Decidable (Fits s e)
  | .xmit skb => inferInstanceAs (Decidable (s.txQ.tail + skb.length ≤ s.membase + windowSize))
  | .complete _ => .isTrue trivial

theorem step_window {s : Cb} {e : Event} (hw : s.since.length ≤ maxWindow) (ha : Allowed s e) :
    (step s e).since.length ≤ maxWindow := by
  cases e with
  | xmit skb =>
    have hs : (hardXmit s skb).since = s.since ++ [skb] := by
      unfold hardXmit
      simp only
      split_ifs <;> rfl
    change (hardXmit s skb).since.length ≤ maxWindow
    rw [hs, List.length_append, List.length_singleton]
    exact ha.2.2
  | complete empty =>
    change (xmitComplete s empty).since.length ≤ maxWindow
    unfold xmitComplete
    simp only
    split_ifs
    · exact hw
    · exact Nat.zero_le _
    · exact hw

theorem step_tail (s : Cb) (e : Event) (ht : s.txQ.tail ≤ s.membase + windowSize) :
    Fits s e ↔ (step s e).txQ.tail ≤ (step s e).membase + windowSize := by
  cases e with
  | xmit skb =>
    have h1 : (hardXmit s skb).txQ.tail = s.txQ.tail + skb.length := by
      unfold hardXmit
      simp only
      split_ifs <;> rfl
    have h2 : (hardXmit s skb).membase = s.membase := by
      unfold hardXmit
      simp only
      split_ifs <;> rfl
    change _ ↔ (hardXmit s skb).txQ.tail ≤ (hardXmit s skb).membase + windowSize
    rw [h1, h2]
    exact Iff.rfl
  | complete empty =>
    refine iff_of_true trivial ?_
    change (xmitComplete s empty).txQ.tail ≤ (xmitComplete s empty).membase + windowSize
    unfold xmitComplete
    simp only
    split_ifs
    · exact ht
    · simp only [receive, shmemTxStart, windowSize]
      omega
    · exact ht

/-- In every interleaving that keeps the limits, the queue is sound in all states exactly
when no frame is copied past the end of the window. -/
theorem queue_sound_iff (membase : ℕ) (mem : Mem) (queue : ℤ → FrameCb) (es : List Event)
    (ha : Runs.Along step Allowed (.config membase mem queue) es) :
    (∀ pre, pre <+: es → Sound (pre.foldl step (.config membase mem queue))) ↔
      Runs.Along step Fits (.config membase mem queue) es := by
  have hinv : ∀ s e, (QueueInv s ∧ s.since.length ≤ maxWindow) → Allowed s e →
      (QueueInv (step s e) ∧ (step s e).since.length ≤ maxWindow) := by
    intro s e ⟨hi, hw⟩ ha
    exact ⟨step_inv s e hi ha, step_window hw ha⟩
  have hstep : ∀ s e, (QueueInv s ∧ s.since.length ≤ maxWindow) → Sound s → Allowed s e →
      (Fits s e ↔ Sound (step s e)) := by
    intro s e hi hs ha
    obtain ⟨hi', hw'⟩ := hinv s e hi ha
    rw [sound_iff hi' hw']
    exact step_tail s e ((sound_iff hi.1 hi.2).1 hs)
  have h0 : QueueInv (.config membase mem queue) := config_inv membase mem queue
  have hs0 : Sound (.config membase mem queue) := by
    refine (sound_iff h0 (Nat.zero_le _)).2 ?_
    simp only [Cb.config, shmemTxStart, windowSize]
    omega
  exact Runs.along_iff_always hinv hstep es _ ⟨h0, Nat.zero_le _⟩ hs0 ha

/-- Two frames, the second queued while the first is on its way. -/
def shortRun : List Event := [.xmit [1, 2, 3], .xmit [4], .complete false, .complete true]

def sampleCard : Cb := .config 0xd0000 (fun _ => 0) fun _ => ⟨0, 0⟩

theorem queue_sound_short : Sound (shortRun.foldl step sampleCard) :=
  (queue_sound_iff 0xd0000 (fun _ => 0) (fun _ => ⟨0, 0⟩) shortRun (by decide)).2 (by decide)
    shortRun (List.prefix_refl _)

/-- Eight frames of the largest size before the first is through. -/
theorem full_window_too_long :
    ∃ es, Runs.Along step Allowed sampleCard es ∧ ¬ Sound (es.foldl step sampleCard) := by
  refine ⟨List.replicate 8 (.xmit (List.replicate 2050 0)), by decide +kernel, ?_⟩
  intro hs
  have h := (hs.inside 7 (by decide +kernel)).2
  revert h
  decide +kernel

end Ircard
