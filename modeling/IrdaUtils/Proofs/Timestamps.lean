import IrdaUtils.Proofs.Capture
import IrdaUtils.Sanity.Loop

/-! The time in the capture file. The record is written when the frame has been decoded,
with what `curr_time` points to by then. With `-d` the pointers have been swapped and the
variable holds the difference to the frame before. -/

namespace Irdadump
open Memory ByteOrder

def Timeval.instant (t : Timeval) : ℤ := t.tvSec * 1000000 + t.tvUsec

/-- A time as the clock gives it, before the seconds outgrow the record. -/
structure Timeval.Normal (t : Timeval) : Prop where
  sec : 0 ≤ t.tvSec ∧ t.tvSec < 2 ^ 32
  usec : 0 ≤ t.tvUsec ∧ t.tvUsec < 1000000

def recordInstant (o : Order) (record : List UInt8) : ℤ :=
  (field o record 0 4 : ℤ) * 1000000 + field o record 4 4

def written (g g' : Dumper) : List UInt8 :=
  (g'.capturewrite.getD []).drop (g.capturewrite.getD []).length

def records (o : Order) : Dumper → List Received → List (List UInt8)
  | _, [] => []
  | g, r :: rs => written g (liveStep o g r) :: records o (liveStep o g r) rs

def StampsWritten (o : Order) (g : Dumper) (rs : List Received) : Prop :=
  (records o g rs).map (recordInstant o) = rs.map (·.time.instant)

theorem recordInstant_dump (o : Order) (sll : SllHeader) (buf : GNetBuf) (len : ℕ)
    (src : SockaddrLl) (t : Timeval) :
    recordInstant o (capwriteDump o sll buf len src t) =
      (toU32 t.tvSec : ℤ) * 1000000 + toU32 t.tvUsec := by
  have e := record_eq o ⟨sll, buf, len, src, t⟩
  have hfield : ∀ (i : ℕ) (a b : List UInt8), i + 4 ≤ a.length → field o (a ++ b) i 4 = field o a i 4 := by
    intro i a b h
    unfold field
    rw [List.drop_append_of_le_length (by omega), List.take_append_of_le_length (by simp; omega)]
  obtain ⟨h1, h2, -⟩ := pcaprecHdr_fields o (Dump.recHdr ⟨sll, buf, len, src, t⟩)
  unfold recordInstant
  rw [show capwriteDump o sll buf len src t = _ from e, hfield 0 _ _ (by simp),
    hfield 4 _ _ (by simp), h1, h2]
  simp only [Dump.recHdr, Nat.mod_eq_of_lt (toU32_lt _)]

theorem written_instant {o : Order} {g : Dumper} {r : Received} (h : Capturing g)
    (ha : Accepted o g.ifindex r) :
    recordInstant o (written g (liveStep o g r)) =
      (toU32 (timesAfter r.env.cfg.printDiff r.time (g.time g.prevTime)).1.tvSec : ℤ) * 1000000 +
        toU32 (timesAfter r.env.cfg.printDiff r.time (g.time g.prevTime)).1.tvUsec := by
  obtain ⟨-, -, -, -, buf, -, hw⟩ := live_step h ha
  obtain ⟨file, hfile⟩ := Option.ne_none_iff_exists'.1 h.file
  rw [written, hw file hfile, hfile, Option.getD_some, Option.getD_some, List.drop_left,
    recordInstant_dump]

theorem plain_run_stamps {o : Order} (rs : List Received) : ∀ g : Dumper, Capturing g →
    (∀ r ∈ rs, r.env.cfg.printDiff = false) → (∀ r ∈ rs, Accepted o g.ifindex r) →
    (∀ r ∈ rs, r.time.Normal) → StampsWritten o g rs := by
  induction rs with
  | nil => intros; rfl
  | cons r rs ih =>
    intro g h hd ha hn
    have har := ha r (by simp)
    obtain ⟨h', hif, -⟩ := live_step h har
    have ht := hn r (by simp)
    have hhead : recordInstant o (written g (liveStep o g r)) = r.time.instant := by
      rw [written_instant h har, timesAfter, hd r (by simp), if_neg (by simp),
        toU32_of_range ht.sec, toU32_of_range ⟨ht.usec.1, by have := ht.usec.2; omega⟩]
      rfl
    have htail := ih (liveStep o g r) h' (fun q hq => hd q (by simp [hq]))
      (fun q hq => by rw [hif]; exact ha q (by simp [hq])) (fun q hq => hn q (by simp [hq]))
    simp only [StampsWritten, records, List.map_cons, hhead]
    exact congrArg _ htail

/-- A difference to a time after the epoch is never the time itself, also modulo the width
of the record. -/
theorem diff_ne_instant {t prev : Timeval} (ht : t.Normal) (hp : prev.Normal)
    (h0 : prev.instant ≠ 0) :
    (toU32 (diffTime t prev).2.tvSec : ℤ) * 1000000 + toU32 (diffTime t prev).2.tvUsec ≠
      t.instant := by
  obtain ⟨hs, hu⟩ := ht
  obtain ⟨hps, hpu⟩ := hp
  unfold Timeval.instant at *
  unfold diffTime toU32
  simp only
  split_ifs
  · simp only
    omega
  · omega

theorem diff_run_stamps {o : Order} {g : Dumper} {r : Received} {rs : List Received}
    (h : Capturing g) (hd : r.env.cfg.printDiff = true) (ha : Accepted o g.ifindex r)
    (ht : r.time.Normal) (hp : (g.time g.prevTime).Normal) (h0 : (g.time g.prevTime).instant ≠ 0) :
    ¬ StampsWritten o g (r :: rs) := by
  intro hs
  have hhead : recordInstant o (written g (liveStep o g r)) = r.time.instant :=
    (List.cons.inj hs).1
  rw [written_instant h ha, timesAfter, hd, if_pos rfl] at hhead
  exact diff_ne_instant ht hp h0 hhead

/-- A live run that is started after the epoch writes the stamps of its frames to the
capture file exactly when it is run without `-d` or gets no frame. -/
theorem stamps_written_iff (o : Order) (base : ℕ) (heap : Mem) (now time1 : Timeval) (ifindex : ℤ)
    (g : Dumper) (cfg : Config) (rs : List Received)
    (hg : irdadumpInit base heap now ifindex time1 = some g)
    (hnow : now.Normal ∧ now.instant ≠ 0) (hcfg : ∀ r ∈ rs, r.env.cfg = cfg)
    (hacc : ∀ r ∈ rs, Accepted o ifindex r) (htime : ∀ r ∈ rs, r.time.Normal) :
    StampsWritten o (captureStart o g) rs ↔ cfg.printDiff = false ∨ rs = [] := by
  obtain ⟨hc, hif, hprev, -⟩ := capturing_start (o := o) hg
  constructor
  · intro hs
    cases rs with
    | nil => exact Or.inr rfl
    | cons r rs =>
      refine Or.inl (Bool.eq_false_iff.2 fun hd => ?_)
      refine diff_run_stamps hc ?_ ?_ (htime r (by simp)) ?_ ?_ hs
      · rw [hcfg r (by simp)]
        exact hd
      · rw [hif]
        exact hacc r (by simp)
      · rw [hprev]
        exact hnow.1
      · rw [hprev]
        exact hnow.2
  · rintro (hd | rfl)
    · exact plain_run_stamps rs _ hc (fun r hr => by rw [hcfg r hr]; exact hd)
        (fun r hr => by rw [hif]; exact hacc r hr) htime
    · rfl

theorem stamps_written_iff_rr :
    StampsWritten .little (captureStart .little startedDumper) [rrReceived .little {}] ↔
      ({} : Config).printDiff = false ∨ [rrReceived .little {}] = [] :=
  stamps_written_iff .little 8 (fun _ => 0) ⟨1, 0⟩ ⟨0, 0⟩ 0 startedDumper {} [rrReceived .little {}]
    startedDumper_init ⟨⟨by decide, by decide⟩, by decide⟩ (by simp [rrReceived, plainEnv])
    (by simpa using rrReceived_accepted .little {})
    (by simpa using ⟨by decide, by decide⟩)

/-- With `-d` the record of the first frame has the time since the start. -/
theorem diff_stamp_written :
    ¬ ∀ (o : Order) (base : ℕ) (heap : Mem) (now time1 : Timeval) (ifindex : ℤ) (g : Dumper)
      (cfg : Config) (rs : List Received), irdadumpInit base heap now ifindex time1 = some g →
      (∀ r ∈ rs, r.env.cfg = cfg) → (∀ r ∈ rs, Accepted o ifindex r) →
      (∀ r ∈ rs, r.time.Normal) → StampsWritten o (captureStart o g) rs := by
  intro h
  have hs := h .little 8 (fun _ => 0) ⟨1, 0⟩ ⟨0, 0⟩ 0 startedDumper { printDiff := true }
    [rrReceived .little { printDiff := true }] startedDumper_init (by simp [rrReceived, plainEnv])
    (by simpa using rrReceived_accepted .little _) (by simpa using ⟨by decide, by decide⟩)
  exact diff_run_stamps (capturing_start startedDumper_init).1 rfl
    (rrReceived_accepted .little _) ⟨by decide, by decide⟩ ⟨by decide, by decide⟩ (by decide) hs

end Irdadump
