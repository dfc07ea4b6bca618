import IrdaUtils.Proofs.Replay
import IrdaUtils.Proofs.Timestamps
import IrdaUtils.Sanity.Line

/-! The differences that `-d` prints. `print_diff_time` borrows from the current time,
overwrites the previous one and leaves the current one behind in a form that may have more
than a second of microseconds, and that is what the next frame is compared with. In
microseconds no step of this loses anything: over any run of turns, live or replayed, the
previous time is the instant of the last frame that was decoded. -/

namespace Irdadump
open Memory ByteOrder

/-! ### The subtraction -/

theorem diffTime_curr (t prev : Timeval) : (diffTime t prev).1.instant = t.instant := by
  unfold diffTime Timeval.instant
  simp only
  split_ifs
  · simp only
    ring
  · rfl

theorem diffTime_diff (t prev : Timeval) :
    (diffTime t prev).2.instant = t.instant - prev.instant := by
  rw [← diffTime_curr t prev]
  unfold diffTime Timeval.instant
  simp only
  ring

/-- What `print_diff_time` leaves in `*prev_timev` and prints. -/
def Dumper.diff (g : Dumper) : Timeval := (diffTime (g.time g.currTime) (g.time g.prevTime)).2

theorem printTimes_str (env : Env) (g : Dumper) (hd : env.cfg.printDiff = true) :
    (printTimes env g).st.str = g.st.str ++ printTime (g.time g.currTime) ++
      s!"({env.diffText g.diff.tvSec g.diff.tvUsec} ms) " := by
  unfold printTimes printDiffTime
  simp only [if_pos hd]
  change (((g.append _).setTime _ _).setTime _ _).st.str ++ _ = _
  rw [setTime_st, setTime_st]
  rfl

/-! ### One turn -/

/-- The time of the last frame that was decoded, at first the time of the start. -/
def lastTime (now : Timeval) (g : Dumper) : Timeval := (g.frames.getLast?.map FrameCall.time).getD now

/-- The time that a turn gets for its frame, from the socket or from the record. -/
def stampOf (o : Order) (inp : LoopInput) (g : Dumper) : Option Timeval :=
  match g.captureread with
  | none => inp.recv.bind Recv.stamp
  | some fd => some ⟨field o (fd.take sizeofPcaprecHdr) 0 4, field o (fd.take sizeofPcaprecHdr) 4 4⟩

/-- From `g` to `g'` nothing is printed or decoded and the previous time stays. -/
structure Waits (g g' : Dumper) : Prop where
  curr : g'.currTime = g.currTime
  prev : g'.prevTime = g.prevTime
  kept : g'.time g'.prevTime = g.time g.prevTime
  frames : g'.frames = g.frames
  str : g'.st.str = g.st.str

theorem Waits.setTime {g g' : Dumper} (h : Waits g g') (hne : g.currTime ≠ g.prevTime)
    (t : Timeval) : Waits g (g'.setTime g.currTime t) := by
  have hne' : g'.prevTime ≠ g.currTime := by
    rw [h.prev]
    exact hne.symm
  refine ⟨?_, ?_, ?_, ?_, ?_⟩
  · rw [setTime_currTime, h.curr]
  · rw [setTime_prevTime, h.prev]
  · rw [setTime_prevTime, time_setTime_of_ne g' t hne', h.kept]
  · rw [(setTime_files g' g.currTime t).frames, h.frames]
  · rw [setTime_st, h.str]

/-- What a turn has to show for the frame `c` that it decodes. -/
structure DiffPrinted (env : Env) (now : Timeval) (g g' : Dumper) (c : FrameCall) : Prop where
  frames : g'.frames = g.frames ++ [c]
  line : ∃ diff : Timeval, diff.instant = c.time.instant - (lastTime now g).instant ∧
    ∃ rest, g'.st.str = g.st.str ++ printTime c.time ++
      s!"({env.diffText diff.tvSec diff.tvUsec} ms) " ++ rest

/-- The variables are two, and the previous time is that of the last frame. -/
structure TimesKept (now : Timeval) (g : Dumper) : Prop where
  apart : g.currTime ≠ g.prevTime
  prev : (g.time g.prevTime).instant = (lastTime now g).instant

theorem TimesKept.waits {now : Timeval} {g g' : Dumper} (h : TimesKept now g) (hw : Waits g g') :
    TimesKept now g' := by
  refine ⟨?_, ?_⟩
  · rw [hw.curr, hw.prev]
    exact h.apart
  · rw [hw.kept, h.prev, lastTime, lastTime, hw.frames]

theorem decodeFrame_line (env : Env) (type : ℤ) (g : Dumper) :
    Longer (printTimes env g).st (decodeFrame env type g).st := by
  unfold decodeFrame
  simp only
  split_ifs
  · exact longer_irlapFrame env type _
  · exact .refl _

theorem parseIrdaFrame_diff {env : Env} {now : Timeval} (hd : env.cfg.printDiff = true)
    (type len : ℤ) {g : Dumper} (h : TimesKept now g) :
    TimesKept now (parseIrdaFrame env type len g) ∧
      ∃ c, c.time = g.time g.currTime ∧
        DiffPrinted env now g (parseIrdaFrame env type len g) c := by
  set c : FrameCall := ⟨type ≠ 0, len, load g.st.buf.mem g.st.buf.head len.toNat, g.time g.currTime⟩
  set g₁ : Dumper := { g with frames := g.frames ++ [c] }
  have hframes : (parseIrdaFrame env type len g).frames = g.frames ++ [c] :=
    (decodeFrame_spec env type g₁).2.frames
  obtain ⟨hapart, htimes⟩ := parseIrdaFrame_time env type len g h.apart
  have hprev : (parseIrdaFrame env type len g).time (parseIrdaFrame env type len g).prevTime =
      (diffTime (g.time g.currTime) (g.time g.prevTime)).1 := by
    rw [timesAfter, if_pos hd] at htimes
    exact (Prod.ext_iff.1 htimes).2
  have hline : Longer (printTimes env g₁).st (parseIrdaFrame env type len g).st :=
    ((longer_append _ _).after (longer_append _ _)).after (decodeFrame_line env type g₁)
  refine ⟨⟨hapart, ?_⟩, c, rfl, hframes, g.diff, ?_, ?_⟩
  · rw [hprev, diffTime_curr, lastTime, hframes, List.getLast?_concat]
    rfl
  · rw [Dumper.diff, diffTime_diff, h.prev]
  · obtain ⟨rest, hrest⟩ := hline
    exact ⟨rest, hrest.trans (by rw [printTimes_str env g₁ hd]; rfl)⟩

theorem DiffPrinted.waits {env : Env} {now : Timeval} {g g₁ g' : Dumper} {c : FrameCall}
    (hw : Waits g g₁) (h : DiffPrinted env now g₁ g' c) : DiffPrinted env now g g' c := by
  obtain ⟨hframes, diff, hdiff, rest, hstr⟩ := h
  rw [lastTime, hw.frames] at hdiff
  exact ⟨hw.frames ▸ hframes, diff, hdiff, rest, hw.str ▸ hstr⟩

/-- One turn: the times are kept, and if a frame is decoded its difference is printed. -/
def TurnKept (o : Order) (inp : LoopInput) (now : Timeval) (g : Dumper) (r : Outcome × Dumper) :
    Prop :=
  TimesKept now r.2 ∧ (r.1 = .ok → ∃ c, stampOf o inp g = some c.time ∧
    DiffPrinted inp.env now g r.2 c)

theorem turnKept_waits {o : Order} {inp : LoopInput} {now : Timeval} {g g' : Dumper} {out : Outcome}
    (h : TimesKept now g) (hw : Waits g g') (hout : out ≠ .ok) : TurnKept o inp now g (out, g') :=
  ⟨h.waits hw, fun e => absurd e hout⟩

theorem turnKept_decoded {o : Order} {inp : LoopInput} {now : Timeval} {g g₁ : Dumper}
    (hd : inp.env.cfg.printDiff = true) (h : TimesKept now g) (hw : Waits g g₁) (type len : ℤ)
    (hstamp : stampOf o inp g = some (g₁.time g₁.currTime)) :
    TurnKept o inp now g (.ok, parseIrdaFrame inp.env type len g₁) := by
  obtain ⟨hkept, c, hc, hprinted⟩ := parseIrdaFrame_diff hd type len (h.waits hw)
  exact ⟨hkept, fun _ => ⟨c, by rw [hstamp, hc], hprinted.waits hw⟩⟩

theorem capreadGet_time {o : Order} {c : Capread} (h : ¬ (capreadGet o c).1 < 0) :
    (capreadGet o c).2.currTime =
      ⟨field o (c.fd.take sizeofPcaprecHdr) 0 4, field o (c.fd.take sizeofPcaprecHdr) 4 4⟩ := by
  rcases Nat.lt_or_ge c.fd.length (sizeofPcaprecHdr + sizeofSllHeader) with hlt | hge
  · rw [(capreadGet_headless hlt).1] at h
    exact absurd neg_one_lt_zero h
  · rw [capreadGet_headed hge]
    rfl

theorem waits_read {g : Dumper} (hne : g.currTime ≠ g.prevTime) (c : Capread) : Waits g (g.read c) :=
  (show Waits g { g with captureread := some c.fd, st := { g.st with buf := c.frameBuf } } from
    ⟨rfl, rfl, rfl, rfl, rfl⟩).setTime hne c.currTime

theorem replay_turn_kept {o : Order} {inp : LoopInput} {now : Timeval}
    (hd : inp.env.cfg.printDiff = true) {fd : List UInt8} {g : Dumper}
    (hfd : g.captureread = some fd) (h : TimesKept now g) :
    TurnKept o inp now g (irdadumpLoop o inp g) := by
  have hw := waits_read h.apart (capreadGet o (g.capread fd)).2
  rw [replay_loop_eq hfd]
  split_ifs with hget
  · exact turnKept_waits h hw (by decide)
  · exact turnKept_waits h hw (by decide)
  · exact turnKept_waits h hw (by decide)
  · have hput : Waits g (putFrame inp.re (toU32 (capreadGet o (g.capread fd)).2.plen)
        (g.read (capreadGet o (g.capread fd)).2)) := ⟨hw.curr, hw.prev, hw.kept, hw.frames, hw.str⟩
    refine turnKept_decoded hd h hput _ _ ?_
    have htime : (g.read (capreadGet o (g.capread fd)).2).time
        (g.read (capreadGet o (g.capread fd)).2).currTime =
        (capreadGet o (g.capread fd)).2.currTime := by
      rw [Dumper.read, setTime_currTime]
      exact time_setTime_self _ _ _
    rw [stampOf, hfd]
    exact congrArg some ((capreadGet_time hget).symm.trans htime.symm)

def Dumper.stamped (g : Dumper) (b : GNetBuf) (t : Timeval) : Dumper :=
  Dumper.setTime { g with st := { g.st with buf := b } } g.currTime t

theorem waits_stamped {g : Dumper} (hne : g.currTime ≠ g.prevTime) (b : GNetBuf) (t : Timeval) :
    Waits g (g.stamped b t) :=
  (show Waits g { g with st := { g.st with buf := b } } from ⟨rfl, rfl, rfl, rfl, rfl⟩).setTime hne t

theorem stamped_time (g : Dumper) (b : GNetBuf) (t : Timeval) :
    some ((g.stamped b t).time (g.stamped b t).currTime) = some t := by
  rw [Dumper.stamped, setTime_currTime, time_setTime_self]

theorem live_turn_kept {o : Order} {inp : LoopInput} {now : Timeval}
    (hd : inp.env.cfg.printDiff = true) {g : Dumper}
    (hlive : g.captureread = none) (h : TimesKept now g) :
    TurnKept o inp now g (irdadumpLoop o inp g) := by
  have hstamp : stampOf o inp g = inp.recv.bind Recv.stamp := by rw [stampOf, hlive]
  rw [live_loop_eq hlive]
  unfold liveLoop
  cases hrecv : inp.recv with
  | none => exact turnKept_waits h ⟨rfl, rfl, rfl, rfl, rfl⟩ (by decide)
  | some p =>
    simp only
    split_ifs
    · exact turnKept_waits h ⟨rfl, rfl, rfl, rfl, rfl⟩ (by decide)
    · exact turnKept_waits h ⟨rfl, rfl, rfl, rfl, rfl⟩ (by decide)
    · exact turnKept_waits h ⟨rfl, rfl, rfl, rfl, rfl⟩ (by decide)
    · rw [hrecv] at hstamp
      cases ht : p.stamp with
      | none => exact turnKept_waits h ⟨rfl, rfl, rfl, rfl, rfl⟩ (by decide)
      | some t =>
        set b : GNetBuf := (gNetbufPut inp.re { gNetbufRecycle g.st.buf with
          mem := store g.st.buf.mem g.st.buf.head p.data } p.data.length).2
        have hturn := turnKept_decoded (o := o) hd h (waits_stamped h.apart b t)
          p.src.sllPkttype.toNat p.data.length (hstamp.trans (ht.trans (stamped_time g b t).symm))
        obtain ⟨c, hc, hp⟩ := hturn.2 rfl
        -- the record in the capture file is written behind the frame
        change TurnKept o inp now g (.ok, captureFrame o inp p.data.length p.src
          (parseIrdaFrame inp.env p.src.sllPkttype.toNat p.data.length (g.stamped b t)))
        rw [captureFrame_eq]
        exact ⟨⟨hturn.1.apart, hturn.1.prev⟩, fun _ => ⟨c, hc, hp.frames, hp.line⟩⟩

theorem turn_kept (o : Order) {inp : LoopInput} {now : Timeval} (hd : inp.env.cfg.printDiff = true)
    {g : Dumper} (h : TimesKept now g) : TurnKept o inp now g (irdadumpLoop o inp g) := by
  cases hfd : g.captureread with
  | none => exact live_turn_kept hd hfd h
  | some fd => exact replay_turn_kept hd hfd h

/-! ### Runs -/

def loopTurn (o : Order) (g : Dumper) (inp : LoopInput) : Dumper := (irdadumpLoop o inp g).2

theorem run_kept (o : Order) {now : Timeval} (inps : List LoopInput) : ∀ g : Dumper,
    (∀ inp ∈ inps, inp.env.cfg.printDiff = true) → TimesKept now g →
    TimesKept now (inps.foldl (loopTurn o) g) := by
  induction inps with
  | nil => intro g _ h; exact h
  | cons inp inps ih =>
    intro g hd h
    have hturn := turn_kept o (hd inp (by simp)) h
    exact ih _ (fun i hi => hd i (by simp [hi])) hturn.1

theorem timesKept_init {base : ℕ} {heap : Mem} {now time1 : Timeval} {ifindex : ℤ} {g : Dumper}
    (hg : irdadumpInit base heap now ifindex time1 = some g) (w r : Option (List UInt8)) :
    TimesKept now { g with capturewrite := w, captureread := r } := by
  obtain ⟨buf, -, rfl⟩ := Option.map_eq_some_iff.1 hg
  exact ⟨by simp, rfl⟩

/-- With `-d` every frame that is decoded, live or in a replay and whatever the turns before
it got, shows the difference between its own time and that of the frame decoded before it, in
whole microseconds. -/
theorem printed_differences_exact (o : Order) (base : ℕ) (heap : Mem) (now time1 : Timeval)
    (ifindex : ℤ) (g : Dumper) (w r : Option (List UInt8)) (pre : List LoopInput) (inp : LoopInput)
    (hg : irdadumpInit base heap now ifindex time1 = some g)
    (hd : ∀ i ∈ pre ++ [inp], i.env.cfg.printDiff = true) (g' : Dumper)
    (hok : irdadumpLoop o inp
      (pre.foldl (loopTurn o) { g with capturewrite := w, captureread := r }) = (.ok, g')) :
    ∃ c, stampOf o inp (pre.foldl (loopTurn o) { g with capturewrite := w, captureread := r }) =
        some c.time ∧
      DiffPrinted inp.env now (pre.foldl (loopTurn o) { g with capturewrite := w, captureread := r })
        g' c := by
  have hkept := run_kept o pre _ (fun i hi => hd i (by simp [hi])) (timesKept_init hg w r)
  have hturn := turn_kept o (hd inp (by simp)) hkept
  rw [hok] at hturn
  exact hturn.2 rfl

/-- A frame with the options `-d`, stamped so many microseconds behind the first second. -/
def diffReceived (usec : ℤ) : Received :=
  { rrReceived .little { printDiff := true } with time := ⟨1, usec⟩ }

theorem diffReceived_accepted (usec : ℤ) : Accepted .little 0 (diffReceived usec) :=
  ⟨rfl, Or.inl rfl, by simp [diffReceived, rrReceived], by simp [diffReceived, rrReceived, maxFrameSize]⟩

/-- Two frames, the second one with an earlier stamp than the first. -/
theorem printed_differences_exact_backward : ∃ g' c,
    stampOf .little (diffReceived 200).input
        (loopTurn .little startedDumper (diffReceived 500).input) = some c.time ∧
      DiffPrinted (plainEnv { printDiff := true }) ⟨1, 0⟩
        (loopTurn .little startedDumper (diffReceived 500).input) g' c := by
  obtain ⟨g₁, e₁, hready, hlive, hif, hne, -⟩ := live_turn (g := startedDumper)
    (show Ready startedDumper from rfl) rfl (by decide) (diffReceived_accepted 500)
  obtain ⟨g₂, e₂, -⟩ := live_turn (r := diffReceived 200) hready hlive hne
    (by rw [hif]; exact diffReceived_accepted 200)
  have hok : irdadumpLoop .little (diffReceived 200).input
      (loopTurn .little startedDumper (diffReceived 500).input) = (.ok, g₂) := by
    rw [loopTurn, e₁]
    exact e₂
  exact ⟨g₂, printed_differences_exact .little 8 (fun _ => 0) ⟨1, 0⟩ ⟨0, 0⟩ 0 startedDumper none none
    [(diffReceived 500).input] (diffReceived 200).input startedDumper_init
    (by simp [diffReceived, Received.input, rrReceived, plainEnv]) g₂ hok⟩

end Irdadump
