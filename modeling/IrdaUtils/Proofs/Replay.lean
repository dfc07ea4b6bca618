import IrdaUtils.Proofs.Capture
import IrdaUtils.Sanity.Loop

/-! Live decoding against the replay of the file that it has written. The live filter
compares `sll_protocol` with `ntohs (ETH_P_IRDA)`, the writer stores the field as it is,
and the replay filter compares what it reads with `ETH_P_IRDA` itself. The two filters
agree on a host in network order only. -/

namespace Irdadump
open Memory ByteOrder

/-- Turns of the loop until the file is read, with `inps` for what they get from outside. -/
def replayRun (o : Order) (inps : ℕ → LoopInput) : ℕ → Dumper → Outcome × Dumper
  | 0, g => (.ok, g)
  | n + 1, g =>
    match irdadumpLoop o (inps n) g with
    | (.exit, g) => (.exit, g)
    | (_, g) => replayRun o inps n g

/-- The file behind the live run `rs` from `g` passes the check of a replay that is started
in `g'`, and the replay decodes the frames that the live run has decoded before it ends. -/
def ReplayAgrees (o : Order) (g : Dumper) (rs : List Received) (g' : Dumper)
    (inps : ℕ → LoopInput) : Prop :=
  ∃ file rest, (rs.foldl (liveStep o) (captureStart o g)).capturewrite = some file ∧
    capreadCheck o file = (0, rest) ∧
    ∀ n, rs.length < n →
      (replayRun o inps n { g' with captureread := some rest }).1 = .exit ∧
        (replayRun o inps n { g' with captureread := some rest }).2.frames =
          (rs.foldl (liveStep o) (captureStart o g)).frames

/-! ### The live run -/

structure DumpOf (r : Received) (d : Dump) : Prop where
  len : d.len = r.data.length
  frame : d.frame = r.data
  src : d.src = r.src
  time : d.time = r.time

theorem live_run {o : Order} (rs : List Received) : ∀ (g : Dumper) (file : List UInt8),
    Capturing g → g.capturewrite = some file → (∀ r ∈ rs, Accepted o g.ifindex r) →
    (∀ r ∈ rs, r.env.cfg.printDiff = false) →
    ∃ ds, List.Forall₂ DumpOf rs ds ∧
      (rs.foldl (liveStep o) g).capturewrite = some (file ++ ds.flatMap (Dump.record o)) ∧
      (rs.foldl (liveStep o) g).frames = g.frames ++ rs.map Received.call := by
  induction rs with
  | nil =>
    intro g file _ hfile _ _
    exact ⟨[], .nil, by simpa using hfile, by simp⟩
  | cons r rs ih =>
    intro g file h hfile ha hd
    obtain ⟨h', hif, -, hf, buf, hb, hw⟩ := live_step h (ha r (by simp))
    have hfile' := hw file hfile
    rw [timesAfter, hd r (by simp), if_neg (by simp)] at hfile'
    obtain ⟨ds, hds, hcap, hfr⟩ := ih (liveStep o g r) _ h' hfile'
      (fun q hq => by rw [hif]; exact ha q (by simp [hq])) (fun q hq => hd q (by simp [hq]))
    refine ⟨⟨r.sll, buf, r.data.length, r.src, r.time⟩ :: ds, .cons ⟨rfl, hb, rfl, rfl⟩ hds, ?_, ?_⟩
    · rw [List.foldl_cons, hcap, List.flatMap_cons, List.append_assoc]
      rfl
    · rw [List.foldl_cons, hfr, hf, List.map_cons, List.append_assoc]
      rfl

/-! ### The replay -/

theorem capreadGet_frameBuf (o : Order) (c : Capread) :
    ∃ m, (capreadGet o c).2.frameBuf = { c.frameBuf with mem := m } := by
  rcases Nat.lt_or_ge c.fd.length (sizeofPcaprecHdr + sizeofSllHeader) with hlt | hge
  · exact ⟨c.frameBuf.mem, (capreadGet_headless hlt).2⟩
  · rw [capreadGet_headed hge]
    exact ⟨_, rfl⟩

def Dump.call (d : Dump) : FrameCall :=
  ⟨d.src.sllPkttype ≠ 0, d.len, d.frame, d.time⟩

theorem DumpOf.call {r : Received} {d : Dump} (h : DumpOf r d) : d.call = r.call := by
  simp only [Dump.call, Received.call, h.len, h.frame, h.src, h.time]

/-- The program behind a call of `capread_get` that left `c`. -/
def Dumper.read (g : Dumper) (c : Capread) : Dumper :=
  Dumper.setTime { g with captureread := some c.fd, st := { g.st with buf := c.frameBuf } }
    g.currTime c.currTime

theorem replay_loop_eq {o : Order} {inp : LoopInput} {g : Dumper} {fd : List UInt8}
    (hfd : g.captureread = some fd) :
    irdadumpLoop o inp g =
      if (capreadGet o (g.capread fd)).1 < 0 then (.exit, g.read (capreadGet o (g.capread fd)).2)
      else if (capreadGet o (g.capread fd)).2.pprot ≠ ethPIrda.toNat then
        (.skipped, g.read (capreadGet o (g.capread fd)).2)
      else if (capreadGet o (g.capread fd)).2.plen = 0 then
        (.skipped, g.read (capreadGet o (g.capread fd)).2)
      else (.ok, parseIrdaFrame inp.env (capreadGet o (g.capread fd)).2.pdir
        (capreadGet o (g.capread fd)).2.plen
        (putFrame inp.re (toU32 (capreadGet o (g.capread fd)).2.plen)
          (g.read (capreadGet o (g.capread fd)).2))) := by
  obtain ⟨ifindex, w, r, t1, t2, curr, prev, st, frames⟩ := g
  subst hfd
  rfl

theorem read_frames (g : Dumper) (c : Capread) : (g.read c).frames = g.frames :=
  (setTime_files _ _ _).frames

theorem replay_end (o : Order) (inp : LoopInput) {g : Dumper} (h : g.captureread = some []) :
    ∃ g', irdadumpLoop o inp g = (.exit, g') ∧ g'.frames = g.frames := by
  have hget : (capreadGet o (g.capread [])).1 < 0 := by
    rw [(capreadGet_headless (c := g.capread []) (Nat.zero_lt_succ _)).1]
    exact neg_one_lt_zero
  rw [replay_loop_eq h, if_pos hget]
  exact ⟨_, rfl, read_frames _ _⟩

/-- One record: it is decoded if its protocol passes the filter. -/
theorem replay_turn {o : Order} (inp : LoopInput) {g : Dumper} {d : Dump} {rest : List UInt8}
    (hready : Ready g) (hfd : g.captureread = some (d.record o ++ rest)) (hok : d.Ok)
    (hlen : 1 ≤ d.len) :
    ∃ out g', irdadumpLoop o inp g = (out, g') ∧ out ≠ .exit ∧ Ready g' ∧
      g'.captureread = some rest ∧
      g'.frames = g.frames ++ if d.src.sllProtocol = ethPIrda then [d.call] else [] := by
  obtain ⟨c, hget, hrest, hpkt⟩ := capreadGet_record hok (c := g.capread (d.record o ++ rest)) rfl
  obtain ⟨m, hbuf⟩ := capreadGet_frameBuf o (g.capread (d.record o ++ rest))
  rw [hget] at hbuf
  obtain ⟨hplen, hframe, hdir, hprot, htime⟩ := Packet.mk.inj hpkt
  have hread : (g.read c).captureread = some rest := by
    rw [← hrest]
    exact (setTime_files _ _ _).captureread
  have hreadbuf : (g.read c).st.buf = gNetbufRecycle { g.st.buf with mem := m } := by
    rw [Dumper.read, setTime_st, hbuf]
    rfl
  rw [replay_loop_eq hfd, hget, if_neg (lt_irrefl _)]
  have hle := hok.len_le
  have hput : toU32 (d.len : ℤ) = d.len := toU32_natCast (by omega)
  simp only [hprot, hplen, hdir, hput]
  have hp : ((d.src.sllProtocol.toNat : ℤ) ≠ ethPIrda.toNat) ↔ d.src.sllProtocol ≠ ethPIrda := by
    rw [Ne, Ne, Nat.cast_inj, UInt16.toNat_inj]
  by_cases hpr : d.src.sllProtocol = ethPIrda
  · have hz : ¬ ((d.len : ℤ) = 0) := by omega
    rw [if_neg (fun h => hp.1 h hpr), if_neg hz, if_pos hpr]
    have hb : load m g.st.buf.head d.frame.length = d.frame := by
      have e := hframe
      rw [hplen, hbuf, Int.toNat_natCast] at e
      rw [frame_length]
      exact e
    obtain ⟨hholds, hsize⟩ := holds_put inp.re { g.st.buf with mem := m } hready
      (by rw [frame_length]; exact hok.len_le) hb
    rw [frame_length, ← hreadbuf] at hholds hsize
    obtain ⟨hs, -, hr, -, hf⟩ := parseIrdaFrame_spec inp.env
      (if d.src.sllPkttype ≠ packetHost then 1 else 0)
      (g := putFrame inp.re d.len (g.read c)) hholds
    rw [frame_length] at hs hr hf
    have hcall : (putFrame inp.re d.len (g.read c)).call
        (if d.src.sllPkttype ≠ packetHost then 1 else 0) d.frame = d.call := by
      have ht : (g.read c).time (g.read c).currTime = d.time := by
        rw [← htime, Dumper.read, setTime_currTime]
        exact time_setTime_self _ _ _
      have hd : (if d.src.sllPkttype ≠ packetHost then (1 : ℤ) else 0) ≠ 0 ↔
          d.src.sllPkttype ≠ 0 := by
        split_ifs with h
        · simpa [packetHost] using h
        · simpa [packetHost] using h
      simp only [Dumper.call, Dump.call, hd, frame_length, ← ht]
      rfl
    refine ⟨_, _, rfl, by decide, hs.truesize.trans hsize, hr.trans hread, ?_⟩
    rw [hf, hcall, ← read_frames g c]
    rfl
  · rw [if_pos (hp.2 hpr), if_neg hpr]
    refine ⟨_, _, rfl, by decide, ?_, hread, by rw [read_frames, List.append_nil]⟩
    rw [Ready, hreadbuf]
    exact hready

theorem replay_run {o : Order} (inps : ℕ → LoopInput) (ds : List Dump) : ∀ (g : Dumper) (n : ℕ),
    Ready g → g.captureread = some (ds.flatMap (Dump.record o)) → (∀ d ∈ ds, d.Ok ∧ 1 ≤ d.len) →
    ds.length < n →
    (replayRun o inps n g).1 = .exit ∧
      (replayRun o inps n g).2.frames =
        g.frames ++ (ds.filter (·.src.sllProtocol = ethPIrda)).map Dump.call := by
  induction ds with
  | nil =>
    intro g n _ hfd _ hn
    cases n with
    | zero => cases hn
    | succ n =>
      obtain ⟨g', e, hf⟩ := replay_end o (inps n) hfd
      simp only [replayRun, e]
      exact ⟨trivial, by simpa using hf⟩
  | cons d ds ih =>
    intro g n hready hfd hds hn
    cases n with
    | zero => cases hn
    | succ n =>
      obtain ⟨hok, hlen⟩ := hds d (by simp)
      obtain ⟨out, g', e, hne, hready', hfd', hf⟩ := replay_turn (inps n) hready hfd hok hlen
      obtain ⟨h1, h2⟩ := ih g' n hready' hfd' (fun d' h' => hds d' (by simp [h']))
        (Nat.lt_of_succ_lt_succ hn)
      have hrun : replayRun o inps (n + 1) g = replayRun o inps n g' := by
        cases out with
        | ok => simp only [replayRun, e]
        | skipped => simp only [replayRun, e]
        | exit => exact absurd rfl hne
      rw [hrun]
      refine ⟨h1, ?_⟩
      rw [h2, hf, List.filter_cons, List.append_assoc]
      by_cases hpr : d.src.sllProtocol = ethPIrda
      · simp [hpr]
      · simp [hpr]

/-! ### Both runs -/

theorem ntohs_eq_self (o : Order) : ntohs o ethPIrda = ethPIrda ↔ o = .big := by
  cases o <;> decide

structure Received.InRange (r : Received) : Prop where
  sec : 0 ≤ r.time.tvSec ∧ r.time.tvSec < 2 ^ 32
  usec : 0 ≤ r.time.tvUsec ∧ r.time.tvUsec < 2 ^ 32

theorem DumpOf.ok {o : Order} {ifindex : ℤ} {r : Received} {d : Dump} (h : DumpOf r d)
    (ha : Accepted o ifindex r) (ht : r.InRange) : d.Ok ∧ 1 ≤ d.len := by
  refine ⟨⟨?_, ?_, ?_⟩, ?_⟩
  · rw [h.len]
    exact ha.fits
  · rw [h.time]
    exact ht.sec
  · rw [h.time]
    exact ht.usec
  · rw [h.len]
    exact ha.nonempty

theorem dumps_ok {o : Order} {ifindex : ℤ} {rs : List Received} {ds : List Dump}
    (h : List.Forall₂ DumpOf rs ds) (ha : ∀ r ∈ rs, Accepted o ifindex r)
    (ht : ∀ r ∈ rs, r.InRange) : ∀ d ∈ ds, d.Ok ∧ 1 ≤ d.len := by
  induction h with
  | nil => simp
  | cons hd _ ih =>
    intro d hmem
    rcases List.mem_cons.1 hmem with rfl | hmem
    · exact hd.ok (ha _ (by simp)) (ht _ (by simp))
    · exact ih (fun q hq => ha q (by simp [hq])) (fun q hq => ht q (by simp [hq])) d hmem

theorem replayed_calls {o : Order} {ifindex : ℤ} {rs : List Received} {ds : List Dump}
    (h : List.Forall₂ DumpOf rs ds) (ha : ∀ r ∈ rs, Accepted o ifindex r) :
    (ds.filter (·.src.sllProtocol = ethPIrda)).map Dump.call =
      if o = .big then rs.map Received.call else [] := by
  induction h with
  | nil => simp
  | cons hd _ ih =>
    have hp : _ = ntohs o ethPIrda := (congrArg SockaddrLl.sllProtocol hd.src).trans
      (ha _ (by simp)).protocol
    have ih := ih fun q hq => ha q (by simp [hq])
    by_cases ho : o = .big
    · rw [if_pos ho] at ih ⊢
      rw [List.filter_cons_of_pos (by rw [hp]; simpa using (ntohs_eq_self o).2 ho), List.map_cons,
        List.map_cons, ih, hd.call]
    · rw [if_neg ho] at ih ⊢
      rw [List.filter_cons_of_neg (by rw [hp]; simpa using fun e => ho ((ntohs_eq_self o).1 e)), ih]

/-- A replay decodes what it is given or nothing, by the byte order of the host. -/
theorem replay_frames {o : Order} {base base' : ℕ} {heap heap' : Mem}
    {now now' time1 time1' : Timeval} {ifindex ifindex' : ℤ} {g g' : Dumper} {rs : List Received}
    (inps : ℕ → LoopInput) (hg : irdadumpInit base heap now ifindex time1 = some g)
    (hg' : irdadumpInit base' heap' now' ifindex' time1' = some g')
    (hacc : ∀ r ∈ rs, Accepted o ifindex r) (hplain : ∀ r ∈ rs, r.env.cfg.printDiff = false)
    (htime : ∀ r ∈ rs, r.InRange) :
    (rs.foldl (liveStep o) (captureStart o g)).frames = rs.map Received.call ∧
      ∃ file rest, (rs.foldl (liveStep o) (captureStart o g)).capturewrite = some file ∧
        capreadCheck o file = (0, rest) ∧
        ∀ n, rs.length < n →
          (replayRun o inps n { g' with captureread := some rest }).1 = .exit ∧
            (replayRun o inps n { g' with captureread := some rest }).2.frames =
              if o = .big then rs.map Received.call else [] := by
  obtain ⟨hc, hif, -, hfr⟩ := capturing_start (o := o) hg
  obtain ⟨hc', -, -, hfr'⟩ := capturing_start (o := o) hg'
  obtain ⟨ds, hds, hw, hf⟩ := live_run rs _ (capwriteInit o) hc rfl
    (fun r hr => by rw [hif]; exact hacc r hr) hplain
  rw [hfr, List.nil_append] at hf
  refine ⟨hf, _, _, hw, capreadCheck_init o _, ?_⟩
  intro n hn
  obtain ⟨h1, h2⟩ := replay_run inps ds { g' with captureread := some _ } n hc'.ready rfl
    (dumps_ok hds hacc htime) (by rw [← hds.length_eq]; exact hn)
  refine ⟨h1, ?_⟩
  rw [h2, replayed_calls hds hacc]
  exact (congrArg (· ++ _) hfr').trans (List.nil_append _)

/-- Without `-d`, the replay of a capture agrees with the live run that has written it
exactly on hosts in network byte order, or when nothing was captured. -/
theorem replay_agrees_iff (o : Order) (base base' : ℕ) (heap heap' : Mem)
    (now now' time1 time1' : Timeval) (ifindex ifindex' : ℤ) (g g' : Dumper) (rs : List Received)
    (inps : ℕ → LoopInput) (hg : irdadumpInit base heap now ifindex time1 = some g)
    (hg' : irdadumpInit base' heap' now' ifindex' time1' = some g')
    (hacc : ∀ r ∈ rs, Accepted o ifindex r) (hplain : ∀ r ∈ rs, r.env.cfg.printDiff = false)
    (htime : ∀ r ∈ rs, r.InRange) :
    ReplayAgrees o g rs g' inps ↔ o = .big ∨ rs = [] := by
  obtain ⟨hf, file, rest, hw, hcheck, hrun⟩ := replay_frames inps hg hg' hacc hplain htime
  constructor
  · rintro ⟨file', rest', hw', hcheck', hrun'⟩
    obtain rfl : file = file' := Option.some.inj (hw.symm.trans hw')
    obtain rfl : rest = rest' := congrArg Prod.snd (hcheck.symm.trans hcheck')
    have e := (hrun _ (Nat.lt_succ_self _)).2.symm.trans (hrun' _ (Nat.lt_succ_self _)).2
    rw [hf] at e
    by_cases ho : o = .big
    · exact Or.inl ho
    · rw [if_neg ho] at e
      exact Or.inr (List.map_eq_nil_iff.1 e.symm)
  · intro h
    refine ⟨file, rest, hw, hcheck, fun n hn => ⟨(hrun n hn).1, ?_⟩⟩
    rw [(hrun n hn).2, hf]
    rcases h with rfl | rfl
    · exact if_pos rfl
    · exact ite_self _

theorem rrReceived_inRange (o : Order) (cfg : Config) : (rrReceived o cfg).InRange :=
  ⟨by simp [rrReceived], by simp [rrReceived]⟩

theorem replay_agrees_iff_rr :
    ReplayAgrees .big startedDumper [rrReceived .big {}] startedDumper
      (fun _ => (rrReceived .big { printDiff := true }).input) ↔
      Order.big = .big ∨ [rrReceived .big {}] = [] :=
  replay_agrees_iff .big 8 8 (fun _ => 0) (fun _ => 0) ⟨1, 0⟩ ⟨1, 0⟩ ⟨0, 0⟩ ⟨0, 0⟩ 0 0 startedDumper
    startedDumper [rrReceived .big {}] _ startedDumper_init startedDumper_init
    (by simpa using rrReceived_accepted .big {}) (by simp [rrReceived, plainEnv])
    (by simpa using rrReceived_inRange .big {})

/-- On a host in the other byte order a captured frame is filtered away on replay. -/
theorem replay_filters_captured :
    ¬ ∀ (o : Order) (base base' : ℕ) (heap heap' : Mem) (now now' time1 time1' : Timeval)
      (ifindex ifindex' : ℤ) (g g' : Dumper) (rs : List Received) (inps : ℕ → LoopInput),
      irdadumpInit base heap now ifindex time1 = some g →
      irdadumpInit base' heap' now' ifindex' time1' = some g' →
      (∀ r ∈ rs, Accepted o ifindex r) → (∀ r ∈ rs, r.env.cfg.printDiff = false) →
      (∀ r ∈ rs, r.InRange) → ReplayAgrees o g rs g' inps := by
  intro h
  have hacc : ∀ r ∈ [rrReceived .little {}], Accepted .little 0 r := by
    simpa using rrReceived_accepted .little {}
  have hplain : ∀ r ∈ [rrReceived .little {}], r.env.cfg.printDiff = false := by
    simp [rrReceived, plainEnv]
  have htime : ∀ r ∈ [rrReceived .little {}], r.InRange := by
    simpa using rrReceived_inRange .little {}
  obtain ⟨file', rest', hw', hcheck', hrun'⟩ := h .little 8 8 (fun _ => 0) (fun _ => 0) ⟨1, 0⟩ ⟨1, 0⟩
    ⟨0, 0⟩ ⟨0, 0⟩ 0 0 startedDumper startedDumper [rrReceived .little {}]
    (fun _ => (rrReceived .little {}).input) startedDumper_init startedDumper_init hacc hplain htime
  obtain ⟨hf, file, rest, hw, hcheck, hrun⟩ := replay_frames
    (fun _ => (rrReceived .little {}).input) startedDumper_init startedDumper_init hacc hplain htime
  obtain rfl : file = file' := Option.some.inj (hw.symm.trans hw')
  obtain rfl : rest = rest' := congrArg Prod.snd (hcheck.symm.trans hcheck')
  have e := (hrun 2 (by simp)).2.symm.trans (hrun' 2 (by simp)).2
  rw [hf] at e
  cases e

end Irdadump
