import Mathlib.Data.BitVec
import IrdaUtils.Lib.Runs
import IrdaUtils.Spec.Irdaspray

/-! The echo test over all orders in which the three processes make their calls. Whatever is
chopped or fails, the receiver gets the sent messages in turn, each one or its front. When no
call fails, the processes never wait for each other, however short the two queues are. -/

namespace Irdaspray

/-! ### One call -/

/-- What each call does, and where it can be made. -/
inductive Stepped (c : Config) (w : World) : Action → World → Prop where
  | transmit {sent : ℕ} (hi : w.tx.i < c.frameNumber) (hs : sent ≤ c.frameSize)
      (hroom : w.up.length < c.upRoom) :
      Stepped c w (.transmit sent) { w with
        tx := w.tx.count (.message (w.buf.1.take sent)), up := w.up ++ [w.buf.1.take sent] }
  | transmitFails (hi : w.tx.i < c.frameNumber) :
      Stepped c w .transmitFails { w with tx := w.tx.count .failed }
  | receive {m : Message} {down : List Message} (hd : w.down = m :: down) (he : c.echo = true)
      (hi : w.rx.i < c.frameNumber) :
      Stepped c w .receive { w with rx := w.rx.count (.message (received m)), down := down }
  | receiveEnds (he : c.echo = true) (hi : w.rx.i < c.frameNumber) (hd : w.down = [])
      (hs : w.server = .closed) :
      Stepped c w .receiveEnds { w with rx := w.rx.count .ended }
  | receiveFails (he : c.echo = true) (hi : w.rx.i < c.frameNumber) :
      Stepped c w .receiveFails { w with rx := w.rx.count .failed }
  | serverReceive {m : Message} {up : List Message} (hs : w.server = .receiving)
      (hu : w.up = m :: up) :
      Stepped c w .serverReceive { w with
        server := .after c (received m).length, serverBuf := w.serverBuf.recv m, up := up }
  | serverReceiveEnds (hs : w.server = .receiving) (hu : w.up = []) (he : w.clientEnded c) :
      Stepped c w .serverReceiveEnds { w with server := .closed }
  | serverReceiveFails (hs : w.server = .receiving) :
      Stepped c w .serverReceiveFails { w with server := .closed }
  | serverSend {sent actual : ℕ} (hs : w.server = .echoing actual) (hle : sent ≤ actual)
      (hroom : w.down.length < c.downRoom) :
      Stepped c w (.serverSend sent) { w with
        server := if sent = 0 then .closed else .receiving
        down := w.down ++ [w.serverBuf.1.take sent] }
  | serverSendFails {actual : ℕ} (hs : w.server = .echoing actual) :
      Stepped c w .serverSendFails { w with server := .closed }

theorem step_iff {c : Config} {w w' : World} {a : Action} :
    step c w a = some w' ↔ Stepped c w a w' := by
  constructor
  · intro h
    cases a <;> simp only [step] at h
    case receive =>
      split at h
      · cases h
      · rename_i hd
        split at h
        · rename_i hi
          cases h
          exact .receive hd hi.1 hi.2
        · cases h
    case serverReceive =>
      split at h
      · rename_i hs hu
        cases h
        exact .serverReceive hs hu
      · cases h
    case serverSend =>
      split at h
      · rename_i hs
        split at h
        · rename_i hi
          cases h
          exact .serverSend hs hi.1 hi.2
        · cases h
      · cases h
    case serverSendFails =>
      split at h
      · rename_i hs
        cases h
        exact .serverSendFails hs
      · cases h
    all_goals
      split at h
      · rename_i hi
        cases h
        constructor <;> simp_all
      · cases h
  · intro h
    cases h <;> simp_all [step]

/-! ### The order of the messages -/

def Answer.message? : Answer → Option Message
  | .message m => some m
  | .ended => none
  | .failed => none

/-- The messages of the calls that were made. -/
def Counter.messages (s : Counter) : List Message := s.calls.filterMap Answer.message?

@[simp] theorem messages_message (s : Counter) (m : Message) :
    (s.count (.message m)).messages = s.messages ++ [m] := by
  simp [Counter.messages, Counter.count, Answer.message?]

@[simp] theorem messages_ended (s : Counter) : (s.count .ended).messages = s.messages := by
  simp [Counter.messages, Counter.count, Answer.message?]

@[simp] theorem messages_failed (s : Counter) : (s.count .failed).messages = s.messages := by
  simp [Counter.messages, Counter.count, Answer.message?]

/-- The counter has one turn and one addend for each call. -/
def Counter.Counts (s : Counter) : Prop :=
  s.i = s.calls.length ∧ s.total = (s.calls.map Answer.actual).sum

theorem Counter.Counts.count {s : Counter} (h : s.Counts) (a : Answer) : (s.count a).Counts := by
  refine ⟨?_, ?_⟩
  · simp [Counter.count, h.1]
  · simp [Counter.count, h.2]

theorem received_eq {m : Message} (h : m.length ≤ 8200) : received m = m :=
  List.take_of_length_le h

theorem recv_bytes (buf : Buffer) (m : Message) :
    (buf.recv m).1 = received m ++ buf.1.drop m.length := rfl

/-- `recv` puts the bytes in front of the buffer. -/
theorem recv_take (buf : Buffer) (m : Message) {sent : ℕ} (h : sent ≤ (received m).length) :
    (buf.recv m).1.take sent <+: m := by
  have hfront : (buf.recv m).1.take sent = (received m).take sent := by
    rw [recv_bytes, List.take_append_of_le_length h]
  rw [hfront]
  exact (List.take_prefix _ _).trans (List.take_prefix _ _)

theorem forall₂_snoc {α β : Type*} {R : α → β → Prop} {as : List α} {bs : List β} {a : α} {b : β}
    (h : List.Forall₂ R as bs) (hab : R a b) : List.Forall₂ R (as ++ [a]) (bs ++ [b]) :=
  List.rel_append h (.cons hab .nil)

/-- Of the messages that were sent, the server has taken `taken`, and has sent back the first
of these, `echoed`, each one or its front. Between its two calls it has one more. -/
structure Ordered (c : Config) (w : World) (taken echoed : List Message) : Prop where
  sent : w.tx.messages = taken ++ w.up
  back : List.Forall₂ (· <+: ·) (w.rx.messages ++ w.down) echoed
  short : ∀ m ∈ w.down, m.length ≤ 8200
  server : match w.server with
    | .receiving => echoed <+: taken ∧ (c.echo = true → taken = echoed)
    | .echoing actual => ∃ m, taken = echoed ++ [m] ∧
        ∀ sent ≤ actual, w.serverBuf.1.take sent <+: m
    | .closed => echoed <+: taken

theorem Ordered.taken_front {c : Config} {w : World} {taken echoed : List Message}
    (h : Ordered c w taken echoed) : echoed <+: taken := by
  have hs := h.server
  split at hs
  · exact hs.1
  · obtain ⟨m, rfl, -⟩ := hs
    exact List.prefix_append _ _
  · exact hs

theorem ordered_step {c : Config} {w w' : World} {a : Action} {taken echoed : List Message}
    (h : Ordered c w taken echoed) (hstep : Stepped c w a w') :
    ∃ taken' echoed', Ordered c w' taken' echoed' := by
  cases hstep with
  | transmit _ _ _ =>
    exact ⟨taken, echoed, by simp [h.sent, List.append_assoc], h.back, h.short, h.server⟩
  | transmitFails _ => exact ⟨taken, echoed, by simp [h.sent], h.back, h.short, h.server⟩
  | @receive m down hd _ _ =>
    have hback := h.back
    have hshort := h.short
    rw [hd] at hback hshort
    refine ⟨taken, echoed, h.sent, ?_, fun x hx => hshort x (by simp [hx]), h.server⟩
    rw [received_eq (hshort m (by simp)), messages_message, List.append_assoc]
    exact hback
  | receiveEnds _ _ _ _ => exact ⟨taken, echoed, h.sent, by simpa using h.back, h.short, h.server⟩
  | receiveFails _ _ => exact ⟨taken, echoed, h.sent, by simpa using h.back, h.short, h.server⟩
  | @serverReceive m up hs hu =>
    have hserver := h.server
    rw [hs] at hserver
    obtain ⟨hpre, heq⟩ := hserver
    refine ⟨taken ++ [m], echoed, by simp [h.sent, hu], h.back, h.short, ?_⟩
    simp only [Server.after]
    by_cases hzero : (received m).length = 0
    · rw [if_pos hzero]
      exact hpre.trans (List.prefix_append _ _)
    · rw [if_neg hzero]
      by_cases hecho : c.echo = true
      · rw [if_pos hecho]
        exact ⟨m, by rw [heq hecho], fun sent hle => recv_take w.serverBuf m hle⟩
      · rw [if_neg hecho]
        exact ⟨hpre.trans (List.prefix_append _ _), fun h => absurd h hecho⟩
  | serverReceiveEnds _ _ _ => exact ⟨taken, echoed, h.sent, h.back, h.short, h.taken_front⟩
  | serverReceiveFails _ => exact ⟨taken, echoed, h.sent, h.back, h.short, h.taken_front⟩
  | @serverSend sent actual hs hle _ =>
    have hserver := h.server
    rw [hs] at hserver
    obtain ⟨m, htaken, hfront⟩ := hserver
    refine ⟨taken, echoed ++ [m], h.sent, ?_, ?_, ?_⟩
    · rw [← List.append_assoc]
      exact forall₂_snoc h.back (hfront sent hle)
    · intro x hx
      rcases List.mem_append.1 hx with hx | hx
      · exact h.short x hx
      · rw [List.mem_singleton.1 hx, List.length_take, w.serverBuf.2]
        exact Nat.min_le_right _ _
    · rw [htaken]
      dsimp only
      split_ifs
      · exact List.prefix_rfl
      · exact ⟨List.prefix_rfl, fun _ => rfl⟩
  | serverSendFails _ => exact ⟨taken, echoed, h.sent, h.back, h.short, h.taken_front⟩

theorem counts_step {c : Config} {w w' : World} {a : Action} (h : w.tx.Counts ∧ w.rx.Counts)
    (hstep : Stepped c w a w') : w'.tx.Counts ∧ w'.rx.Counts := by
  cases hstep with
  | transmit _ _ _ => exact ⟨h.1.count _, h.2⟩
  | transmitFails _ => exact ⟨h.1.count _, h.2⟩
  | receive _ _ _ => exact ⟨h.1, h.2.count _⟩
  | receiveEnds _ _ _ _ => exact ⟨h.1, h.2.count _⟩
  | receiveFails _ _ => exact ⟨h.1, h.2.count _⟩
  | serverReceive _ _ => exact h
  | serverReceiveEnds _ _ _ => exact h
  | serverReceiveFails _ => exact h
  | serverSend _ _ _ => exact h
  | serverSendFails _ => exact h

theorem ordered_start (c : Config) : Ordered c .start [] [] :=
  ⟨rfl, .nil, by simp [World.start], ⟨List.prefix_rfl, fun _ => rfl⟩⟩

theorem reachable_counts {c : Config} {w : World} (h : Reachable c w) : w.tx.Counts ∧ w.rx.Counts := by
  refine Runs.reachable_inv (fun w => w.tx.Counts ∧ w.rx.Counts) ?_ ⟨⟨rfl, rfl⟩, ⟨rfl, rfl⟩⟩ h
  rintro s s' hc ⟨a, ha⟩
  exact counts_step hc (step_iff.1 ha)

theorem reachable_ordered {c : Config} {w : World} (h : Reachable c w) :
    ∃ taken echoed, Ordered c w taken echoed := by
  refine Runs.reachable_inv (fun w => ∃ taken echoed, Ordered c w taken echoed) ?_
    ⟨[], [], ordered_start c⟩ h
  rintro s s' ⟨taken, echoed, ho⟩ ⟨a, ha⟩
  exact ordered_step ho (step_iff.1 ha)

/-- In every order of the calls, with any of them failing and any message chopped on the way:
the messages that the receiver has got are the first ones that were sent, in the same order,
none of them twice, and each whole or cut at its end. Both totals are the sums of what the
calls have returned. -/
theorem echoes_in_order (c : Config) {w : World} (h : Reachable c w) :
    (∃ echoed, echoed <+: w.tx.messages ∧ List.Forall₂ (· <+: ·) w.rx.messages echoed) ∧
      w.tx.Counts ∧ w.rx.Counts := by
  obtain ⟨taken, echoed, ho⟩ := reachable_ordered h
  refine ⟨⟨echoed.take w.rx.messages.length, ?_, ?_⟩, reachable_counts h⟩
  · rw [ho.sent]
    exact (List.take_prefix _ _).trans (ho.taken_front.trans (List.prefix_append _ _))
  · have := List.forall₂_take w.rx.messages.length ho.back
    rwa [List.take_left] at this

/-- Three frames of two bytes. One echo comes back whole, the receiver's next call fails, and
the echo of the second frame is chopped; the third is on its way up. -/
theorem echoes_in_order_chopped :
    ∃ w : World, w.tx.messages = [[0, 0], [0, 0], [0, 0]] ∧ w.rx.messages = [[0, 0], [0]] ∧
      w.rx.total = 2 ∧
      ((∃ echoed, echoed <+: w.tx.messages ∧ List.Forall₂ (· <+: ·) w.rx.messages echoed) ∧
        w.tx.Counts ∧ w.rx.Counts) := by
  set c : Config := ⟨2, 3, true, 1, 1, by decide⟩
  have h1 : Reachable c _ := .tail (.tail (.tail (.tail .refl ⟨.transmit 2, rfl⟩)
    ⟨.serverReceive, rfl⟩) ⟨.serverSend 2, rfl⟩) ⟨.receive, rfl⟩
  have h2 : Reachable c _ := .tail (.tail (.tail (.tail h1 ⟨.receiveFails, rfl⟩)
    ⟨.transmit 2, rfl⟩) ⟨.serverReceive, rfl⟩) ⟨.serverSend 1, rfl⟩
  have h3 : Reachable c _ := .tail (.tail h2 ⟨.receive, rfl⟩) ⟨.transmit 2, rfl⟩
  refine ⟨_, ?_, ?_, ?_, echoes_in_order c h3⟩
  · rfl
  · rfl
  · decide

/-! ### Runs without a failing call -/

/-- The call does not fail, and a `send` gets rid of as much as the link takes in one message. -/
def Clean (c : Config) (upMtu downMtu : ℕ) (w : World) : Action → Prop
  | .transmit sent => sent = min c.frameSize upMtu
  | .serverSend sent => ∀ actual, w.server = .echoing actual → sent = min actual downMtu
  | .receive | .receiveEnds | .serverReceive | .serverReceiveEnds => True
  | .transmitFails | .receiveFails | .serverReceiveFails | .serverSendFails => False

def CleanStep (c : Config) (upMtu downMtu : ℕ) (w w' : World) : Prop :=
  ∃ a, Clean c upMtu downMtu w a ∧ step c w a = some w'

/-- The message that goes up for a frame, and the one that comes back. -/
def frame (c : Config) (upMtu : ℕ) : Message := Buffer.zero.1.take (min c.frameSize upMtu)
def echoFrame (c : Config) (upMtu downMtu : ℕ) : Message := (frame c upMtu).take downMtu

theorem frame_length (c : Config) (upMtu : ℕ) : (frame c upMtu).length = min c.frameSize upMtu := by
  have h := c.frameSize_le
  rw [frame, List.length_take, Buffer.zero.2]
  omega

theorem received_frame (c : Config) (upMtu : ℕ) : received (frame c upMtu) = frame c upMtu := by
  have h := c.frameSize_le
  exact received_eq (by rw [frame_length]; omega)

theorem received_echoFrame (c : Config) (upMtu downMtu : ℕ) :
    received (echoFrame c upMtu downMtu) = echoFrame c upMtu downMtu := by
  have h := c.frameSize_le
  exact received_eq (by rw [echoFrame, List.length_take, frame_length]; omega)

/-- The frames under way, and how many of them: none is lost before the server closes, and it
closes when the client has ended. -/
structure Flow (c : Config) (upMtu downMtu : ℕ) (w : World) : Prop where
  buf : w.buf = .zero
  up : ∀ m ∈ w.up, m = frame c upMtu
  down : ∀ m ∈ w.down, m = echoFrame c upMtu downMtu
  sent : w.tx.calls = List.replicate w.tx.i (.message (frame c upMtu))
  got : w.rx.calls = List.replicate w.rx.i (.message (echoFrame c upMtu downMtu))
  limit : w.tx.i ≤ c.frameNumber
  server : match w.server with
    | .receiving => c.echo = true → w.tx.i = w.rx.i + w.down.length + w.up.length
    | .echoing actual => c.echo = true ∧ actual = (frame c upMtu).length ∧
        w.serverBuf.1.take actual = frame c upMtu ∧
        w.tx.i = w.rx.i + w.down.length + 1 + w.up.length
    | .closed => w.up = [] ∧ w.clientEnded c ∧ (c.echo = true → w.down = [])

theorem replicate_count (s : Counter) {m : Message} (h : s.calls = List.replicate s.i (.message m)) :
    (s.count (.message m)).calls =
      List.replicate (s.count (.message m)).i (.message m) := by
  rw [Counter.count, h, ← List.replicate_succ']

section Clean

variable {c : Config} {upMtu downMtu : ℕ} {w w' : World}

theorem Flow.transmit (h : Flow c upMtu downMtu w) (hi : w.tx.i < c.frameNumber) :
    Flow c upMtu downMtu { w with
      tx := w.tx.count (.message (frame c upMtu)), up := w.up ++ [frame c upMtu] } := by
  have hserver := h.server
  refine ⟨h.buf, ?_, h.down, replicate_count w.tx h.sent, h.got, hi, ?_⟩
  · intro m hm
    rcases List.mem_append.1 hm with hm | hm
    · exact h.up m hm
    · exact List.mem_singleton.1 hm
  dsimp only
  cases hs : w.server with
  | receiving =>
    rw [hs] at hserver
    intro he
    have := hserver he
    simp only [Counter.count, List.length_append, List.length_singleton]
    omega
  | echoing actual =>
    rw [hs] at hserver
    obtain ⟨h1, h2, h3, h4⟩ := hserver
    refine ⟨h1, h2, h3, ?_⟩
    simp only [Counter.count, List.length_append, List.length_singleton]
    omega
  | closed =>
    rw [hs] at hserver
    exact absurd hserver.2.1.1 (by omega)

theorem Flow.receive (h : Flow c upMtu downMtu w) {m : Message} {down : List Message}
    (hd : w.down = m :: down) (he : c.echo = true) :
    Flow c upMtu downMtu { w with
      rx := w.rx.count (.message (echoFrame c upMtu downMtu)), down := down } := by
  have hserver := h.server
  refine ⟨h.buf, h.up, fun x hx => h.down x (by simp [hd, hx]), h.sent,
    replicate_count w.rx h.got, h.limit, ?_⟩
  dsimp only
  cases hs : w.server with
  | receiving =>
    rw [hs, hd] at hserver
    intro he
    have := hserver he
    simp only [Counter.count, List.length_cons] at this ⊢
    omega
  | echoing actual =>
    rw [hs, hd] at hserver
    obtain ⟨h1, h2, h3, h4⟩ := hserver
    refine ⟨h1, h2, h3, ?_⟩
    simp only [Counter.count, List.length_cons] at h4 ⊢
    omega
  | closed =>
    rw [hs, hd] at hserver
    exact absurd (hserver.2.2 he) (by simp)

theorem Flow.serverReceive (h : Flow c upMtu downMtu w) (hpos : 0 < (frame c upMtu).length)
    {m : Message} {up : List Message} (hs : w.server = .receiving) (hu : w.up = m :: up) :
    Flow c upMtu downMtu { w with
      server := .after c (frame c upMtu).length
      serverBuf := w.serverBuf.recv (frame c upMtu)
      up := up } := by
  have hserver := h.server
  refine ⟨h.buf, fun x hx => h.up x (by simp [hu, hx]), h.down, h.sent, h.got, h.limit, ?_⟩
  rw [hs, hu] at hserver
  rw [Server.after, if_neg (by omega)]
  by_cases he : c.echo = true
  · rw [if_pos he]
    refine ⟨he, rfl, ?_, ?_⟩
    · rw [recv_bytes, received_frame, List.take_left]
    · have := hserver he
      simp only [List.length_cons] at this ⊢
      omega
  · rw [if_neg he]
    exact fun h => absurd h he

theorem Flow.serverReceiveEnds (h : Flow c upMtu downMtu w) (hs : w.server = .receiving)
    (hu : w.up = []) (he : w.clientEnded c) : Flow c upMtu downMtu { w with server := .closed } := by
  have hserver := h.server
  rw [hs, hu] at hserver
  refine ⟨h.buf, h.up, h.down, h.sent, h.got, h.limit, hu, he, fun hecho => ?_⟩
  have h1 := hserver hecho
  have h2 := he.2 hecho
  have h3 := he.1
  simp only [List.length_nil] at h1
  have hnone : w.down.length = 0 := by omega
  exact List.length_eq_zero_iff.1 hnone

theorem Flow.serverSend (h : Flow c upMtu downMtu w) {sent actual : ℕ}
    (hs : w.server = .echoing actual) (hpos : 0 < sent)
    (hecho : w.serverBuf.1.take sent = echoFrame c upMtu downMtu) :
    Flow c upMtu downMtu { w with
      server := if sent = 0 then .closed else .receiving
      down := w.down ++ [w.serverBuf.1.take sent] } := by
  have hserver := h.server
  rw [hs] at hserver
  obtain ⟨-, -, -, hcount⟩ := hserver
  refine ⟨h.buf, h.up, ?_, h.sent, h.got, h.limit, ?_⟩
  · intro m hm
    rcases List.mem_append.1 hm with hm | hm
    · exact h.down m hm
    · rw [List.mem_singleton.1 hm, hecho]
  · rw [if_neg (by omega)]
    intro _
    simp only [List.length_append, List.length_singleton]
    omega

theorem flow_step (hsize : 0 < c.frameSize) (hup : 0 < upMtu) (hdown : 0 < downMtu)
    (h : Flow c upMtu downMtu w) (hstep : CleanStep c upMtu downMtu w w') :
    Flow c upMtu downMtu w' := by
  obtain ⟨a, hclean, ha⟩ := hstep
  have hlen := frame_length c upMtu
  have hserver := h.server
  cases step_iff.1 ha with
  | @transmit sent hi _ _ =>
    have hframe : w.buf.1.take sent = frame c upMtu := by
      rw [h.buf, show sent = min c.frameSize upMtu from hclean, frame]
    rw [hframe]
    exact h.transmit hi
  | transmitFails _ => exact hclean.elim
  | @receive m down hd he hi =>
    rw [h.down m (by simp [hd]), received_echoFrame]
    exact h.receive hd he
  | receiveEnds he hi _ hs =>
    rw [hs] at hserver
    exact absurd (hserver.2.1.2 he) (by omega)
  | receiveFails _ _ => exact hclean.elim
  | @serverReceive m up hs hu =>
    rw [h.up m (by simp [hu]), received_frame]
    exact h.serverReceive (by omega) hs hu
  | serverReceiveEnds hs hu he => exact h.serverReceiveEnds hs hu he
  | serverReceiveFails _ => exact hclean.elim
  | @serverSend sent actual hs _ _ =>
    have hsent := hclean actual hs
    rw [hs] at hserver
    obtain ⟨-, hact, hbuf, -⟩ := hserver
    refine h.serverSend hs (by omega) ?_
    rw [hsent, Nat.min_comm, ← List.take_take, hbuf, echoFrame]
  | serverSendFails _ => exact hclean.elim

theorem flow_start : Flow c upMtu downMtu .start :=
  ⟨rfl, by simp [World.start], by simp [World.start], rfl, rfl, Nat.zero_le _, fun _ => rfl⟩

/-- What is left to do. -/
def left (c : Config) (w : World) : ℕ :=
  3 * (c.frameNumber - w.tx.i) + 2 * w.up.length + (c.frameNumber - w.rx.i) +
    match w.server with
    | .receiving => 1
    | .echoing _ => 2
    | .closed => 0

theorem left_step (hstep : CleanStep c upMtu downMtu w w') : left c w' < left c w := by
  obtain ⟨a, hclean, ha⟩ := hstep
  cases step_iff.1 ha with
  | transmit hi _ _ =>
    simp only [left, Counter.count, List.length_append, List.length_singleton]
    omega
  | transmitFails _ => exact hclean.elim
  | receive _ _ hi =>
    simp only [left, Counter.count]
    omega
  | receiveEnds _ hi _ _ =>
    simp only [left, Counter.count]
    omega
  | receiveFails _ _ => exact hclean.elim
  | serverReceive hs hu =>
    simp only [left, Server.after, hs, hu, List.length_cons]
    split_ifs <;> simp only <;> omega
  | serverReceiveEnds hs hu _ =>
    simp only [left, hs]
    omega
  | serverReceiveFails _ => exact hclean.elim
  | serverSend hs _ _ =>
    simp only [left, hs]
    split_ifs <;> simp only <;> omega
  | serverSendFails _ => exact hclean.elim

/-- Where no process can go on, all have ended. -/
theorem flow_stuck (hupRoom : 0 < c.upRoom) (hdownRoom : 0 < c.downRoom)
    (h : Flow c upMtu downMtu w) (hstuck : ∀ w', ¬ CleanStep c upMtu downMtu w w') :
    w.server = .closed := by
  have hno : ∀ a w', Clean c upMtu downMtu w a → ¬ Stepped c w a w' :=
    fun a w' hc hs => hstuck w' ⟨a, hc, step_iff.2 hs⟩
  -- the transmitter waits for room, or has ended
  have htx : w.tx.i = c.frameNumber ∨ w.up ≠ [] := by
    by_contra hcon
    obtain ⟨hi, hu⟩ := not_or.1 hcon
    have hlt : w.tx.i < c.frameNumber := lt_of_le_of_ne h.limit hi
    exact hno (.transmit (min c.frameSize upMtu)) _ rfl (.transmit hlt (Nat.min_le_left _ _) (by rw [not_not.1 hu]; exact hupRoom))
  -- the receiver waits for a message, or has ended
  have hrx : c.echo = true → w.rx.i < c.frameNumber → w.down = [] := by
    intro he hi
    cases hd : w.down with
    | nil => rfl
    | cons m down => exact absurd (Stepped.receive hd he hi) (hno _ _ trivial)
  have hserver := h.server
  cases hs : w.server with
  | closed => rfl
  | echoing actual =>
    exfalso
    rw [hs] at hserver
    obtain ⟨he, -, -, hcount⟩ := hserver
    have hfull : ¬ w.down.length < c.downRoom := fun hroom =>
      hno (.serverSend (min actual downMtu)) _ (fun a ha => by rw [hs] at ha; cases ha; rfl)
        (.serverSend hs (Nat.min_le_left _ _) hroom)
    have hlimit := h.limit
    have hdown := hrx he (by omega)
    rw [hdown] at hfull
    exact hfull hdownRoom
  | receiving =>
    exfalso
    rw [hs] at hserver
    have hup : w.up = [] := by
      cases hu : w.up with
      | nil => rfl
      | cons m up => exact absurd (Stepped.serverReceive hs hu) (hno _ _ trivial)
    have hi : w.tx.i = c.frameNumber := htx.resolve_right (not_not.2 hup)
    refine hno .serverReceiveEnds _ trivial (.serverReceiveEnds hs hup ⟨hi, fun he => ?_⟩)
    have hcount := hserver he
    rw [hup] at hcount
    by_contra hne
    have hlt : w.rx.i < c.frameNumber := by omega
    rw [hrx he hlt] at hcount
    simp only [List.length_nil] at hcount
    omega

theorem clean_reachable (h : Relation.ReflTransGen (CleanStep c upMtu downMtu) .start w) :
    Reachable c w := by
  refine Relation.ReflTransGen.mono ?_ _ _ h
  rintro s s' ⟨a, -, ha⟩
  exact ⟨a, ha⟩

theorem counts_replicate {s : Counter} (h : s.Counts) {n : ℕ} {m : Message}
    (hcalls : s.calls = List.replicate n (.message m)) : s.total = BitVec.ofNat 32 (n * m.length) := by
  rw [h.2, hcalls, List.map_replicate, Answer.actual]
  clear hcalls
  induction n with
  | zero => simp
  | succ n ih =>
    rw [List.replicate_succ, List.sum_cons, ih, ← BitVec.ofNat_add, Nat.succ_mul, Nat.add_comm]

end Clean

/-- When no call fails, every order of the calls comes to an end, after at most four calls for
each frame and one for the end, and only when all processes have ended: the processes do not
wait for each other, whatever the room of the queues. All frames have then come back, cut to
what the two links take in a message. -/
theorem spray_completes (c : Config) {upMtu downMtu : ℕ} (hsize : 0 < c.frameSize)
    (hup : 0 < upMtu) (hdown : 0 < downMtu) (hupRoom : 0 < c.upRoom) (hdownRoom : 0 < c.downRoom) :
    (∀ ws, List.IsChain (CleanStep c upMtu downMtu) (.start :: ws) →
      ws.length ≤ 4 * c.frameNumber + 1) ∧
    ∀ w, Relation.ReflTransGen (CleanStep c upMtu downMtu) .start w →
      (∀ w', ¬ CleanStep c upMtu downMtu w w') →
      w.server = .closed ∧
      w.tx.calls = List.replicate c.frameNumber (.message (frame c upMtu)) ∧
      w.tx.total = BitVec.ofNat 32 (c.frameNumber * min c.frameSize upMtu) ∧
      (c.echo = true →
        w.rx.calls = List.replicate c.frameNumber (.message (echoFrame c upMtu downMtu)) ∧
        w.rx.total = BitVec.ofNat 32 (c.frameNumber * min downMtu (min c.frameSize upMtu))) := by
  constructor
  · intro ws hws
    have h := Runs.chain_length_le (left c) (fun s s' hs => left_step hs) ws .start hws
    have hleft : left c .start = 4 * c.frameNumber + 1 := by
      simp only [left, World.start, Counter.start, List.length_nil]
      omega
    omega
  · intro w hw hstuck
    have hflow : Flow c upMtu downMtu w :=
      Runs.reachable_inv (Flow c upMtu downMtu) (fun s s' h hs => flow_step hsize hup hdown h hs)
        flow_start hw
    have hclosed := flow_stuck hupRoom hdownRoom hflow hstuck
    have hserver := hflow.server
    rw [hclosed] at hserver
    obtain ⟨-, ⟨hi, hrx⟩, -⟩ := hserver
    obtain ⟨htxc, hrxc⟩ := reachable_counts (clean_reachable hw)
    have hsent := hflow.sent
    rw [hi] at hsent
    refine ⟨hclosed, hsent, ?_, fun he => ?_⟩
    · rw [counts_replicate htxc hsent, frame_length]
    · have hgot := hflow.got
      rw [hrx he] at hgot
      refine ⟨hgot, ?_⟩
      rw [counts_replicate hrxc hgot, echoFrame, List.length_take, frame_length]

/-- The default options of the client, over queues with room for one message. -/
def defaults : Config := ⟨1024, 100, true, 1, 1, by decide⟩

/-- No run with the defaults ends with other totals than 100 frames of 1024 bytes. -/
theorem spray_completes_defaults :
    ¬ ∃ w, Relation.ReflTransGen (CleanStep defaults 2048 2048) .start w ∧
      (∀ w', ¬ CleanStep defaults 2048 2048 w w') ∧ ¬ (w.tx.total = 102400 ∧ w.rx.total = 102400) := by
  rintro ⟨w, hw, hstuck, hne⟩
  obtain ⟨-, -, htx, hrx⟩ := (spray_completes defaults (by decide) (by decide) (by decide)
    (by decide) (by decide)).2 w hw hstuck
  exact hne ⟨htx, (hrx rfl).2⟩

end Irdaspray
