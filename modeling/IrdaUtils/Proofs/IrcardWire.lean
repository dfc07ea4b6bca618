import IrdaUtils.Proofs.IrcardBanks
import IrdaUtils.Proofs.TransmitQueue

/-! The driver at its registers refines the transmit queue: what the chip finds in its count and
address registers when it is told to send is the frame whose turn it is, whatever accesses have
gone astray before. -/

namespace Ircard
open Memory Banked

/-! ### What the chip sends -/

/-- RTS is set in the transmit control register of the chip. -/
def Access.rts : Access → Bool
  | .write bank reg value =>
    bank = txCtrl1.bank ∧ reg.offset = txCtrl1.offset ∧ value &&& txCtrl1Rts ≠ 0
  | _ => false

def Access.isCopy : Access → Bool
  | .copy _ _ => true
  | _ => false

def reg (c : Chip) (r : Reg) : ℕ := (c.regs r.bank r.offset).toNat

/-- The frame that the registers describe. The 14 bits of the address count from the transmit
half of the shared memory, which is at `membase` for the host. -/
def frame (membase : ℕ) (c : Chip) : List UInt8 :=
  load c.mem (membase + shmemTxStart + (reg c txDmaAddrHigh % 64 * 256 + reg c txDmaAddrLow))
    (reg c txByteCountHigh * 256 + reg c txByteCountLow)

/-- The frames that are sent along a trace. -/
def sends (membase : ℕ) : Chip → List Access → List (List UInt8)
  | _, [] => []
  | c, a :: t => (if Access.rts a then [frame membase c] else []) ++ sends membase (c.see a) t

theorem sends_append (membase : ℕ) (c : Chip) (t u : List Access) :
    sends membase c (t ++ u) = sends membase c t ++ sends membase (c.after t) u := by
  induction t generalizing c with
  | nil => rfl
  | cons a t ih =>
    rw [List.cons_append, sends, sends, ih, List.append_assoc]
    rfl

/-- Nothing is sent or stored. -/
def Quiet (t : List Access) : Prop := ∀ a ∈ t, Access.rts a = false ∧ Access.isCopy a = false

theorem quiet_nil : Quiet [] := fun _ ha => absurd ha List.not_mem_nil

theorem Quiet.append {t u : List Access} (ht : Quiet t) (hu : Quiet u) : Quiet (t ++ u) := by
  intro a ha
  exact (List.mem_append.1 ha).elim (ht a) (hu a)

theorem Quiet.chip {t : List Access} (h : Quiet t) (membase : ℕ) (c : Chip) :
    sends membase c t = [] ∧ (c.after t).mem = c.mem := by
  induction t generalizing c with
  | nil => exact ⟨rfl, rfl⟩
  | cons a t ih =>
    obtain ⟨⟨hr, hc⟩, ht⟩ := List.forall_mem_cons.1 h
    obtain ⟨h1, h2⟩ := ih ht (c.see a)
    have hmem : (c.see a).mem = c.mem := by
      cases a with
      | copy _ _ => cases hc
      | _ => rfl
    refine ⟨?_, h2.trans hmem⟩
    rw [sends, hr, if_neg Bool.false_ne_true, h1]
    rfl

/-! ### The frame in the registers -/

/-- The frame lies in the transmit half, and its length fits the count registers. -/
structure InWindow (membase : ℕ) (f : FrameCb) : Prop where
  nonempty : 0 < f.len
  start : membase + shmemTxStart ≤ f.start
  inside : f.start + f.len ≤ membase + windowSize
  len : f.len < 8192

theorem count_bytes {n : ℕ} (h : n < 8192) :
    (UInt8.ofNat ((n >>> 8) &&& 0x1f)).toNat * 256 + (UInt8.ofNat (n &&& 0xff)).toNat = n := by
  have h1 : (n >>> 8) &&& 0x1f = n / 256 % 32 := by
    rw [show (0x1f : ℕ) = 2 ^ 5 - 1 by rfl, Nat.and_two_pow_sub_one_eq_mod, Nat.shiftRight_eq_div_pow]
  have h2 : n &&& 0xff = n % 256 := Nat.and_two_pow_sub_one_eq_mod n 8
  rw [h1, h2, UInt8.toNat_ofNat', UInt8.toNat_ofNat']
  omega

theorem addr_bytes (n : ℕ) :
    (UInt8.ofNat (pageDisable ||| ((n >>> 8) &&& 0x3f))).toNat % 64 * 256 +
      (UInt8.ofNat (n &&& 0xff)).toNat = n % 16384 := by
  have h1 : (n >>> 8) &&& 0x3f = n / 256 % 64 := by
    rw [show (0x3f : ℕ) = 2 ^ 6 - 1 by rfl, Nat.and_two_pow_sub_one_eq_mod, Nat.shiftRight_eq_div_pow]
  have h2 : n &&& 0xff = n % 256 := Nat.and_two_pow_sub_one_eq_mod n 8
  have h3 : pageDisable ||| n / 256 % 64 = 64 + n / 256 % 64 :=
    (Nat.two_pow_add_eq_or_of_lt (i := 6) (Nat.mod_lt _ (by decide)) 1).symm
  rw [h1, h2, h3, UInt8.toNat_ofNat', UInt8.toNat_ofNat']
  omega

theorem dmaTrace_sends (c : Chip) (self : Idev) (m1 m2 m3 m4 m5 : UInt8)
    (h : InWindow self.membase (self.txQ.queue self.txQ.ptr)) :
    sends self.membase c (dmaTrace self m1 m2 m3 m4 m5) =
        [load c.mem (self.txQ.queue self.txQ.ptr).start (self.txQ.queue self.txQ.ptr).len] ∧
      (c.after (dmaTrace self m1 m2 m3 m4 m5)).mem = c.mem := by
  refine ⟨?_, rfl⟩
  set f := self.txQ.queue self.txQ.ptr with hf
  have hs := h.start
  have hi := h.inside
  have hn := h.nonempty
  have haddr : self.membase + shmemTxStart + (f.start - self.membase) % 16384 = f.start := by
    simp only [shmemTxStart, windowSize] at *
    omega
  have hsends : sends self.membase c (dmaTrace self m1 m2 m3 m4 m5) =
      [load c.mem (self.membase + shmemTxStart +
        ((UInt8.ofNat (pageDisable ||| (((f.start - self.membase) >>> 8) &&& 0x3f))).toNat % 64 * 256 +
          (UInt8.ofNat ((f.start - self.membase) &&& 0xff)).toNat))
        ((UInt8.ofNat ((f.len >>> 8) &&& 0x1f)).toNat * 256 + (UInt8.ofNat (f.len &&& 0xff)).toNat)] := rfl
  rw [hsends, count_bytes h.len, addr_bytes, haddr]

/-! ### The refinement -/

/-- The driver `x` and the shared memory of the chip, as the transmit queue. -/
structure Sim (c : Chip) (x : Idev) (s : Cb) : Prop where
  txQ : s.txQ = x.txQ
  membase : s.membase = x.membase
  mem : s.mem = c.mem

/-- The frame whose turn it is lies in the window. -/
def Inside (s : Cb) (e : Event) : Prop :=
  (step s e).txQ.len ≠ 0 →
    InWindow (step s e).membase ((step s e).txQ.queue (step s e).txQ.ptr)

/-- From `x` to `y` with the accesses `t`, the queue makes the steps that are logged, and the
frames that it starts are sent. -/
def Refines (x y : Idev) (t : List Access) : Prop :=
  ∃ es, y.log = x.log ++ es ∧ y.membase = x.membase ∧
    ∀ c s, Sim c x s → Runs.Along step Inside s es →
      Sim (c.after t) y (es.foldl step s) ∧
        (es.foldl step s).dma.map Dma.data = s.dma.map Dma.data ++ sends x.membase c t

theorem Refines.quiet {x y : Idev} {t : List Access} (htxQ : y.txQ = x.txQ)
    (hbase : y.membase = x.membase) (hlog : y.log = x.log) (ht : Quiet t) : Refines x y t := by
  refine ⟨[], by rw [hlog, List.append_nil], hbase, fun c s h _ => ?_⟩
  obtain ⟨hsends, hmem⟩ := ht.chip x.membase c
  exact ⟨⟨h.txQ.trans htxQ.symm, h.membase.trans hbase.symm, h.mem.trans hmem.symm⟩,
    by rw [hsends, List.append_nil]; rfl⟩

theorem Refines.trans {x y z : Idev} {t u : List Access} (h : Refines x y t) (h' : Refines y z u) :
    Refines x z (t ++ u) := by
  obtain ⟨es, hlog, hbase, hstep⟩ := h
  obtain ⟨es', hlog', hbase', hstep'⟩ := h'
  refine ⟨es ++ es', by rw [hlog', hlog, List.append_assoc], hbase'.trans hbase, fun c s hs ha => ?_⟩
  obtain ⟨ha1, ha2⟩ := (Runs.along_append es es' s).1 ha
  obtain ⟨hs1, hd1⟩ := hstep c s hs ha1
  obtain ⟨hs2, hd2⟩ := hstep' (c.after t) _ hs1 ha2
  rw [List.foldl_append, Chip.after_append, sends_append, hd2, hd1, hbase, List.append_assoc]
  exact ⟨hs2, rfl⟩

/-- Quiet accesses in front change nothing. -/
theorem Refines.after {x y : Idev} {t u : List Access} (h : Refines x y u) (ht : Quiet t) :
    Refines x y (t ++ u) :=
  (Refines.quiet rfl rfl rfl ht).trans h

/-! ### The operations -/

theorem quiet_switched (m bank : UInt8) : Quiet (switched m bank) := by
  simp [Quiet, switched, Access.rts, Access.isCopy]

theorem quiet_peeks (a : ℤ) (bs : List UInt8) : Quiet (peeks a bs) := by
  induction bs generalizing a with
  | nil => exact quiet_nil
  | cons b bs ih => exact List.forall_mem_cons.2 ⟨⟨rfl, rfl⟩, ih (a + 1)⟩

theorem quiet_receiveTrace (b m1 m2 : UInt8) : Quiet (receiveTrace b m1 m2) := by
  refine ((Quiet.append (quiet_switched m1 0) ?_).append (quiet_switched m2 0)).append ?_
  · simp [Quiet, Access.rts, Access.isCopy, txCtrl1, reset]
  · simp [Quiet, Access.rts, Access.isCopy, txCtrl1, rxCtrl, misc]

theorem quiet_completeTrace (b m v : UInt8) (vs : List UInt8) : Quiet (completeTrace b m v vs) := by
  refine (Quiet.append (quiet_switched m 0) ?_).append ?_
  · intro a ha
    obtain ⟨w, -, rfl⟩ := List.mem_map.1 ha
    exact ⟨rfl, rfl⟩
  · simp [Quiet, Access.rts, Access.isCopy, txCtrl1, misc, reset]

variable {b : UInt8}

theorem xmitComplete_refines (hb : IsBank mcrBankMask b) (self : Idev) (turn : Turn) :
    Meets mcrBankMask b (self.xmitComplete turn) fun y _ t => Refines self y t := by
  refine (xmitComplete_meets hb self turn).mono ?_
  rintro y b' t ⟨stats, m, v, vs, u, -, rfl, hu⟩
  refine Refines.after ?_ (quiet_completeTrace b m v vs)
  -- the queue and the driver retire the frame in the same way
  have hretire : ∀ c s, Sim c self s → Sim c (self.finish stats turn) (retire s) := fun c s h =>
    ⟨by simp only [retire, Idev.finish, h.txQ], h.membase, h.mem⟩
  cases hu with
  | next m1 m2 m3 m4 m5 hlen =>
    refine ⟨[.complete turn.txqueueEmpty], rfl, rfl, fun c s h ha => ?_⟩
    have hr := hretire c s h
    have hstep : step s (.complete turn.txqueueEmpty) = dmaWrite (retire s) :=
      if_pos (by rw [hr.txQ]; exact hlen)
    have hin := ha.1
    rw [Inside, hstep] at hin
    have hw := hin (by change (retire s).txQ.len ≠ 0; rw [hr.txQ]; exact hlen)
    change InWindow (retire s).membase ((retire s).txQ.queue (retire s).txQ.ptr) at hw
    rw [hr.membase, hr.txQ] at hw
    obtain ⟨hsends, hmem⟩ := dmaTrace_sends c (self.finish stats turn) m1 m2 m3 m4 m5 hw
    rw [List.foldl_cons, List.foldl_nil, hstep]
    refine ⟨⟨hr.txQ, hr.membase, hr.mem.trans hmem.symm⟩, ?_⟩
    change _ = _ ++ sends (self.finish stats turn).membase c _
    rw [hsends, ← hr.txQ, ← hr.mem]
    simp [dmaWrite, retire]
  | receive m1 m2 hlen he =>
    refine ⟨[.complete turn.txqueueEmpty], rfl, rfl, fun c s h _ => ?_⟩
    have hr := hretire c s h
    have hstep : step s (.complete turn.txqueueEmpty) = receive (retire s) := by
      change xmitComplete s _ = _
      unfold xmitComplete
      rw [he, if_neg (by rw [hr.txQ]; exact not_not.2 hlen), if_pos rfl]
    have hq : Quiet (.write b txCtrl1 0 :: receiveTrace b m1 m2) := by
      refine List.forall_mem_cons.2 ⟨⟨?_, rfl⟩, quiet_receiveTrace b m1 m2⟩
      simp [Access.rts]
    obtain ⟨hsends, hmem⟩ := hq.chip self.membase c
    rw [List.foldl_cons, List.foldl_nil, hstep, hsends, List.append_nil]
    refine ⟨⟨?_, hr.membase, hr.mem.trans hmem.symm⟩, rfl⟩
    simp only [receive, Idev.ready, hr.txQ, hr.membase]
  | wait hlen he =>
    refine ⟨[.complete turn.txqueueEmpty], rfl, rfl, fun c s h _ => ?_⟩
    have hr := hretire c s h
    have hstep : step s (.complete turn.txqueueEmpty) = retire s := by
      change xmitComplete s _ = _
      unfold xmitComplete
      rw [he, if_neg (by rw [hr.txQ]; exact not_not.2 hlen), if_neg Bool.false_ne_true]
    rw [List.foldl_cons, List.foldl_nil, hstep]
    exact ⟨hr, (List.append_nil _).symm⟩

theorem receiveComplete_refines (hb : IsBank mcrBankMask b) (self : Idev) (turn : Turn) :
    Meets mcrBankMask b (self.receiveComplete turn) fun r _ t => Refines self r.2 t := by
  refine (receiveComplete_meets hb self turn).mono ?_
  rintro ⟨_, y⟩ b' t ⟨m, low, high, u, rfl, hu⟩
  have hring : Quiet (ringTrace m low high) := by
    simp [Quiet, ringTrace, switched, Access.rts, Access.isCopy]
  have hpeek : ∀ a v a' v', Quiet [.peek a v, .peek a' v'] := by
    simp [Quiet, Access.rts, Access.isCopy]
  refine Refines.after ?_ hring
  cases hu with
  | none h => exact .quiet rfl rfl rfl quiet_nil
  | bad stat lenLow h => exact .quiet rfl rfl rfl (hpeek _ _ _ _)
  | overrun stat lenLow m' stats h =>
    refine .quiet rfl rfl rfl (((hpeek _ _ _ _).append (quiet_switched m' 0)).append ?_)
    simp [Quiet, Access.rts, Access.isCopy, txCtrl1, reset]
  | short stat lenLow h => exact .quiet rfl rfl rfl (hpeek _ _ _ _)
  | dropped stat lenLow h => exact .quiet rfl rfl rfl (hpeek _ _ _ _)
  | frame stat lenLow bs stats h hbs =>
    exact .quiet rfl rfl rfl ((hpeek _ _ _ _).append (quiet_peeks _ _))

theorem handle_refines (hb : IsBank mcrBankMask b) (self : Idev) (turn : Turn) (id : UInt8) :
    Meets mcrBankMask b (self.handle turn id) fun y _ t => Refines self y t := by
  unfold Idev.handle
  split
  · exact xmitComplete_refines hb self turn
  split
  · refine .bind (receiveComplete_refines hb self turn) fun r b' t h => .pure ?_
    rw [List.append_nil]
    exact h
  · exact .pure (.quiet rfl rfl rfl quiet_nil)

theorem turns_refines (turn : ℕ → Turn) (n : ℕ) : ∀ {b : UInt8} (self : Idev) (id : UInt8),
    b = 0 ∨ b = 1 →
      Meets mcrBankMask b (Idev.turns turn n self id) fun y _ t => Refines self y t := by
  have hstay : ∀ x : Idev, Refines x x [] := fun x =>
    .quiet rfl rfl rfl quiet_nil
  induction n with
  | zero =>
    intro b self id _
    exact .pure (hstay self)
  | succ n ih =>
    intro b self id hb
    have hbank : IsBank mcrBankMask b := by
      rcases hb with rfl | rfl <;> decide
    unfold Idev.turns
    split
    · exact .pure (hstay self)
    refine .bind (.and (handle_handled hb self (turn n) id) (handle_refines hbank self (turn n) id)) ?_
    rintro y b' t ⟨h, hr⟩
    split
    · refine .pure ?_
      rw [List.append_nil]
      exact hr
    · refine .inReg fun v => (ih y (v &&& msrIdMask) h.bank).mono fun z b'' u hz => hr.trans ?_
      exact hz.after (t := [.read b' msr v]) (by simp [Quiet, Access.rts, Access.isCopy])

theorem onInterrupt_refines (hb : IsBank mcrBankMask b) (self : Idev) (turn : ℕ → Turn) :
    Meets mcrBankMask b (self.onInterrupt turn) fun y _ t => Refines self y t := by
  unfold Idev.onInterrupt
  split
  · exact .pure (.quiet rfl rfl rfl quiet_nil)
  refine switchBank_then hb (by decide) fun m => .inReg fun v => ?_
  refine .bind (.and (turns_meets turn maxTurns { self with interrupt := true } _ (.inl rfl))
    (turns_refines turn maxTurns { self with interrupt := true } _ (.inl rfl))) ?_
  rintro z b'' u ⟨hz, hr⟩
  have hb'' : IsBank mcrBankMask b'' := by
    rcases hz.bank with rfl | rfl <;> decide
  refine switchBank_then hb'' hb fun m' => .pure ?_
  have hend : Refines z { z with interrupt := false } (switched m' b ++ []) :=
    .quiet rfl rfl rfl ((quiet_switched m' b).append quiet_nil)
  refine Refines.after ?_ (quiet_switched m 0)
  refine Refines.after (t := [.read 0 msr v]) (u := u ++ (switched m' b ++ [])) ?_
    (by simp [Quiet, Access.rts, Access.isCopy])
  have hbegin : Refines self { self with interrupt := true } [] := .quiet rfl rfl rfl quiet_nil
  exact (hbegin.trans hr).trans hend

theorem hardXmit_refines (hb : IsBank mcrBankMask b) (self : Idev) (skb : List UInt8) :
    Meets mcrBankMask b (self.hardXmit skb) fun r _ t => Refines self r.2 t := by
  refine (hardXmit_meets hb self skb).mono ?_
  rintro ⟨_, y⟩ b' t h
  have hsim : ∀ c s, Sim c self s → Sim (c.after [.copy self.txQ.tail skb]) (self.enqueued skb)
      (enqueue s skb) := by
    intro c s h
    refine ⟨?_, h.membase, ?_⟩
    · simp only [enqueue, Idev.enqueued, h.txQ]
    · change store s.mem s.txQ.tail skb = store c.mem self.txQ.tail skb
      rw [h.mem, h.txQ]
  cases h with
  | busy h => exact .quiet rfl rfl rfl quiet_nil
  | first m m1 m2 m3 m4 m5 hlen =>
    rw [List.append_assoc]
    refine Refines.after ?_ (quiet_switched m 0)
    refine ⟨[.xmit skb], rfl, rfl, fun c s h ha => ?_⟩
    have hr := hsim c s h
    have hstep : step s (.xmit skb) = dmaWrite (enqueue s skb) := if_pos (by rw [hr.txQ]; exact hlen)
    have hin := ha.1
    rw [Inside, hstep] at hin
    have hw := hin (by
      change (enqueue s skb).txQ.len ≠ 0
      rw [hr.txQ, hlen]
      exact one_ne_zero)
    change InWindow (enqueue s skb).membase ((enqueue s skb).txQ.queue (enqueue s skb).txQ.ptr) at hw
    rw [hr.membase, hr.txQ] at hw
    obtain ⟨hsends, hmem⟩ := dmaTrace_sends (c.after [.copy self.txQ.tail skb]) (self.enqueued skb)
      m1 m2 m3 m4 m5 hw
    rw [List.foldl_cons, List.foldl_nil, hstep, Chip.after_append, sends_append]
    refine ⟨⟨hr.txQ, hr.membase, hr.mem.trans hmem.symm⟩, ?_⟩
    change _ = _ ++ ([] ++ sends (self.enqueued skb).membase _ _)
    rw [hsends, ← hr.txQ, ← hr.mem]
    simp [dmaWrite, enqueue]
  | queued m hlen =>
    refine Refines.after ?_ (quiet_switched m 0)
    refine ⟨[.xmit skb], rfl, rfl, fun c s h _ => ?_⟩
    have hr := hsim c s h
    have hstep : step s (.xmit skb) = enqueue s skb := if_neg (by rw [hr.txQ]; exact hlen)
    rw [List.foldl_cons, List.foldl_nil, hstep]
    exact ⟨⟨hr.txQ, hr.membase, hr.mem⟩, (List.append_nil _).symm⟩

/-- The operations between two changes of speed. -/
def Op.keepsSpeed : Op → Bool
  | .changeSpeed _ => false
  | _ => true

theorem ops_refines (ops : List Op) : ∀ {b : UInt8} (_ : IsBank mcrBankMask b) (self : Idev),
    (∀ op ∈ ops, op.keepsSpeed) →
      Meets mcrBankMask b (self.ops ops) fun y _ t => Refines self y t := by
  induction ops with
  | nil =>
    intro b _ self _
    exact .pure (.quiet rfl rfl rfl quiet_nil)
  | cons op ops ih =>
    intro b hb self hops
    obtain ⟨hop, hops⟩ := List.forall_mem_cons.1 hops
    have hfirst : Meets mcrBankMask b (self.op op) fun y _ t => Refines self y t := by
      cases op with
      | changeSpeed speed => cases hop
      | hardXmit skb =>
        refine .bind (hardXmit_refines hb self skb) fun r b' t h => .pure ?_
        rw [List.append_nil]
        exact h
      | interrupt turn => exact onInterrupt_refines hb self turn
    refine .bind (.and (op_stray hb self op) hfirst) ?_
    rintro y b' t ⟨⟨hb', -⟩, hr⟩
    exact (ih hb' y hops).mono fun z b'' u hz => hr.trans hz

/-! ### The queue in its window -/

/-- The queue in a run that keeps the limits. -/
structure Kept (s : Cb) : Prop where
  queue : QueueInv s
  few : s.since.length ≤ maxWindow
  tail : s.txQ.tail ≤ s.membase + windowSize
  lengths : ∀ f ∈ s.since, 1 ≤ f.length ∧ f.length ≤ 2050

theorem step_lengths {s : Cb} {e : Event} (h : ∀ f ∈ s.since, 1 ≤ f.length ∧ f.length ≤ 2050)
    (ha : Allowed s e) : ∀ f ∈ (step s e).since, 1 ≤ f.length ∧ f.length ≤ 2050 := by
  cases e with
  | xmit skb =>
    have hs : (hardXmit s skb).since = s.since ++ [skb] := by
      unfold hardXmit
      simp only
      split_ifs <;> rfl
    intro f hf
    change f ∈ (hardXmit s skb).since at hf
    rw [hs, List.mem_append] at hf
    rcases hf with hf | hf
    · exact h f hf
    · exact List.mem_singleton.1 hf ▸ ⟨ha.1, ha.2.1⟩
  | complete empty =>
    have hs : (xmitComplete s empty).since = s.since ∨ (xmitComplete s empty).since = [] := by
      unfold xmitComplete
      simp only
      split_ifs
      · exact .inl rfl
      · exact .inr rfl
      · exact .inl rfl
    intro f hf
    change f ∈ (xmitComplete s empty).since at hf
    rcases hs with hs | hs
    · exact h f (hs ▸ hf)
    · rw [hs] at hf
      cases hf

theorem Kept.step {s : Cb} {e : Event} (h : Kept s) (ha : Allowed s e) (hf : Fits s e) :
    Kept (step s e) :=
  ⟨step_inv s e h.queue ha, step_window h.few ha, (step_tail s e h.tail).1 hf, step_lengths h.lengths ha⟩

theorem Kept.inside {s : Cb} (h : Kept s) (hlen : s.txQ.len ≠ 0) :
    InWindow s.membase (s.txQ.queue s.txQ.ptr) := by
  obtain ⟨h1, h2, h3, h4⟩ := h.queue.counters
  have hlt : s.txQ.ptr.toNat < s.since.length := by omega
  have hptr : ((s.txQ.ptr.toNat : ℕ) : ℤ) = s.txQ.ptr := Int.toNat_of_nonneg h1
  obtain ⟨hstart, hend⟩ := entry_end h.queue.toLayout hlt
  have hentry := h.queue.entry _ hlt
  rw [hptr] at hstart hend hentry
  obtain ⟨hpos, hmax⟩ := h.lengths _ (List.getElem_mem hlt)
  have htail := h.queue.tail
  have hwin := h.tail
  have hle := offset_take_le s.since (s.txQ.ptr.toNat + 1)
  have hbase : s.txBase = shmemTxStart + s.membase := rfl
  have hl : (s.txQ.queue s.txQ.ptr).len = s.since[s.txQ.ptr.toNat].length := by rw [hentry]
  exact ⟨by omega, by omega, by omega, by omega⟩

/-- The frames that are handed over in the events of the queue. -/
def handed (es : List Event) : List (List UInt8) :=
  es.filterMap fun
    | .xmit skb => some skb
    | .complete _ => none

theorem queued_eq (es : List Event) (s : Cb) :
    (es.foldl step s).queued = s.queued ++ handed es := by
  induction es generalizing s with
  | nil => exact (List.append_nil _).symm
  | cons e es ih =>
    rw [List.foldl_cons, ih]
    cases e with
    | xmit skb =>
      have hq : (step s (.xmit skb)).queued = s.queued ++ [skb] := by
        change (hardXmit s skb).queued = _
        unfold hardXmit
        simp only
        split_ifs <;> rfl
      rw [hq, List.append_assoc]
      rfl
    | complete empty =>
      have hq : (step s (.complete empty)).queued = s.queued := by
        change (xmitComplete s empty).queued = _
        unfold xmitComplete
        simp only
        split_ifs <;> rfl
      rw [hq]
      rfl

/-- From an empty queue, in every run of transmissions and interrupts that keeps the limits of
the queue, the chip sends the frames that were handed over, in order and with their own bytes,
all but those that wait behind the current one. -/
theorem chip_sends_queued {b : UInt8} (hb : IsBank mcrBankMask b) (x : Idev) (hlog : x.log = [])
    (c : Chip) (ops : List Op) (hops : ∀ op ∈ ops, op.keepsSpeed) (as : ℕ → UInt8) :
    let o := (x.ready.ops ops).run mcrBankMask b as
    let s := Cb.config x.membase c.mem x.txQ.queue
    Runs.Along step Allowed s o.val.log → Runs.Along step Fits s o.val.log →
      sends x.membase c o.trace =
        (handed o.val.log).take ((handed o.val.log).length - (o.val.txQ.len.toNat - 1)) := by
  intro o s ha hf
  obtain ⟨es, hes, -, hstep⟩ := ops_refines ops hb x.ready hops as
  have hes : o.val.log = es := by
    rw [hes]
    change x.log ++ es = es
    rw [hlog, List.nil_append]
  rw [hes] at ha hf ⊢
  have hs : Kept s := ⟨config_inv _ _ _, Nat.zero_le _, by
    simp only [s, Cb.config, shmemTxStart, windowSize]
    omega, fun f hf => absurd hf List.not_mem_nil⟩
  have hkeep : ∀ s e, Kept s → (Allowed s e ∧ Fits s e) → Kept (step s e) :=
    fun s e h hok => h.step hok.1 hok.2
  have hin : Runs.Along step Inside s es :=
    Runs.Along.imp_inv Kept (fun s e h hok hlen => (hkeep s e h hok).inside hlen) hkeep (ha.and hf) hs
  obtain ⟨hsim, hdma⟩ := hstep c s ⟨rfl, rfl, rfl⟩ hin
  have hend := started_in_order (Runs.Along.inv Kept hkeep (ha.and hf) hs).queue
  rw [hdma, queued_eq, hsim.txQ] at hend
  exact hend

/-- The answers of a chip that is through with a frame when it is asked the ninth time. -/
def oneSent : ℕ → UInt8 := fun n => if n = 8 then msrTxCondId else if n = 10 then txStatEom else 0

theorem chip_sends_queued_two :
    sends 0xd0000 ⟨fun _ _ => 0, fun _ => 0⟩
      ((firDevice.ready.ops [.hardXmit [1, 2, 3], .hardXmit [4], .interrupt fun _ => idleTurn]).run
        mcrBankMask 3 oneSent).trace = [[1, 2, 3], [4]] :=
  chip_sends_queued (b := 3) (by decide) firDevice rfl ⟨fun _ _ => 0, fun _ => 0⟩
    [.hardXmit [1, 2, 3], .hardXmit [4], .interrupt fun _ => idleTurn] (by simp [Op.keepsSpeed])
    oneSent (by decide) (by decide)

end Ircard
