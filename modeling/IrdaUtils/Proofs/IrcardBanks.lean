import IrdaUtils.Spec.IrcardPorts

/-! The banks of the chip under the driver. Each function is followed once, from the bank that it
is entered in to the list of its accesses; the rest is read off these lists. A handler that has
looked at the ring pointer leaves bank 1 selected, where the registers of bank 0 that the driver
goes on with are missed. -/

namespace Ircard
open Banked

/-! ### Switching -/

variable {b : UInt8} {β : Type} {R : β → UInt8 → List Access → Prop}

def switched (m bank : UInt8) : List Access :=
  [.readMaster m, .writeMaster ((m &&& ~~~mcrBankMask) ||| bank)]

theorem setMcr_then {itr bank : UInt8} (hi : itr &&& mcrBankMask = 0) (hk : IsBank mcrBankMask bank)
    {f : Unit → Prog β}
    (hf : Meets mcrBankMask bank (f ()) fun y b' u => R y b' (.writeMaster (itr ||| bank) :: u)) :
    Meets mcrBankMask b (setMcr itr bank >>= f) R := by
  refine .outMaster ?_
  have h : (itr ||| bank) &&& mcrBankMask = bank := by
    rw [Masks.mask_or, hi, hk, UInt8.zero_or]
  rw [h]
  exact hf

theorem switchBank_then (hb : IsBank mcrBankMask b) {bank : UInt8} (hk : IsBank mcrBankMask bank)
    {f : UInt8 → Prog β}
    (hf : ∀ m, Meets mcrBankMask bank (f b) fun y b' u => R y b' (switched m bank ++ u)) :
    Meets mcrBankMask b (switchBank bank >>= f) R := by
  have hswitch : Meets mcrBankMask b (switchBank bank) fun old b' t =>
      old = b ∧ b' = bank ∧ ∃ m, t = switched m bank := by
    refine .inMaster fun v => setMcr_then (Masks.clear_mask _ _) hk (.pure ?_)
    exact ⟨select_bank hb v, rfl, _, rfl⟩
  refine .bind hswitch ?_
  rintro old b' t ⟨rfl, rfl, m, rfl⟩
  exact hf m

/-! ### The functions -/

def dmaTrace (self : Idev) (m1 m2 m3 m4 m5 : UInt8) : List Access :=
  let frame := self.txQ.queue self.txQ.ptr
  let addr := frame.start - self.membase
  switched m1 0 ++ [.write 0 misc 0, .writeMaster 0xc0, .write 0 txCtrl2 0x41] ++ switched m2 1 ++
    [.write 1 txByteCountLow (.ofNat (frame.len &&& 0xff)),
      .write 1 txByteCountHigh (.ofNat ((frame.len >>> 8) &&& 0x1f))] ++ switched m3 3 ++
    [.write 3 shMemPage 0, .write 3 txDmaAddrLow (.ofNat (addr &&& 0xff)),
      .write 3 txDmaAddrHigh (.ofNat (pageDisable ||| ((addr >>> 8) &&& 0x3f)))] ++
    switched m4 0 ++ [.write 0 misc 0xc0] ++ switched m5 0 ++ [.write 0 txCtrl1 0xa0]

theorem dmaWrite_meets (hb : IsBank mcrBankMask b) (self : Idev) :
    Meets mcrBankMask b self.dmaWrite fun self' b' t =>
      self' = { self with direction := .xmit } ∧ b' = 0 ∧
        ∃ m1 m2 m3 m4 m5, t = dmaTrace self m1 m2 m3 m4 m5 := by
  refine switchBank_then hb (by decide) fun m1 => .outReg (setMcr_then (by decide) (by decide) ?_)
  refine .outReg (switchBank_then (by decide) (by decide) fun m2 => .outReg (.outReg ?_))
  refine switchBank_then (by decide) (by decide) fun m3 => .outReg (.outReg (.outReg ?_))
  refine switchBank_then (by decide) (by decide) fun m4 => .outReg ?_
  refine switchBank_then (by decide) (by decide) fun m5 => .outReg (.pure ?_)
  exact ⟨rfl, rfl, m1, m2, m3, m4, m5, rfl⟩

/-- The queue as `ircard_receive` leaves it. -/
def Idev.ready (self : Idev) : Idev :=
  { self with
    txQ := { self.txQ with ptr := 0, len := 0, free := 0, tail := shmemTxStart + self.membase }
    direction := .recv }

def receiveTrace (b m1 m2 : UInt8) : List Access :=
  switched m1 0 ++ [.writeMaster (0x80 ||| b), .write b reset 0x30, .write b reset 0x40,
    .writeMaster (0xa0 ||| b)] ++ switched m2 0 ++ [.write 0 rxCtrl 0x41, .write 0 misc 0xc0]

theorem receive_meets (hb : IsBank mcrBankMask b) (self : Idev) :
    Meets mcrBankMask b self.receive fun self' b' t =>
      self' = self.ready ∧ b' = 0 ∧ ∃ m1 m2, t = receiveTrace b m1 m2 := by
  refine switchBank_then hb (by decide) fun m1 => setMcr_then (by decide) hb (.outReg (.outReg ?_))
  refine setMcr_then (by decide) hb (switchBank_then hb (by decide) fun m2 => .outReg (.outReg ?_))
  exact .pure ⟨rfl, rfl, m1, m2, rfl⟩

theorem spin_meets (n : ℕ) (stat : UInt8) :
    Meets mcrBankMask b (spin n stat) fun _ b' t =>
      b' = b ∧ ∃ vs : List UInt8, vs.length ≤ n ∧ t = vs.map (.read b txStat ·) := by
  induction n generalizing stat with
  | zero => exact .pure ⟨rfl, [], le_rfl, rfl⟩
  | succ n ih =>
    unfold spin
    by_cases h : stat &&& txStatEom ≠ 0
    · rw [if_pos h]
      exact .pure ⟨rfl, [], Nat.zero_le _, rfl⟩
    · rw [if_neg h]
      refine .inReg fun v => (ih v).mono ?_
      rintro _ b' t ⟨rfl, vs, hvs, rfl⟩
      exact ⟨rfl, v :: vs, Nat.succ_le_succ hvs, rfl⟩

/-- Finished with the frame. -/
def Idev.finish (self : Idev) (stats : Stats) (turn : Turn) : Idev :=
  { self with
    stats := stats
    tbusy := false
    mediaBusy := false
    txQ := { self.txQ with ptr := self.txQ.ptr + 1, len := self.txQ.len - 1 }
    log := self.log ++ [.complete turn.txqueueEmpty] }

/-- What comes behind a finished frame: the next one, the reception, or nothing. -/
inductive Sequel (b : UInt8) (self : Idev) (txqueueEmpty : Bool) : Idev → UInt8 → List Access → Prop
  | next (m1 m2 m3 m4 m5 : UInt8) (h : self.txQ.len ≠ 0) :
    Sequel b self txqueueEmpty { self with direction := .xmit } 0 (dmaTrace self m1 m2 m3 m4 m5)
  | receive (m1 m2 : UInt8) (h : self.txQ.len = 0) (he : txqueueEmpty = true) :
    Sequel b self txqueueEmpty self.ready 0 (.write b txCtrl1 0 :: receiveTrace b m1 m2)
  | wait (h : self.txQ.len = 0) (he : txqueueEmpty = false) : Sequel b self txqueueEmpty self b []

def completeTrace (b m v : UInt8) (vs : List UInt8) : List Access :=
  switched m 0 ++ (v :: vs).map (.read 0 txStat ·) ++
    [.writeMaster (0x80 ||| b), .write b misc 0, .write b reset 0x50]

theorem xmitComplete_meets (hb : IsBank mcrBankMask b) (self : Idev) (turn : Turn) :
    Meets mcrBankMask b (self.xmitComplete turn) fun self' b' t =>
      ∃ stats m v vs u, vs.length ≤ 1001 ∧ t = completeTrace b m v vs ++ u ∧
        Sequel b (self.finish stats turn) turn.txqueueEmpty self' b' u := by
  refine switchBank_then hb (by decide) fun m => .inReg fun v => ?_
  have hstats : Meets mcrBankMask 0
      (if v &&& txStatFifoUndr ≠ 0 then
        pure { self.stats with
          txErrors := self.stats.txErrors + 1, txFifoErrors := self.stats.txFifoErrors + 1 }
      else do
        let _ ← spin 1001 v
        pure { self.stats with
          txPackets := self.stats.txPackets + 1, txBytes := self.stats.txBytes + self.txBuffLen })
      fun _ b' t => b' = 0 ∧ ∃ vs : List UInt8, vs.length ≤ 1001 ∧ t = vs.map (.read 0 txStat ·) := by
    split
    · exact .pure ⟨rfl, [], Nat.zero_le _, rfl⟩
    · refine .bind (spin_meets 1001 v) ?_
      rintro _ b' t ⟨rfl, vs, hvs, rfl⟩
      exact .pure ⟨rfl, vs, hvs, List.append_nil _⟩
  refine .bind hstats ?_
  rintro stats b' t ⟨rfl, vs, hvs, rfl⟩
  refine setMcr_then (by decide) hb (.outReg (.outReg ?_))
  have htail : Meets mcrBankMask b
      (if (self.finish stats turn).txQ.len ≠ 0 then (self.finish stats turn).dmaWrite
      else if turn.txqueueEmpty then do
        outReg txCtrl1 0
        (self.finish stats turn).receive
      else pure (self.finish stats turn))
      (Sequel b (self.finish stats turn) turn.txqueueEmpty) := by
    split
    · rename_i hlen
      refine (dmaWrite_meets hb _).mono ?_
      rintro _ _ _ ⟨rfl, rfl, m1, m2, m3, m4, m5, rfl⟩
      exact .next m1 m2 m3 m4 m5 hlen
    · rename_i hlen
      split
      · rename_i he
        refine .outReg ((receive_meets hb _).mono ?_)
        rintro _ _ _ ⟨rfl, rfl, m1, m2, rfl⟩
        exact .receive m1 m2 (not_not.1 hlen) he
      · rename_i he
        exact .pure (.wait (not_not.1 hlen) (Bool.not_eq_true _ ▸ he))
  refine htail.mono ?_
  intro self' b' u h
  refine ⟨stats, m, v, vs, u, hvs, ?_, h⟩
  simp only [completeTrace, List.map_cons, List.cons_append, List.append_assoc, List.nil_append]
  rfl

/-- The ring pointer from its two registers. -/
def ringPtr (low high : UInt8) : ℕ := low.toNat ||| ((high.toNat &&& 0x3f) <<< 8)

/-- The length in front of the ring pointer. -/
def ringLen (stat lenLow : UInt8) : ℕ := ((stat.toNat &&& 0x1f) <<< 8) ||| lenLow.toNat

/-- What is found at the ring pointer: no frame, a frame with an error, after an overrun one that
is too old, one that is too short, one without a buffer, or a frame. -/
inductive Found (self : Idev) (ptr : ℕ) (skb : Bool) : Idev → UInt8 → List Access → Prop
  | none (h : ptr = 0) : Found self ptr skb self 1 []
  | bad (stat lenLow : UInt8) (h : stat &&& 0x80 ≠ 0 ∨ stat &&& 0x40 ≠ 0) :
    Found self ptr skb self.rxError 1
      [.peek (self.membase + ptr) stat, .peek (self.membase + ptr - 1) lenLow]
  | overrun (stat lenLow m : UInt8) (stats : Stats) (h : stat &&& 0x20 ≠ 0) :
    Found self ptr skb { self with stats := stats } 0
      ([.peek (self.membase + ptr) stat, .peek (self.membase + ptr - 1) lenLow] ++ switched m 0 ++
        [.write 0 reset 0x30])
  | short (stat lenLow : UInt8) (h : ringLen stat lenLow ≤ 5) :
    Found self ptr skb self 1
      [.peek (self.membase + ptr) stat, .peek (self.membase + ptr - 1) lenLow]
  | dropped (stat lenLow : UInt8) (h : skb = false) :
    Found self ptr skb { self with data := ptr + 1 } 1
      [.peek (self.membase + ptr) stat, .peek (self.membase + ptr - 1) lenLow]
  | frame (stat lenLow : UInt8) (bs : List UInt8) (stats : Stats) (h : 5 < ringLen stat lenLow)
    (hbs : bs.length = min (ringLen stat lenLow - 4) 2050) :
    Found self ptr skb
      { self with data := ptr + 1, stats := stats, received := self.received ++ [bs] } 1
      ([.peek (self.membase + ptr) stat, .peek (self.membase + ptr - 1) lenLow] ++
        peeks (self.membase + ptr - ringLen stat lenLow - 1) bs)

def ringTrace (m low high : UInt8) : List Access :=
  switched m 1 ++ [.read 1 rxRingFrmPtrLow low, .read 1 rxRingFrmPtrHigh high]

theorem receiveComplete_meets (hb : IsBank mcrBankMask b) (self : Idev) (turn : Turn) :
    Meets mcrBankMask b (self.receiveComplete turn) fun r b' t =>
      ∃ m low high u, t = ringTrace m low high ++ u ∧
        Found self (ringPtr low high) turn.skb r.2 b' u := by
  refine switchBank_then hb (by decide) fun m => .inReg fun low => .inReg fun high => ?_
  set ptr := ringPtr low high with hptr
  suffices h : Meets mcrBankMask 1 (if ptr = 0 then pure (false, self) else _)
      fun r b' u => Found self ptr turn.skb r.2 b' u by
    refine h.mono fun r b' u hu => ⟨m, low, high, u, ?_, hu⟩
    simp only [ringTrace, List.append_assoc, List.cons_append, List.nil_append]
  split
  · rename_i h0
    exact .pure (.none h0)
  refine .peek fun stat => .peek fun lenLow => ?_
  change Meets mcrBankMask 1 (if _ then _ else if _ then _ else if _ then _ else
    if ringLen stat lenLow ≤ 5 then _ else _) _
  split
  · rename_i h
    exact .pure (.bad stat lenLow (.inl h))
  split
  · rename_i h
    exact .pure (.bad stat lenLow (.inr h))
  split
  · rename_i h
    exact switchBank_then (by decide) (by decide) fun m' => .outReg (.pure (.overrun stat lenLow m' _ h))
  split
  · rename_i h
    exact .pure (.short stat lenLow h)
  rename_i h
  cases hskb : turn.skb with
  | false => exact .pure (.dropped stat lenLow rfl)
  | true =>
    refine .bind (copyFrom_meets _ _) ?_
    rintro bs b' t ⟨rfl, hlen, rfl⟩
    refine .pure ?_
    rw [List.append_nil]
    exact .frame stat lenLow bs _ (not_le.1 h) hlen

/-! ### Accesses that miss -/

theorem misses_switched (m bank : UInt8) : misses (switched m bank) = [] := rfl

theorem misses_dmaTrace (self : Idev) (m1 m2 m3 m4 m5 : UInt8) :
    misses (dmaTrace self m1 m2 m3 m4 m5) = [] := by
  simp only [dmaTrace, misses_append, misses_switched]
  rfl

theorem misses_receiveTrace (b m1 m2 : UInt8) :
    misses (receiveTrace b m1 m2) =
      if b = 0 then [] else [.write b reset resetRxSpecBits, .write b reset resetRxRfp] := by
  simp only [receiveTrace, misses_append, misses_switched]
  split_ifs with h
  · subst h
    rfl
  · simp [misses, Access.missed, reset, rxCtrl, misc, h, resetRxSpecBits, resetRxRfp]

theorem misses_txStat (vs : List UInt8) : misses (vs.map (.read 0 txStat ·)) = [] := by
  rw [misses, List.filter_map, List.map_eq_nil_iff, List.filter_eq_nil_iff]
  intro v _
  exact Bool.false_ne_true

theorem misses_completeTrace (b m v : UInt8) (vs : List UInt8) :
    misses (completeTrace b m v vs) =
      if b = 0 then [] else [.write b misc 0, .write b reset resetTxSpecBits] := by
  simp only [completeTrace, misses_append, misses_switched, misses_txStat, List.nil_append]
  split_ifs with h
  · subst h
    rfl
  · simp [misses, Access.missed, reset, misc, h, resetTxSpecBits]

/-- The accesses that the driver makes to a wrong register: in bank 1, the interrupt status and
what finishes a frame, and in bank 1 or 2 the resets of the reception. -/
def Stray : Access → Prop
  | .read bank reg _ => bank = 1 ∧ reg = msr
  | .write bank reg value =>
    bank = 1 ∧ (reg = misc ∧ value = 0 ∨ reg = txCtrl1 ∧ value = 0 ∨
        reg = reset ∧ value = resetTxSpecBits) ∨
      (bank = 1 ∨ bank = 2) ∧ reg = reset ∧ (value = resetRxSpecBits ∨ value = resetRxRfp)
  | _ => False

theorem stray_receive {b : UInt8} (hb : b = 0 ∨ b = 1 ∨ b = 2) (m1 m2 : UInt8) :
    ∀ a ∈ misses (receiveTrace b m1 m2), Stray a := by
  rw [misses_receiveTrace]
  rcases hb with rfl | rfl | rfl <;> simp [Stray]

theorem stray_complete {b : UInt8} (hb : b = 0 ∨ b = 1) (m v : UInt8) (vs : List UInt8) :
    ∀ a ∈ misses (completeTrace b m v vs), Stray a := by
  rw [misses_completeTrace]
  rcases hb with rfl | rfl <;> simp [Stray]

/-! ### The handlers -/

/-- A read of the interrupt status. -/
def Access.isMsr : Access → Bool
  | .read _ reg _ => reg = msr
  | _ => false

/-- One that comes from bank 1, where the register is the frame address register. -/
def Access.isFrar : Access → Bool
  | .read bank reg _ => bank = 1 ∧ reg = msr
  | _ => false

theorem countP_peeks (a : ℤ) (bs : List UInt8) : (peeks a bs).countP Access.isMsr = 0 := by
  induction bs generalizing a with
  | nil => rfl
  | cons b bs ih => exact ih (a + 1)

theorem countP_txStat (vs : List UInt8) :
    (vs.map (Access.read 0 txStat ·)).countP Access.isMsr = 0 := by
  rw [List.countP_map, List.countP_eq_zero]
  intro v _
  exact Bool.false_ne_true

/-- What a handler of the interrupt does, from bank `b` to bank `b'`. -/
structure Handled (b : UInt8) (x y : Idev) (b' : UInt8) (t : List Access) : Prop where
  bank : b' = 0 ∨ b' = 1
  length : t.length ≤ 2056
  silent : t.countP Access.isMsr = 0
  stray : ∀ a ∈ misses t, Stray a
  /-- From bank 0, a handler that goes astray has looked at the ring pointer. -/
  clean : b = 0 → (∃ v, .read 1 rxRingFrmPtrLow v ∈ t) ∨ misses t = [] ∧ b' = 0
  /-- At most one frame is received, and then bank 1 is left behind the copy. -/
  received : y.received = x.received ∨
    ∃ bs a, y.received = x.received ++ [bs] ∧ 2 ≤ bs.length ∧ bs.length ≤ 2050 ∧ b' = 1 ∧
      peeks a bs <:+ t

theorem xmitComplete_handled (hb : b = 0 ∨ b = 1) (self : Idev) (turn : Turn) :
    Meets mcrBankMask b (self.xmitComplete turn) (Handled b self) := by
  have hbank : IsBank mcrBankMask b := by
    rcases hb with rfl | rfl <;> decide
  refine (xmitComplete_meets hbank self turn).mono ?_
  rintro y b' t ⟨stats, m, v, vs, u, hvs, rfl, hu⟩
  have hmsr : (completeTrace b m v vs).countP Access.isMsr = 0 := by
    rw [completeTrace, List.countP_append, List.countP_append, countP_txStat]
    rfl
  have hlen : (completeTrace b m v vs).length = vs.length + 6 := by
    simp only [completeTrace, switched, List.length_append, List.length_map, List.length_cons,
      List.length_nil]
    omega
  have hclean : b = 0 → misses (completeTrace b m v vs) = [] := fun h => by
    rw [misses_completeTrace, if_pos h]
  cases hu with
  | next m1 m2 m3 m4 m5 h =>
    refine ⟨.inl rfl, ?_, ?_, ?_, ?_, .inl rfl⟩
    · rw [List.length_append, hlen]
      simp only [dmaTrace, switched, List.length_append, List.length_cons, List.length_nil]
      omega
    · rw [List.countP_append, hmsr]
      rfl
    · rw [misses_append, misses_dmaTrace, List.append_nil]
      exact stray_complete hb m v vs
    · intro h0
      exact .inr ⟨by rw [misses_append, misses_dmaTrace, hclean h0]; rfl, rfl⟩
  | receive m1 m2 h he =>
    refine ⟨.inl rfl, ?_, ?_, ?_, ?_, .inl rfl⟩
    · rw [List.length_append, hlen]
      simp only [receiveTrace, switched, List.length_append, List.length_cons, List.length_nil]
      omega
    · rw [List.countP_append, hmsr]
      rfl
    · intro a ha
      have hcons : misses (.write b txCtrl1 0 :: receiveTrace b m1 m2) =
          misses [.write b txCtrl1 0] ++ misses (receiveTrace b m1 m2) :=
        misses_append [.write b txCtrl1 0] _
      rw [misses_append, hcons, List.mem_append, List.mem_append] at ha
      rcases ha with ha | ha | ha
      · exact stray_complete hb m v vs a ha
      · rcases hb with rfl | rfl
        · cases ha
        · rw [show a = .write 1 txCtrl1 0 from List.mem_singleton.1 ha]
          exact .inl ⟨rfl, .inr (.inl ⟨rfl, rfl⟩)⟩
      · exact stray_receive (hb.imp_right .inl) m1 m2 a ha
    · rintro rfl
      refine .inr ⟨?_, rfl⟩
      rw [misses_append, hclean rfl]
      exact misses_receiveTrace 0 m1 m2
  | wait h he =>
    rw [List.append_nil]
    refine ⟨hb, by omega, hmsr, stray_complete hb m v vs, ?_, .inl rfl⟩
    intro h0
    exact .inr ⟨hclean h0, h0⟩

theorem receiveComplete_handled (hb : b = 0 ∨ b = 1) (self : Idev) (turn : Turn) :
    Meets mcrBankMask b (self.receiveComplete turn) fun r => Handled b self r.2 := by
  have hbank : IsBank mcrBankMask b := by
    rcases hb with rfl | rfl <;> decide
  refine (receiveComplete_meets hbank self turn).mono ?_
  rintro ⟨_, y⟩ b' t ⟨m, low, high, u, rfl, hu⟩
  have hring : ∃ v, .read 1 rxRingFrmPtrLow v ∈ ringTrace m low high ++ u :=
    ⟨low, by simp [ringTrace]⟩
  have hmiss : misses (ringTrace m low high ++ u) = misses u := by
    rw [misses_append, ringTrace, misses_append, misses_switched]
    rfl
  have hmsr : (ringTrace m low high ++ u).countP Access.isMsr = u.countP Access.isMsr := by
    rw [List.countP_append, show (ringTrace m low high).countP Access.isMsr = 0 by rfl, Nat.zero_add]
  have hlen : (ringTrace m low high ++ u).length = u.length + 4 := by
    rw [List.length_append, Nat.add_comm]
    rfl
  suffices h : (b' = 0 ∨ b' = 1) ∧ u.length ≤ 2052 ∧ u.countP Access.isMsr = 0 ∧ misses u = [] ∧
      (y.received = self.received ∨
        ∃ bs a, y.received = self.received ++ [bs] ∧ 2 ≤ bs.length ∧ bs.length ≤ 2050 ∧ b' = 1 ∧
          peeks a bs <:+ u) by
    obtain ⟨h1, h2, h3, h4, h5⟩ := h
    refine ⟨h1, by omega, hmsr.trans h3, ?_, fun _ => .inl hring, h5.imp_right ?_⟩
    · rw [hmiss, h4]
      exact fun a ha => absurd ha List.not_mem_nil
    · rintro ⟨bs, a, e, h2, h2050, h1, hcopy⟩
      exact ⟨bs, a, e, h2, h2050, h1, hcopy.trans (List.suffix_append _ u)⟩
  cases hu with
  | none h => exact ⟨.inr rfl, by simp, rfl, rfl, .inl rfl⟩
  | bad stat lenLow h => exact ⟨.inr rfl, by simp, rfl, rfl, .inl rfl⟩
  | overrun stat lenLow m' stats h => exact ⟨.inl rfl, by simp [switched], rfl, rfl, .inl rfl⟩
  | short stat lenLow h => exact ⟨.inr rfl, by simp, rfl, rfl, .inl rfl⟩
  | dropped stat lenLow h => exact ⟨.inr rfl, by simp, rfl, rfl, .inl rfl⟩
  | frame stat lenLow bs stats h hbs =>
    refine ⟨.inr rfl, ?_, ?_, ?_,
      .inr ⟨bs, _, rfl, by omega, by omega, rfl, List.suffix_append _ _⟩⟩
    · rw [List.length_append, peeks_length]
      simp only [List.length_cons, List.length_nil]
      omega
    · rw [List.countP_append, countP_peeks]
      rfl
    · rw [misses_append, misses_peeks]
      rfl

theorem handle_handled (hb : b = 0 ∨ b = 1) (self : Idev) (turn : Turn) (id : UInt8) :
    Meets mcrBankMask b (self.handle turn id) (Handled b self) := by
  unfold Idev.handle
  split
  · exact xmitComplete_handled hb self turn
  split
  · refine .bind (receiveComplete_handled hb self turn) fun r b' t h => .pure ?_
    rw [List.append_nil]
    exact h
  · refine .pure ⟨hb, Nat.zero_le _, rfl, fun a ha => absurd ha List.not_mem_nil, ?_, .inl rfl⟩
    exact fun h0 => .inr ⟨rfl, h0⟩

/-! ### The interrupt -/

/-- What the loop of the interrupt does with `n` turns left. -/
structure Turned (n : ℕ) (b : UInt8) (x y : Idev) (b' : UInt8) (t : List Access) : Prop where
  bank : b' = 0 ∨ b' = 1
  length : t.length ≤ 2057 * n
  stray : ∀ a ∈ misses t, Stray a
  clean : b = 0 → (∃ v, .read 1 rxRingFrmPtrLow v ∈ t) ∨ misses t = [] ∧ b' = 0
  received : ∃ fs, y.received = x.received ++ fs ∧ fs.length ≤ n ∧
    ∀ bs ∈ fs, 2 ≤ bs.length ∧ bs.length ≤ 2050
  /-- Behind a frame, the status comes from the wrong register, if it is read again. -/
  astray : ∃ fs last, y.received = x.received ++ fs ++ last ∧ fs.length ≤ t.countP Access.isFrar ∧
    (last = [] ∨ ∃ bs a, last = [bs] ∧ t.countP Access.isMsr + 1 = n ∧ peeks a bs <:+ t)

/-- The last turn. -/
theorem Handled.last {x y : Idev} {b' : UInt8} {t : List Access} (h : Handled b x y b' t) :
    Turned 1 b x y b' t := by
  refine ⟨h.bank, h.length.trans (by decide), h.stray, h.clean, ?_, ?_⟩ <;>
    rcases h.received with e | ⟨bs, a, e, h2, h2050, -, hcopy⟩
  · exact ⟨[], by rw [e, List.append_nil], Nat.zero_le _, fun _ hbs => absurd hbs List.not_mem_nil⟩
  · exact ⟨[bs], e, le_rfl, fun _ hbs => List.mem_singleton.1 hbs ▸ ⟨h2, h2050⟩⟩
  · exact ⟨[], [], by rw [e, List.append_nil, List.append_nil], Nat.zero_le _, .inl rfl⟩
  · refine ⟨[], [bs], by rw [e, List.append_nil], Nat.zero_le _, .inr ⟨bs, a, rfl, ?_, hcopy⟩⟩
    rw [h.silent]

/-- A turn in front of `n` others. -/
theorem Handled.before {n : ℕ} {x y z : Idev} {b' b'' v : UInt8} {t u : List Access}
    (h : Handled b x y b' t) (hn : Turned n b' y z b'' u) :
    Turned (n + 1) b x z b'' (t ++ .read b' msr v :: u) := by
  have hmsr : (t ++ .read b' msr v :: u).countP Access.isMsr = u.countP Access.isMsr + 1 := by
    rw [List.countP_append, h.silent, List.countP_cons_of_pos rfl, Nat.zero_add]
  have hmiss : misses (t ++ .read b' msr v :: u) = misses t ++ misses [.read b' msr v] ++ misses u := by
    rw [List.append_assoc, ← misses_append, ← misses_append]
    rfl
  refine ⟨hn.bank, ?_, ?_, ?_, ?_, ?_⟩
  · have := h.length
    have := hn.length
    rw [List.length_append, List.length_cons]
    omega
  · intro a ha
    rw [hmiss, List.mem_append, List.mem_append] at ha
    rcases ha with (ha | ha) | ha
    · exact h.stray a ha
    · rcases h.bank with rfl | rfl
      · cases ha
      · rw [show a = .read 1 msr v from List.mem_singleton.1 ha]
        exact ⟨rfl, rfl⟩
    · exact hn.stray a ha
  · intro h0
    rcases h.clean h0 with ⟨w, hw⟩ | ⟨hm, rfl⟩
    · exact .inl ⟨w, List.mem_append_left _ hw⟩
    · rcases hn.clean rfl with ⟨w, hw⟩ | ⟨hm', hb''⟩
      · exact .inl ⟨w, List.mem_append_right _ (List.mem_cons_of_mem _ hw)⟩
      · exact .inr ⟨by rw [hmiss, hm, hm']; rfl, hb''⟩
  · obtain ⟨fs, hfs, hlen, hall⟩ := hn.received
    rcases h.received with e | ⟨bs, -, e, h2, h2050, -⟩
    · exact ⟨fs, by rw [hfs, e], by omega, hall⟩
    · refine ⟨bs :: fs, by rw [hfs, e, List.append_assoc]; rfl, by simpa using hlen, ?_⟩
      intro cs hcs
      rcases List.mem_cons.1 hcs with rfl | hcs
      · exact ⟨h2, h2050⟩
      · exact hall cs hcs
  · obtain ⟨fs, last, hfs, hlen, hlast⟩ := hn.astray
    have hsuffix : u <:+ t ++ .read b' msr v :: u :=
      (List.suffix_cons _ u).trans (List.suffix_append t _)
    have hlast' : last = [] ∨ ∃ bs a, last = [bs] ∧
        (t ++ .read b' msr v :: u).countP Access.isMsr + 1 = n + 1 ∧
          peeks a bs <:+ t ++ .read b' msr v :: u := by
      refine hlast.imp_right ?_
      rintro ⟨bs, a, e, hc, hcopy⟩
      exact ⟨bs, a, e, by rw [hmsr, hc], hcopy.trans hsuffix⟩
    rcases h.received with e | ⟨bs, -, e, -, -, rfl, -⟩
    · exact ⟨fs, last, by rw [hfs, e], hlen.trans (hsuffix.sublist.countP_le), hlast'⟩
    · refine ⟨bs :: fs, last, by rw [hfs, e]; simp, ?_, hlast'⟩
      rw [List.countP_append, List.countP_cons_of_pos rfl, List.length_cons]
      omega

theorem turns_meets (turn : ℕ → Turn) (n : ℕ) : ∀ {b : UInt8} (self : Idev) (id : UInt8),
    b = 0 ∨ b = 1 → Meets mcrBankMask b (Idev.turns turn n self id) (Turned n b self) := by
  have hstay : ∀ {b : UInt8} (n : ℕ) (self : Idev), b = 0 ∨ b = 1 → Turned n b self self b [] := by
    intro b n self hb
    refine ⟨hb, Nat.zero_le _, fun a ha => absurd ha List.not_mem_nil, fun h0 => .inr ⟨rfl, h0⟩, ?_, ?_⟩
    · exact ⟨[], (List.append_nil _).symm, Nat.zero_le _, fun _ h => absurd h List.not_mem_nil⟩
    · exact ⟨[], [], by rw [List.append_nil, List.append_nil], Nat.zero_le _, .inl rfl⟩
  induction n with
  | zero =>
    intro b self id hb
    exact .pure (hstay 0 self hb)
  | succ n ih =>
    intro b self id hb
    unfold Idev.turns
    split
    · exact .pure (hstay (n + 1) self hb)
    refine .bind (handle_handled hb self (turn n) id) ?_
    intro y b' t h
    split
    · rename_i hn
      subst hn
      refine .pure ?_
      rw [List.append_nil]
      exact h.last
    · exact .inReg fun v => (ih y (v &&& msrIdMask) h.bank).mono fun z b'' u hz => h.before hz

/-- What an interrupt does: the bank is the one from before, and between the first two accesses
and the last two the chip is asked for its status and served. -/
theorem onInterrupt_meets (hb : IsBank mcrBankMask b) (self : Idev) (turn : ℕ → Turn) :
    Meets mcrBankMask b (self.onInterrupt turn) fun y b' t => b' = b ∧
      (y = self ∧ t = [] ∨ ∃ z b'' m v m' u, y = { z with interrupt := false } ∧
        t = switched m 0 ++ .read 0 msr v :: u ++ switched m' b ∧
        Turned maxTurns 0 { self with interrupt := true } z b'' u) := by
  unfold Idev.onInterrupt
  split
  · exact .pure ⟨rfl, .inl ⟨rfl, rfl⟩⟩
  refine switchBank_then hb (by decide) fun m => .inReg fun v => ?_
  refine .bind (turns_meets turn maxTurns { self with interrupt := true } _ (.inl rfl)) ?_
  intro z b'' u hz
  have hb'' : IsBank mcrBankMask b'' := by
    rcases hz.bank with rfl | rfl <;> decide
  refine switchBank_then hb'' hb fun m' => .pure ⟨rfl, .inr ⟨z, b'', m, v, m', u, rfl, ?_, hz⟩⟩
  simp

/-- Whatever the chip answers, an interrupt ends, gives back the bank that it found, and receives
at most a frame in each of its turns, of a length that the upper layer takes. -/
theorem interrupt_returns (hb : IsBank mcrBankMask b) (self : Idev) (turn : ℕ → Turn)
    (as : ℕ → UInt8) :
    let o := (self.onInterrupt turn).run mcrBankMask b as
    o.bank = b ∧ o.trace.length ≤ 24689 ∧
      ∃ fs, o.val.received = self.received ++ fs ∧ fs.length ≤ maxTurns ∧
        ∀ bs ∈ fs, 2 ≤ bs.length ∧ bs.length ≤ 2050 := by
  obtain ⟨hbank, ⟨hy, ht⟩ | ⟨z, b'', m, v, m', u, hy, ht, hz⟩⟩ := onInterrupt_meets hb self turn as
  · refine ⟨hbank, by rw [ht]; exact Nat.zero_le _, [], ?_, Nat.zero_le _, ?_⟩
    · rw [hy, List.append_nil]
    · exact fun _ h => absurd h List.not_mem_nil
  · obtain ⟨fs, hfs, hlen, hall⟩ := hz.received
    refine ⟨hbank, ?_, fs, by rw [hy]; exact hfs, hlen, hall⟩
    have := hz.length
    rw [ht]
    simp only [switched, maxTurns, List.length_append, List.length_cons, List.length_nil] at *
    omega

/-- A device at 4 Mbit/s with its window at 0xd0000. -/
def firDevice : Idev where
  txQ := ⟨fun _ => ⟨0, 0⟩, 0, 0, 0, shmemTxStart + 0xd0000⟩
  membase := 0xd0000
  data := 0
  baudrate := 4000000
  fir := true
  direction := .recv
  tbusy := false
  interrupt := false
  mediaBusy := false
  txBuffLen := 0
  stats := ⟨0, 0, 0, 0, 0, 0, 0, 0⟩
  received := []
  log := []

/-- The kernel has a buffer, and nothing to send. -/
def idleTurn : Turn := ⟨true, true⟩

theorem interrupt_returns_stuck :
    ((firDevice.onInterrupt fun _ => idleTurn).run mcrBankMask 2 fun _ => 0xff).bank = 2 :=
  (interrupt_returns (b := 2) (by decide) firDevice (fun _ => idleTurn) fun _ => 0xff).1

/-- An interrupt that does not ask for the ring pointer meets the registers it means. For each
frame that it receives it reads the frame address register for the interrupt status, apart from a
frame of the last turn that it allows, behind whose copy it gives back the bank. -/
theorem interrupt_astray (hb : IsBank mcrBankMask b) (self : Idev) (turn : ℕ → Turn)
    (as : ℕ → UInt8) :
    let o := (self.onInterrupt turn).run mcrBankMask b as
    ((∀ v, .read 1 rxRingFrmPtrLow v ∉ o.trace) → misses o.trace = []) ∧
      ∃ fs last, o.val.received = self.received ++ fs ++ last ∧
        fs.length ≤ o.trace.countP Access.isFrar ∧
        (last = [] ∨ ∃ bs a m, last = [bs] ∧ o.trace.countP Access.isMsr = maxTurns ∧
          peeks a bs ++ switched m b <:+ o.trace) := by
  obtain ⟨-, ⟨hy, ht⟩ | ⟨z, b'', m, v, m', u, hy, ht, hz⟩⟩ := onInterrupt_meets hb self turn as
  · refine ⟨fun _ => by rw [ht]; rfl, [], [], ?_, Nat.zero_le _, .inl rfl⟩
    rw [hy, List.append_nil, List.append_nil]
  have hmem : ∀ a, a ∈ u → a ∈ ((self.onInterrupt turn).run mcrBankMask b as).trace := by
    intro a ha
    rw [ht]
    simp [ha]
  constructor
  · intro hno
    rcases hz.clean rfl with ⟨w, hw⟩ | ⟨hm, -⟩
    · exact absurd (hmem _ hw) (hno w)
    · rw [ht, misses_append, misses_append, misses_switched, misses_switched, List.append_nil]
      exact hm
  · obtain ⟨fs, last, hfs, hlen, hlast⟩ := hz.astray
    refine ⟨fs, last, by rw [hy]; exact hfs, ?_, hlast.imp_right ?_⟩
    · rw [ht, List.countP_append, List.countP_append, List.countP_cons]
      omega
    · rintro ⟨bs, a, e, hc, hcopy⟩
      refine ⟨bs, a, m', e, ?_, ?_⟩
      · rw [ht, List.countP_append, List.countP_append, List.countP_cons_of_pos rfl, hc]
        rfl
      · obtain ⟨w, hw⟩ := hcopy
        rw [ht, ← hw]
        exact ⟨switched m 0 ++ .read 0 msr v :: w, by simp⟩

/-- The answers that tell of a frame of six bytes with its checksum, at the ring pointer 7. -/
def sixBytes : ℕ → UInt8 := fun n => [0, 0x08, 0, 7, 0, 0, 6, 1, 2].getD n 0

theorem interrupt_astray_received :
    let o := (firDevice.onInterrupt fun _ => idleTurn).run mcrBankMask 0 sixBytes
    ∃ fs last, o.val.received = fs ++ last ∧ fs.length ≤ o.trace.countP Access.isFrar ∧
      (last = [] ∨ ∃ bs a m, last = [bs] ∧ o.trace.countP Access.isMsr = maxTurns ∧
        peeks a bs ++ switched m 0 <:+ o.trace) :=
  (interrupt_astray (b := 0) (by decide) firDevice (fun _ => idleTurn) sixBytes).2

/-! ### All operations -/

/-- The frame with its place in the queue. -/
def Idev.enqueued (self : Idev) (skb : List UInt8) : Idev :=
  { self with
    txQ := { queue := Function.update self.txQ.queue self.txQ.free ⟨self.txQ.tail, skb.length⟩
             ptr := self.txQ.ptr
             len := self.txQ.len + 1
             free := self.txQ.free + 1
             tail := self.txQ.tail + skb.length }
    log := self.log ++ [.xmit skb] }

inductive Xmitted (b : UInt8) (self : Idev) (skb : List UInt8) : Idev → UInt8 → List Access → Prop
  | busy (h : self.tbusy = true) : Xmitted b self skb self b []
  | first (m m1 m2 m3 m4 m5 : UInt8) (h : (self.enqueued skb).txQ.len = 1) :
    Xmitted b self skb { self.enqueued skb with direction := .xmit, tbusy := false } 0
      (switched m 0 ++ [.copy self.txQ.tail skb] ++ dmaTrace (self.enqueued skb) m1 m2 m3 m4 m5)
  | queued (m : UInt8) (h : (self.enqueued skb).txQ.len ≠ 1) :
    Xmitted b self skb { self.enqueued skb with tbusy := false } 0
      (switched m 0 ++ [.copy self.txQ.tail skb])

theorem hardXmit_meets (hb : IsBank mcrBankMask b) (self : Idev) (skb : List UInt8) :
    Meets mcrBankMask b (self.hardXmit skb) fun r => Xmitted b self skb r.2 := by
  unfold Idev.hardXmit
  split
  · rename_i h
    exact .pure (.busy h)
  refine switchBank_then hb (by decide) fun m => .copyTo ?_
  have hstart : Meets mcrBankMask 0
      (if (self.enqueued skb).txQ.len = 1 then (self.enqueued skb).dmaWrite
        else pure (self.enqueued skb)) fun y b' u =>
      Xmitted b self skb { y with tbusy := false } b'
        (switched m 0 ++ [.copy self.txQ.tail skb] ++ u) := by
    split
    · rename_i h
      refine (dmaWrite_meets (by decide) _).mono ?_
      rintro _ _ _ ⟨rfl, rfl, m1, m2, m3, m4, m5, rfl⟩
      exact .first m m1 m2 m3 m4 m5 h
    · rename_i h
      refine .pure ?_
      rw [List.append_nil]
      exact .queued m h
  refine .bind hstart fun y b' u h => .pure ?_
  rw [List.append_nil]
  simpa using h

/-- The accesses to the transceiver. -/
def transceiverTrace (self : Idev) (speed : ℕ) : List Access :=
  if 1152000 < self.baudrate ∧ speed < 4000000 then
    [.writeMaster 2, .write 2 irTransCtrl 0x10, .write 2 irTransCtrl 0]
  else if self.baudrate < 4000000 ∧ 1152000 < speed then
    [.writeMaster 2, .write 2 irTransCtrl 0x10, .write 2 irTransCtrl 0x12,
      .write 2 irTransCtrl 0x02, .write 2 irTransCtrl 0]
  else []

/-- The reception is prepared from bank 2. -/
theorem changeSpeed_meets (self : Idev) (speed : ℕ) :
    Meets mcrBankMask b (self.changeSpeed speed) fun y b' t =>
      ∃ u, t = transceiverTrace self speed ++ [.writeMaster 0, .write 0 reset 0x07, .writeMaster 2,
          .write 2 irConf (confOf speed)] ++ u ∧
        if 115200 < speed then b' = 0 ∧ (∃ m1 m2, u = receiveTrace 2 m1 m2) ∧
          y = ({ self with baudrate := speed, fir := true, tbusy := false } : Idev).ready
        else b' = 2 ∧ u = [] ∧ y = { self with baudrate := speed, fir := false, tbusy := false } := by
  have htrans : Meets mcrBankMask b
      (if 1152000 < self.baudrate ∧ speed < 4000000 then firToSir
        else if self.baudrate < 4000000 ∧ 1152000 < speed then sirToFir
        else pure ()) fun _ _ t => t = transceiverTrace self speed := by
    unfold transceiverTrace
    split
    · exact .outMaster (.outReg (fun _ => rfl))
    split
    · exact .outMaster (.outReg (.outReg (.outReg (fun _ => rfl))))
    · exact .pure rfl
  refine .bind htrans ?_
  rintro _ b' t rfl
  refine .outMaster (.outReg (.outMaster (.outReg ?_)))
  split
  · rename_i h
    refine (receive_meets (b := 2) (by decide) _).mono ?_
    rintro _ _ _ ⟨rfl, rfl, m1, m2, rfl⟩
    refine ⟨receiveTrace 2 m1 m2, ?_, rfl, ⟨m1, m2, rfl⟩, ?_⟩
    · simp only [List.append_assoc, List.cons_append, List.nil_append]
      rfl
    · simp [h]
  · rename_i h
    refine .pure ⟨[], ?_, rfl, rfl, ?_⟩
    · simp only [List.append_assoc, List.cons_append, List.nil_append]
      rfl
    · simp [h]

theorem misses_changeSpeed (self : Idev) (speed : ℕ) :
    Meets mcrBankMask b (self.changeSpeed speed) fun _ b' t => IsBank mcrBankMask b' ∧
      misses t =
        if 115200 < speed then [.write 2 reset resetRxSpecBits, .write 2 reset resetRxRfp] else [] := by
  refine (changeSpeed_meets self speed).mono ?_
  rintro y b' t ⟨u, rfl, h⟩
  have h0 : misses (transceiverTrace self speed) = [] := by
    unfold transceiverTrace
    split_ifs <;> rfl
  rw [misses_append, misses_append, h0]
  split_ifs at h ⊢
  · obtain ⟨rfl, ⟨m1, m2, rfl⟩, -⟩ := h
    exact ⟨by decide, by rw [misses_receiveTrace]; rfl⟩
  · obtain ⟨rfl, rfl, -⟩ := h
    exact ⟨by decide, rfl⟩

theorem op_stray (hb : IsBank mcrBankMask b) (self : Idev) (op : Op) :
    Meets mcrBankMask b (self.op op) fun _ b' t =>
      IsBank mcrBankMask b' ∧ ∀ a ∈ misses t, Stray a := by
  cases op with
  | changeSpeed speed =>
    refine (misses_changeSpeed self speed).mono ?_
    rintro _ b' t ⟨hb', ht⟩
    refine ⟨hb', ?_⟩
    rw [ht]
    split_ifs <;> simp [Stray]
  | hardXmit skb =>
    refine .bind (hardXmit_meets hb self skb) ?_
    rintro ⟨_, y⟩ b' t h
    refine .pure ?_
    rw [List.append_nil]
    suffices hclean : IsBank mcrBankMask b' ∧ misses t = [] by
      refine ⟨hclean.1, ?_⟩
      rw [hclean.2]
      exact fun a ha => absurd ha List.not_mem_nil
    cases h with
    | busy h => exact ⟨hb, rfl⟩
    | first m m1 m2 m3 m4 m5 h =>
      exact ⟨by decide, by rw [misses_append, misses_dmaTrace]; rfl⟩
    | queued m h => exact ⟨by decide, rfl⟩
  | interrupt turn =>
    refine (onInterrupt_meets hb self turn).mono ?_
    rintro y b' t ⟨rfl, ⟨-, rfl⟩ | ⟨z, b'', m, v, m', u, -, rfl, hz⟩⟩
    · exact ⟨hb, fun a ha => absurd ha List.not_mem_nil⟩
    · refine ⟨hb, ?_⟩
      rw [misses_append, misses_append, misses_switched, misses_switched, List.append_nil]
      exact hz.stray

/-- In every run of changes of speed, transmissions and interrupts, whatever the chip answers, a
register is missed in the ways of `Stray` only. So what starts a transmission and what finds a
received frame goes to its own bank. -/
theorem run_stray (ops : List Op) : ∀ {b : UInt8} (_ : IsBank mcrBankMask b) (self : Idev)
    (as : ℕ → UInt8), ∀ a ∈ misses ((self.ops ops).run mcrBankMask b as).trace, Stray a := by
  suffices h : ∀ {b : UInt8} (_ : IsBank mcrBankMask b) (self : Idev),
      Meets mcrBankMask b (self.ops ops) fun _ _ t => ∀ a ∈ misses t, Stray a from
    fun {_} hb self as => h hb self as
  induction ops with
  | nil =>
    intro b _ self
    exact .pure fun a ha => absurd ha List.not_mem_nil
  | cons op ops ih =>
    intro b hb self
    refine .bind (op_stray hb self op) ?_
    rintro self' b' t ⟨hb', ht⟩
    refine (ih hb' self').mono ?_
    intro _ _ u hu a ha
    rw [misses_append, List.mem_append] at ha
    exact ha.elim (ht a) (hu a)

theorem run_stray_speed :
    List.Forall Stray (misses ((firDevice.ops [.changeSpeed 1152000, .hardXmit [1, 2]]).run
      mcrBankMask 3 fun _ => 0).trace) :=
  List.forall_iff_forall_mem.2
    (run_stray [.changeSpeed 1152000, .hardXmit [1, 2]] (b := 3) (by decide) firDevice fun _ => 0)

end Ircard
