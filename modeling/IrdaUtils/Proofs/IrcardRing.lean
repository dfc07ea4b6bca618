import IrdaUtils.Proofs.IrcardWire

/-! The reception as a format. Behind a frame and its checksum the chip stores the length, and the
ring pointer names the last byte. The driver gets the frame back, as often as the interrupt status
tells it to. -/

namespace Ircard
open Banked

/-- A frame in the ring: its bytes, the checksum, and the length of both with the error bits
clear. -/
def ringBytes (p crc : List UInt8) : List UInt8 :=
  p ++ crc ++ [.ofNat ((p.length + crc.length) % 256), .ofNat ((p.length + crc.length) / 256)]

/-- The frame is in the memory `ring` at `a`, with its last byte at `ptr` from `membase` on. -/
structure InRing (membase : ℕ) (ring : ℤ → UInt8) (ptr : ℕ) (a : ℤ) (p crc : List UInt8) : Prop where
  checksum : crc.length = 4
  long : 2 ≤ p.length
  short : p.length + 4 < 8192
  ptr_pos : 0 < ptr
  ptr_lt : ptr < 16384
  last : (membase : ℤ) + ptr = a + (p.length + 4 + 1)
  bytes : ∀ i < (ringBytes p crc).length, ring (a + i) = (ringBytes p crc).getD i 0

/-- The chip answers with the memory and the ring pointer. -/
def Told (ring : ℤ → UInt8) (ptr : ℕ) : Access → Prop
  | .peek a v => v = ring a
  | .read _ reg v =>
    (reg = rxRingFrmPtrLow → v.toNat = ptr % 256) ∧ (reg = rxRingFrmPtrHigh → v.toNat % 64 = ptr / 256)
  | _ => True

instance (ring : ℤ → UInt8) (ptr : ℕ) : (x : Access) → Decidable (Told ring ptr x)
  | .peek a v => inferInstanceAs (Decidable (v = ring a))
  | .read _ reg v => inferInstanceAs (Decidable
    ((reg = rxRingFrmPtrLow → v.toNat = ptr % 256) ∧ (reg = rxRingFrmPtrHigh → v.toNat % 64 = ptr / 256)))
  | .readMaster _ | .writeMaster _ | .write _ _ _ | .copy _ _ => .isTrue trivial

/-- The interrupt status of a received frame. -/
def isRx (id : UInt8) : Bool := id = msrRxDataId ∨ id = msrRxCondId

def Access.saysRx : Access → Bool
  | .read _ reg v => reg = msr ∧ isRx (v &&& msrIdMask)
  | _ => false

theorem high_low {h l : ℕ} (hl : l < 256) : l ||| (h <<< 8) = h * 256 + l := by
  rw [Nat.or_comm, ← Nat.shiftLeft_add_eq_or_of_lt (i := 8) hl, Nat.shiftLeft_eq]

theorem ringPtr_eq {low high : UInt8} {ptr : ℕ} (hl : low.toNat = ptr % 256)
    (hh : high.toNat % 64 = ptr / 256) : ringPtr low high = ptr := by
  have h64 : high.toNat &&& 0x3f = high.toNat % 64 := Nat.and_two_pow_sub_one_eq_mod high.toNat 6
  rw [ringPtr, h64, high_low (by omega), hh, hl]
  omega

theorem ringLen_eq {n : ℕ} (h : n < 8192) : ringLen (.ofNat (n / 256)) (.ofNat (n % 256)) = n := by
  have h32 : ∀ m : ℕ, m &&& 0x1f = m % 32 := fun m => Nat.and_two_pow_sub_one_eq_mod m 5
  have hl : (UInt8.ofNat (n % 256)).toNat = n % 256 := by
    rw [UInt8.toNat_ofNat']
    omega
  have hh : (UInt8.ofNat (n / 256)).toNat = n / 256 := by
    rw [UInt8.toNat_ofNat']
    omega
  rw [ringLen, h32, hh, hl, Nat.or_comm, high_low (by omega)]
  omega

/-- The error bits of the length. -/
theorem length_clear {n : ℕ} (h : n < 8192) :
    UInt8.ofNat (n / 256) &&& 0x80 = 0 ∧ UInt8.ofNat (n / 256) &&& 0x40 = 0 ∧
      UInt8.ofNat (n / 256) &&& 0x20 = 0 := by
  have hall : ∀ m < 32, UInt8.ofNat m &&& 0x80 = 0 ∧ UInt8.ofNat m &&& 0x40 = 0 ∧
      UInt8.ofNat m &&& 0x20 = 0 := by decide
  exact hall _ (by omega)

theorem peeks_told {ring : ℤ → UInt8} {ptr : ℕ} {a : ℤ} {bs : List UInt8}
    (h : ∀ x ∈ peeks a bs, Told ring ptr x) (i : ℕ) (hi : i < bs.length) : bs[i] = ring (a + i) := by
  induction bs generalizing a i with
  | nil => cases hi
  | cons b bs ih =>
    obtain ⟨h1, h2⟩ := List.forall_mem_cons.1 h
    cases i with
    | zero =>
      change b = ring (a + 0)
      rw [add_zero]
      exact h1
    | succ i =>
      have hrec := ih h2 i (Nat.lt_of_succ_lt_succ hi)
      rw [List.getElem_cons_succ, hrec]
      congr 1
      push_cast
      ring

variable {b : UInt8} {membase ptr : ℕ} {ring : ℤ → UInt8} {a : ℤ} {p crc : List UInt8}

/-- What is at the ring pointer is the frame. -/
theorem InRing.length_bytes (h : InRing membase ring ptr a p crc) :
    ring (membase + ptr) = .ofNat ((p.length + 4) / 256) ∧
      ring (membase + ptr - 1) = .ofNat ((p.length + 4) % 256) := by
  have hcrc := h.checksum
  have hlen : (ringBytes p crc).length = p.length + 4 + 2 := by
    simp [ringBytes, hcrc]
  have hpc : (p ++ crc).length = p.length + 4 := by
    rw [List.length_append, hcrc]
  have h1 := h.bytes (p.length + 4 + 1) (by omega)
  have h2 := h.bytes (p.length + 4) (by omega)
  rw [ringBytes, List.getD_append_right _ _ _ _ (by omega), hpc, hcrc] at h1 h2
  have e1 : (membase : ℤ) + ptr = a + ((p.length + 4 + 1 : ℕ) : ℤ) := by
    rw [h.last]
    push_cast
    ring
  have e2 : (membase : ℤ) + ptr - 1 = a + ((p.length + 4 : ℕ) : ℤ) := by
    rw [h.last]
    push_cast
    ring
  rw [e2, e1, h1, h2]
  simp

/-- The driver reads the frame itself, up to the largest size. -/
theorem InRing.frame_bytes (h : InRing membase ring ptr a p crc) {bs : List UInt8}
    (hlen : bs.length = min p.length 2050) (hbs : ∀ x ∈ peeks a bs, Told ring ptr x) :
    bs = p.take 2050 := by
  apply List.ext_getElem
  · rw [hlen, List.length_take, Nat.min_comm]
  · intro i h1 h2
    have hi : i < p.length := by omega
    have hr := h.bytes i (by simp [ringBytes]; omega)
    rw [ringBytes, List.append_assoc, List.getD_append _ _ _ _ hi, List.getD_eq_getElem _ _ hi] at hr
    rw [peeks_told hbs i h1, hr, List.getElem_take]

theorem receiveComplete_told (hb : IsBank mcrBankMask b) (self : Idev) (turn : Turn)
    (h : InRing self.membase ring ptr a p crc) (hskb : turn.skb = true) :
    Meets mcrBankMask b (self.receiveComplete turn) fun r _ t =>
      (∀ x ∈ t, Told ring ptr x) → r.2.received = self.received ++ [p.take 2050] := by
  refine (receiveComplete_meets hb self turn).mono ?_
  rintro ⟨_, y⟩ b' t ⟨m, low, high, u, rfl, hu⟩ ht
  obtain ⟨hstat, hlow⟩ := h.length_bytes
  obtain ⟨hl, hh⟩ : low.toNat = ptr % 256 ∧ high.toNat % 64 = ptr / 256 :=
    ⟨(ht (.read 1 rxRingFrmPtrLow low) (by simp [ringTrace])).1 rfl,
      (ht (.read 1 rxRingFrmPtrHigh high) (by simp [ringTrace])).2 rfl⟩
  rw [ringPtr_eq hl hh] at hu
  have hshort := h.short
  have hlong := h.long
  obtain ⟨h80, h40, h20⟩ := length_clear hshort
  have hpeek : ∀ stat lenLow v, u = [.peek (self.membase + ptr) stat,
      .peek (self.membase + ptr - 1) lenLow] ++ v → stat = .ofNat ((p.length + 4) / 256) ∧
        ringLen stat lenLow = p.length + 4 := by
    intro stat lenLow v hv
    have h1 : stat = ring (self.membase + ptr) := ht (.peek _ stat) (by simp [hv])
    have h2 : lenLow = ring (self.membase + ptr - 1) := ht (.peek _ lenLow) (by simp [hv])
    rw [h1, h2, hstat, hlow]
    exact ⟨rfl, ringLen_eq hshort⟩
  cases hu with
  | none h0 =>
    have := h.ptr_pos
    omega
  | bad stat lenLow hbits =>
    obtain ⟨rfl, -⟩ := hpeek stat lenLow [] rfl
    exact (hbits.elim (· h80) (· h40)).elim
  | overrun stat lenLow m' stats hbits =>
    obtain ⟨rfl, -⟩ := hpeek stat lenLow _ (List.append_assoc _ _ _)
    exact absurd h20 hbits
  | short stat lenLow hlen =>
    obtain ⟨-, e⟩ := hpeek stat lenLow [] rfl
    omega
  | dropped stat lenLow hno => rw [hskb] at hno; cases hno
  | frame stat lenLow bs stats hlen hbs =>
    obtain ⟨-, e⟩ := hpeek stat lenLow _ rfl
    have hstart : (self.membase : ℤ) + ptr - ringLen stat lenLow - 1 = a := by
      rw [e, h.last]
      push_cast
      ring
    rw [e, Nat.add_sub_cancel] at hbs
    have hframe : bs = p.take 2050 := by
      refine h.frame_bytes hbs fun x hx => ht x ?_
      rw [hstart]
      simp [hx]
    rw [hframe]

theorem saysRx_silent {t : List Access} (h : t.countP Access.isMsr = 0) : t.countP Access.saysRx = 0 := by
  rw [List.countP_eq_zero] at h ⊢
  intro x hx hrx
  refine h x hx ?_
  cases x with
  | read bank reg v =>
    simp only [Access.saysRx, decide_eq_true_iff] at hrx
    exact decide_eq_true hrx.1
  | _ => cases hrx

theorem xmitComplete_received (hb : IsBank mcrBankMask b) (self : Idev) (turn : Turn) :
    Meets mcrBankMask b (self.xmitComplete turn) fun y _ _ => y.received = self.received := by
  refine (xmitComplete_meets hb self turn).mono ?_
  rintro y b' t ⟨stats, m, v, vs, u, -, -, hu⟩
  cases hu <;> rfl

theorem handle_told (hb : IsBank mcrBankMask b) (self : Idev) (turn : Turn) (id : UInt8)
    (h : InRing self.membase ring ptr a p crc) (hskb : turn.skb = true) :
    Meets mcrBankMask b (self.handle turn id) fun y _ t => (∀ x ∈ t, Told ring ptr x) →
      y.received = self.received ++ List.replicate (if isRx id then 1 else 0) (p.take 2050) := by
  unfold Idev.handle
  split
  · rename_i htx
    subst htx
    refine (xmitComplete_received hb self turn).mono fun y b' t hy _ => ?_
    rw [hy]
    exact (List.append_nil _).symm
  split
  · rename_i hrx
    refine .bind (receiveComplete_told hb self turn h hskb) fun r b' t hr => .pure ?_
    rw [List.append_nil, if_pos (show isRx id = true from decide_eq_true hrx)]
    exact hr
  · rename_i hrx
    refine .pure fun _ => ?_
    rw [if_neg (by simpa [isRx] using hrx)]
    exact (List.append_nil _).symm

theorem turns_told (turn : ℕ → Turn) (hskb : ∀ n, (turn n).skb = true) (n : ℕ) :
    ∀ {b : UInt8} (self : Idev) (id : UInt8), b = 0 ∨ b = 1 →
      InRing self.membase ring ptr a p crc →
      Meets mcrBankMask b (Idev.turns turn (n + 1) self id) fun y _ t => (∀ x ∈ t, Told ring ptr x) →
        y.received = self.received ++
          List.replicate ((if isRx id then 1 else 0) + t.countP Access.saysRx) (p.take 2050) := by
  induction n with
  | zero =>
    intro b self id hb h
    have hbank : IsBank mcrBankMask b := by
      rcases hb with rfl | rfl <;> decide
    unfold Idev.turns
    split
    · rename_i h0
      subst h0
      exact .pure fun _ => (List.append_nil _).symm
    refine .bind (.and (handle_handled hb self (turn 0) id) (handle_told hbank self (turn 0) id h
      (hskb 0))) ?_
    rintro y b' t ⟨hy, htold⟩
    rw [if_pos rfl]
    refine .pure ?_
    rw [List.append_nil, saysRx_silent hy.silent]
    exact htold
  | succ n ih =>
    intro b self id hb h
    have hbank : IsBank mcrBankMask b := by
      rcases hb with rfl | rfl <;> decide
    unfold Idev.turns
    split
    · rename_i h0
      subst h0
      exact .pure fun _ => (List.append_nil _).symm
    refine .bind (.and (handle_handled hb self (turn (n + 1)) id)
      (.and (handle_refines hbank self (turn (n + 1)) id)
        (handle_told hbank self (turn (n + 1)) id h (hskb (n + 1))))) ?_
    rintro y b' t ⟨hy, ⟨es, -, hbase, -⟩, htold⟩
    rw [if_neg (Nat.succ_ne_zero n)]
    refine .inReg fun v => ?_
    rw [← hbase] at h
    refine (ih y (v &&& msrIdMask) hy.bank h).mono fun z b'' u hz ht => ?_
    have hcount : (t ++ .read b' msr v :: u).countP Access.saysRx =
        (if isRx (v &&& msrIdMask) then 1 else 0) + u.countP Access.saysRx := by
      rw [List.countP_append, saysRx_silent hy.silent, List.countP_cons, Nat.zero_add, Nat.add_comm]
      congr 1
      simp [Access.saysRx]
    rw [hz fun x hx => ht x (by simp [hx]), htold fun x hx => ht x (by simp [hx]), hcount,
      List.append_assoc, List.replicate_append_replicate]

/-- While the ring pointer names a frame, an interrupt receives that frame, once for each time
that the interrupt status is read with a received frame in it. -/
theorem interrupt_receives (hb : IsBank mcrBankMask b) (self : Idev) (turn : ℕ → Turn)
    (hskb : ∀ n, (turn n).skb = true) (h : InRing self.membase ring ptr a p crc) (as : ℕ → UInt8) :
    let o := (self.onInterrupt turn).run mcrBankMask b as
    (∀ x ∈ o.trace, Told ring ptr x) →
      o.val.received = self.received ++ List.replicate (o.trace.countP Access.saysRx) (p.take 2050) := by
  suffices hmeets : Meets mcrBankMask b (self.onInterrupt turn) fun y _ t =>
      (∀ x ∈ t, Told ring ptr x) → y.received =
        self.received ++ List.replicate (t.countP Access.saysRx) (p.take 2050) from hmeets as
  unfold Idev.onInterrupt
  split
  · exact .pure fun _ => (List.append_nil _).symm
  refine switchBank_then hb (by decide) fun m => .inReg fun v => ?_
  refine .bind (.and (turns_meets turn maxTurns { self with interrupt := true } _ (.inl rfl))
    (turns_told turn hskb 11 { self with interrupt := true } (v &&& msrIdMask) (.inl rfl) h)) ?_
  rintro z b'' u ⟨hz, htold⟩
  have hb'' : IsBank mcrBankMask b'' := by
    rcases hz.bank with rfl | rfl <;> decide
  refine switchBank_then hb'' hb fun m' => .pure fun ht => ?_
  have hcount : (switched m 0 ++ Access.read 0 msr v :: (u ++ (switched m' b ++ []))).countP Access.saysRx =
      (if isRx (v &&& msrIdMask) then 1 else 0) + u.countP Access.saysRx := by
    rw [List.countP_append, List.countP_cons, List.countP_append]
    simp [switched, Access.saysRx, Nat.add_comm]
  rw [hcount]
  exact htold fun x hx => ht x (by simp [hx])

/-- The memory with a frame of two bytes at the begin of the window. -/
def smallRing : ℤ → UInt8 := fun a => (ringBytes [1, 2] [0, 0, 0, 0]).getD (a - 0xd0000).toNat 0

theorem smallRing_frame : InRing 0xd0000 smallRing 7 0xd0000 [1, 2] [0, 0, 0, 0] := by
  refine ⟨rfl, le_rfl, by decide, by decide, by decide, by decide, fun i _ => ?_⟩
  simp [smallRing]

theorem interrupt_receives_once :
    ((firDevice.onInterrupt fun _ => idleTurn).run mcrBankMask 0 sixBytes).val.received = [[1, 2]] :=
  interrupt_receives (b := 0) (by decide) firDevice (fun _ => idleTurn) (fun _ => rfl)
    smallRing_frame sixBytes (by decide)

end Ircard
