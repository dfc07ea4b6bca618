import IrdaUtils.Sanity.Tracking

/-! The connection table under the tracking machine: which slot a search meets, which
slots a frame can make or leave valid, and the frames that do so, by their bytes. -/

namespace Irdadump

def LsapState.pair (c : LsapState) : UInt8 × UInt8 := (c.slsapSel, c.dlsapSel)

/-- Slot `i` holds a valid connection of the link `caddr` with the selectors `p`. -/
def Tracker.Live (t : Tracker) (caddr : UInt8) (p : UInt8 × UInt8) (i : Slot) : Prop :=
  (t.conn i).valid = true ∧ (t.conn i).caddr = caddr ∧ (t.conn i).pair = p

/-- Slot `i` stands in front for the selectors `p`: it has them and is either the cached
slot, or the lowest of the slots with them when the cached slot has others. -/
def Tracker.Front (t : Tracker) (p : UInt8 × UInt8) (i : Slot) : Prop :=
  (t.conn i).pair = p ∧
    (t.connCache = some i ∨
      (∀ c, t.connCache = some c → (t.conn c).pair ≠ p) ∧ ∀ j < i, (t.conn j).pair ≠ p)

/-! ### Searches -/

theorem hasPair_iff (c : LsapState) (p : UInt8 × UInt8) :
    c.hasPair p.1 p.2 = true ↔ c.pair = p := by
  simp [LsapState.hasPair, LsapState.pair, Prod.ext_iff]

theorem hasPair_eq_false (c : LsapState) (p : UInt8 × UInt8) :
    c.hasPair p.1 p.2 = false ↔ c.pair ≠ p := by
  rw [← Bool.not_eq_true, hasPair_iff]

theorem firstSlot_eq_some {conn : Slot → LsapState} {p : UInt8 × UInt8} {i : Slot} :
    firstSlot conn p.1 p.2 = some i ↔ (conn i).pair = p ∧ ∀ j < i, (conn j).pair ≠ p := by
  rw [firstSlot, ← Fin.find?_eq_find?_finRange, Fin.find?_eq_some_iff]
  simp only [hasPair_iff, hasPair_eq_false]

theorem firstSlot_eq_none {conn : Slot → LsapState} {p : UInt8 × UInt8} :
    firstSlot conn p.1 p.2 = none ↔ ∀ i, (conn i).pair ≠ p := by
  rw [firstSlot, ← Fin.find?_eq_find?_finRange, Fin.find?_eq_none_iff]
  simp only [hasPair_eq_false]

theorem findFree_eq_some {conn : Slot → LsapState} {i : Slot} (h : findFreeConnection conn = some i) :
    (conn i).valid = false := by
  rw [findFreeConnection, ← Fin.find?_eq_find?_finRange, Fin.find?_eq_some_iff] at h
  simpa using h.1

theorem findFree_eq_none {conn : Slot → LsapState} :
    findFreeConnection conn = none ↔ ∀ i, (conn i).valid = true := by
  rw [findFreeConnection, ← Fin.find?_eq_find?_finRange, Fin.find?_eq_none_iff]
  simp

theorem find_eq_first {t : Tracker} {p : UInt8 × UInt8}
    (h : ∀ c, t.connCache = some c → (t.conn c).pair ≠ p) :
    t.find p = firstSlot t.conn p.1 p.2 := by
  unfold Tracker.find findConnection
  cases hc : t.connCache with
  | none => rfl
  | some c =>
    have hp := (hasPair_eq_false _ _).2 (h c hc)
    simp only [hp, Bool.false_eq_true, if_false]

theorem find_eq_cached {t : Tracker} {p : UInt8 × UInt8} {c : Slot} (hc : t.connCache = some c)
    (hp : (t.conn c).pair = p) : t.find p = some c := by
  simp only [Tracker.find, findConnection, hc, (hasPair_iff _ _).2 hp, if_true]

/-- `find_connection` answers with the slot in front. -/
theorem find_eq_some {t : Tracker} {p : UInt8 × UInt8} {i : Slot} :
    t.find p = some i ↔ t.Front p i := by
  by_cases h : ∃ c, t.connCache = some c ∧ (t.conn c).pair = p
  · obtain ⟨c, hc, hp⟩ := h
    rw [find_eq_cached hc hp]
    constructor
    · intro e
      cases e
      exact ⟨hp, Or.inl hc⟩
    · rintro ⟨-, e | ⟨hno, -⟩⟩
      · rw [← hc, e]
      · exact absurd hp (hno c hc)
  · have hno : ∀ c, t.connCache = some c → (t.conn c).pair ≠ p := fun c hc hp => h ⟨c, hc, hp⟩
    rw [find_eq_first hno, firstSlot_eq_some]
    constructor
    · rintro ⟨hp, hlt⟩
      exact ⟨hp, Or.inr ⟨hno, hlt⟩⟩
    · rintro ⟨hp, e | ⟨-, hlt⟩⟩
      · exact absurd hp (hno i e)
      · exact ⟨hp, hlt⟩

theorem find_eq_none {t : Tracker} {p : UInt8 × UInt8} :
    t.find p = none ↔ ∀ i, (t.conn i).pair ≠ p := by
  constructor
  · intro h i hp
    have hno : ∀ c, t.connCache = some c → (t.conn c).pair ≠ p := by
      intro c hc hcp
      rw [find_eq_cached hc hcp] at h
      cases h
    rw [find_eq_first hno, firstSlot_eq_none] at h
    exact h i hp
  · intro h
    rw [find_eq_first fun c _ => h c, firstSlot_eq_none]
    exact h

/-! ### Slots -/

theorem ofConnect_caddr (q : IasQuery) (h : LmHead) :
    (LsapState.ofConnect q h).caddr = h.caddr := rfl

theorem ofConnect_pair (q : IasQuery) (h : LmHead) :
    (LsapState.ofConnect q h).pair = h.pair := by
  unfold LsapState.ofConnect newConnection LsapState.pair LmHead.pair
  split_ifs <;> rfl

theorem ofConnect_flags (q : IasQuery) (h : LmHead) :
    (LsapState.ofConnect q h).flags = q.flags := rfl

/-- What a frame does to one slot. -/
inductive SlotStep (t : Tracker) (pdu : Pdu) (c : LsapState) : LsapState → Prop where
  | same : (∀ a, pdu = .lapDisc a → c.caddr ≠ a) → SlotStep t pdu c c
  | closed : SlotStep t pdu c { c with valid := false }
  | opened (h : LmHead) : pdu = .lm h .connectCmd → h.dlsapSel = t.lastIas.lsapSel →
      SlotStep t pdu c (.ofConnect t.lastIas h)

theorem slot_connectCmd (cfg : Config) (t : Tracker) (h : LmHead) (i : Slot) :
    SlotStep t (.lm h .connectCmd) (t.conn i) ((trackConnectCmd cfg t h).tracker.conn i) := by
  have hsame : SlotStep t (.lm h .connectCmd) (t.conn i) (t.conn i) := .same (by simp)
  unfold trackConnectCmd
  by_cases hd : h.dlsapSel = t.lastIas.lsapSel
  · rw [if_pos hd]
    cases findFreeConnection t.conn with
    | none => exact hsame
    | some j =>
      by_cases e : i = j
      · subst e
        simp only [Function.update_self]
        exact .opened h rfl hd
      · simp only [Function.update_of_ne e]
        exact hsame
  · rw [if_neg hd]
    exact hsame

theorem slot_disconnect (t : Tracker) (h : LmHead) (i : Slot) :
    SlotStep t (.lm h .disconnect) (t.conn i) ((trackDisconnect t h).tracker.conn i) := by
  have hsame : SlotStep t (.lm h .disconnect) (t.conn i) (t.conn i) := .same (by simp)
  unfold trackDisconnect
  cases t.find h.pair with
  | none => exact hsame
  | some j =>
    by_cases e : i = j
    · subst e
      simp only [Function.update_self]
      exact .closed
    · simp only [Function.update_of_ne e]
      exact hsame

theorem slot_lapDisc (cfg : Config) (t : Tracker) (a : UInt8) (i : Slot) :
    SlotStep t (.lapDisc a) (t.conn i) ((trackStep cfg t (.lapDisc a)).tracker.conn i) := by
  simp only [trackStep, garbageConnection]
  split_ifs with h
  · exact .closed
  · refine .same ?_
    intro a' e
    cases e
    exact h

/-- Every slot after a frame is the slot before it, closed, or opened by the frame. -/
theorem slot_step (cfg : Config) (t : Tracker) (pdu : Pdu) (i : Slot) :
    SlotStep t pdu (t.conn i) ((trackStep cfg t pdu).tracker.conn i) := by
  cases pdu with
  | lapDisc a => exact slot_lapDisc cfg t a i
  | ultraObex => exact .same (by simp)
  | other => exact .same (by simp)
  | lm h op =>
    cases op with
    | connectCmd => exact slot_connectCmd cfg t h i
    | disconnect => exact slot_disconnect t h i
    | connectRsp => exact .same (by simp)
    | control => exact .same (by simp)
    | data ias => exact .same (by simp)

/-! ### Frames -/

def Frame.caddr (f : Frame) : UInt8 := f.byte 0 &&& 0xfe

/-- A frame in memory of its own, behind which there are zeros only. -/
def Frame.ofBytes (type : ℤ) (bs : List UInt8) : Frame where
  type := type
  buf := { data := 0, head := 0, tail := bs.length, end_ := bs.length, len := bs.length,
           truesize := bs.length, mem := fun n => bs.getD n 0 }
  env := { cfg := {}, stack := fun _ => [], heapTop := bs.length, beyond := fun _ _ => 0,
           diffText := fun _ _ => "" }

/-- A packet alone in its buffer. -/
def packet (bs : List UInt8) : St := (Frame.ofBytes 1 bs).start Decoder.init

/-- The frame is a `CONNECT_CMD` in an I frame. -/
structure Frame.IsConnectCmd (f : Frame) : Prop where
  len : 4 ≤ f.buf.len
  iFrame : f.byte 1 &&& 0x01 = 0
  control : f.byte 2 &&& 0x80 ≠ 0
  opcode : f.byte 4 = 0x01

/-- The selectors of an LM frame, source first when the frame was sent by this host. -/
def Frame.selectors (f : Frame) : UInt8 × UInt8 :=
  if f.type ≠ 0 then (f.byte 3, f.byte 2 &&& 0x7f) else (f.byte 2 &&& 0x7f, f.byte 3)

/-- The frame is a LAP `DISC` command. -/
def Frame.IsLapDisc (f : Frame) : Prop := f.byte 1 &&& 0xef = 0x43 ∧ f.byte 0 &&& 0x01 ≠ 0

/-- The connection address is the same for every layer. -/
theorem pdu_lm_caddr {cfg : Config} {f : Frame} {h : LmHead} {op : LmOp}
    (e : f.pdu cfg = .lm h op) : h.caddr = f.caddr := by
  unfold Frame.pdu pduOf lmOf uiOf at e
  simp only at e
  split_ifs at e <;> cases e <;> rfl

theorem pdu_lapDisc_caddr {cfg : Config} {f : Frame} {a : UInt8}
    (e : f.pdu cfg = .lapDisc a) : a = f.caddr := by
  unfold Frame.pdu pduOf lmOf uiOf at e
  simp only at e
  split_ifs at e
  cases e
  rfl

/-! ### Runs -/

def trackFrame (cfg : Config) (t : Tracker) (f : Frame) : Tracker :=
  (trackStep cfg t (f.pdu cfg)).tracker

theorem tracker_decode (cfg : Config) (d : Decoder) (f : Frame) :
    (decode cfg d f).tracker = trackFrame cfg d.tracker f := (tracks_parseFrame cfg d f).1

theorem tracker_run (cfg : Config) (d : Decoder) (fs : List Frame) :
    (fs.foldl (decode cfg) d).tracker = fs.foldl (trackFrame cfg) d.tracker := by
  induction fs generalizing d with
  | nil => rfl
  | cons f fs ih => rw [List.foldl_cons, List.foldl_cons, ih, tracker_decode]

end Irdadump
