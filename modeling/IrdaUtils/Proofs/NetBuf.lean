import IrdaUtils.Lib.Runs
import IrdaUtils.Spec.NetBuf

/-! A `GNetBuf` is a byte sequence. The operations act on the bytes `data .. tail`
as the list operations of the same names, in both grow branches: `put` grows after
`tail` has moved, `push` grows and moves the contents before `data` moves back. -/

namespace Irdadump
open Memory Runs

/-- The picture in `netbuf.h`: the four pointers in order, with the lengths between
them. -/
structure Rep (msg : GNetBuf) : Prop where
  head_le_data : msg.head ≤ msg.data
  tail_eq : msg.tail = msg.data + msg.len
  tail_le_end : msg.tail ≤ msg.end_
  end_eq : msg.end_ = msg.head + msg.truesize
  truesize_lt : msg.truesize < 2 ^ 32

/-- One call, with the allocator's answer where the call may need one. -/
inductive Op where
  | new (base : ℕ) (heap : Mem) (len : ℕ)
  | recycle
  | putData (re : Realloc) (data : List UInt8)
  | prependHdr (re : Realloc) (hdr : List UInt8)
  | pull (len : ℕ)
  | trim (len : ℕ)
  | reserve (len : ℕ)

/-- The call on the current buffer; `none` is `NULL`, through which no call is made. -/
def opStep : Option GNetBuf → Op → Option GNetBuf
  | _, .new base heap len => gNetbufNew base heap len
  | some msg, .recycle => some (gNetbufRecycle msg)
  | some msg, .putData re data => some (gNetbufPutData re msg data).2
  | some msg, .prependHdr re hdr => some (gNetbufPrependHdr re msg hdr).2
  | some msg, .pull len => some (gNetbufPull msg len).2
  | some msg, .trim len => some (gNetbufTrim msg len)
  | some msg, .reserve len => some (gNetbufReserve msg len)
  | none, _ => none

/-- The same calls on the byte sequence that the buffer stands for. -/
def listStep : Option (List UInt8) → Op → Option (List UInt8)
  | _, .new _ _ len => if len = 0 then none else some []
  | some _, .recycle => some []
  | some l, .putData _ data => some (l ++ data)
  | some l, .prependHdr _ hdr => some (hdr ++ l)
  | some l, .pull len => some (if l.length < len then l else l.drop len)
  | some l, .trim len => some (l.take len)
  | some l, .reserve _ => some l
  | none, _ => none

/-- `realloc` on growing `msg` by `n` bytes succeeds and keeps the old bytes, and
the new size is below `2 ^ 32`. -/
def Grows (re : Realloc) (msg : GNetBuf) (n : ℕ) : Prop :=
  msg.truesize + n < 2 ^ 32 ∧
    ∃ buf heap, re msg.mem msg.head (msg.truesize + n) = some (buf, heap) ∧
      ∀ k < msg.truesize, heap (buf + k) = msg.mem (msg.head + k)

/-- The calls of a run: arguments are `guint`, a growing call finds memory, and
space is reserved in an empty buffer that has it. -/
def Allowed : Option GNetBuf → Op → Prop
  | _, .new _ _ len => len < 2 ^ 32
  | some _, .recycle => True
  | some msg, .putData re data => msg.end_ < msg.tail + data.length → Grows re msg data.length
  | some msg, .prependHdr re hdr => msg.data < msg.head + hdr.length → Grows re msg hdr.length
  | some _, .pull len => len < 2 ^ 32
  | some _, .trim len => len < 2 ^ 32
  | some msg, .reserve len => msg.len = 0 ∧ len ≤ gNetbufTailroom msg
  | none, _ => False

theorem guint_of_lt {n : ℕ} (h : n < 2 ^ 32) : guint n = n := Nat.mod_eq_of_lt h

theorem bytes_length (msg : GNetBuf) : msg.bytes.length = msg.len := load_length _ _ _

theorem recycle_rep {msg : GNetBuf} (h : msg.truesize < 2 ^ 32) : Rep (gNetbufRecycle msg) :=
  ⟨le_rfl, rfl, Nat.le_add_right _ _, rfl, h⟩

theorem new_spec {len : ℕ} (base : ℕ) (heap : Mem) (h : len < 2 ^ 32) :
    (len = 0 ∧ gNetbufNew base heap len = none) ∨
      (len ≠ 0 ∧ ∃ msg, gNetbufNew base heap len = some msg ∧ Rep msg ∧ msg.bytes = []) := by
  by_cases h0 : len = 0
  · exact Or.inl ⟨h0, by simp [gNetbufNew, gMalloc, h0]⟩
  · refine Or.inr ⟨h0, gNetbufRecycle
      { data := 0, head := base, tail := 0, end_ := 0, len := 0, truesize := len, mem := heap },
      ?_, recycle_rep h, rfl⟩
    simp [gNetbufNew, gMalloc, h0]

theorem put_spec {re : Realloc} {msg : GNetBuf} {n : ℕ} (h : Rep msg)
    (hg : msg.end_ < msg.tail + n → Grows re msg n) :
    ∃ msg', gNetbufPut re msg n = (some (msg'.data + msg.len), msg') ∧ Rep msg' ∧
      msg'.len = msg.len + n ∧ load msg'.mem msg'.data msg.len = msg.bytes := by
  have hd := h.head_le_data; have ht := h.tail_eq; have he := h.end_eq
  have hte := h.tail_le_end; have hs := h.truesize_lt
  by_cases hov : msg.end_ < msg.tail + n
  · obtain ⟨hlt, buf, heap, hre, hkeep⟩ := hg hov
    have hlen : guint (msg.len + n) = msg.len + n := guint_of_lt (by omega)
    refine ⟨{ msg with
        truesize := msg.truesize + n, data := buf + (msg.data - msg.head),
        tail := buf + (msg.tail + n - msg.head), head := buf,
        end_ := buf + (msg.truesize + n), len := msg.len + n, mem := heap }, ?_, ?_, rfl, ?_⟩
    · simp only [gNetbufPut, gNetbufRealloc, if_pos hov, guint_of_lt hlt, hlen, hre]
      exact Prod.ext (congrArg some (by omega)) rfl
    · exact ⟨Nat.le_add_right _ _, by simp only; omega, by simp only; omega, rfl, hlt⟩
    · apply load_congr
      intro i hi
      have e := hkeep (msg.data - msg.head + i) (by omega)
      simp only [Nat.add_assoc] at e ⊢
      rw [e]
      congr 1
      omega
  · refine ⟨{ msg with tail := msg.tail + n, len := msg.len + n }, ?_, ?_, rfl, rfl⟩
    · simp only [gNetbufPut, if_neg hov, guint_of_lt (show msg.len + n < 2 ^ 32 by omega)]
      rw [ht]
    · exact ⟨hd, by simp only; omega, by simp only; omega, he, hs⟩

theorem push_spec {re : Realloc} {msg : GNetBuf} {n : ℕ} (h : Rep msg)
    (hg : msg.data < msg.head + n → Grows re msg n) :
    ∃ msg', gNetbufPush re msg n = (some msg'.data, msg') ∧ Rep msg' ∧
      msg'.len = msg.len + n ∧ load msg'.mem (msg'.data + n) msg.len = msg.bytes := by
  have hd := h.head_le_data; have ht := h.tail_eq; have he := h.end_eq
  have hte := h.tail_le_end; have hs := h.truesize_lt
  by_cases hov : msg.data < msg.head + n
  · obtain ⟨hlt, buf, heap, hre, hkeep⟩ := hg hov
    have hov' : (msg.data : ℤ) - n < msg.head := by omega
    have hlen : guint (msg.len + n) = msg.len + n := guint_of_lt (by omega)
    have hold : load heap (buf + (msg.data - msg.head)) msg.len = msg.bytes := by
      apply load_congr
      intro i hi
      have e := hkeep (msg.data - msg.head + i) (by omega)
      simp only [Nat.add_assoc] at e ⊢
      rw [e]
      congr 1
      omega
    refine ⟨{ msg with
        truesize := msg.truesize + n, data := buf + (msg.data - msg.head),
        tail := buf + (msg.tail - msg.head) + n, head := buf,
        end_ := buf + (msg.truesize + n), len := msg.len + n,
        mem := store heap (buf + (msg.data - msg.head) + n) msg.bytes }, ?_, ?_, rfl, ?_⟩
    · simp only [gNetbufPush, gNetbufRealloc, if_pos hov', guint_of_lt hlt, hlen, hre, hold,
        Nat.add_sub_cancel]
    · exact ⟨Nat.le_add_right _ _, by simp only; omega, by simp only; omega, rfl, hlt⟩
    · have e := load_store heap (buf + (msg.data - msg.head) + n) msg.bytes
      rwa [bytes_length] at e
  · have hov' : ¬ (msg.data : ℤ) - n < msg.head := by omega
    refine ⟨{ msg with data := msg.data - n, len := msg.len + n }, ?_, ?_, rfl, ?_⟩
    · simp only [gNetbufPush, if_neg hov', guint_of_lt (show msg.len + n < 2 ^ 32 by omega)]
    · exact ⟨by simp only; omega, by simp only; omega, hte, he, hs⟩
    · simp only [GNetBuf.bytes]
      rw [Nat.sub_add_cancel (by omega)]

theorem rep_of_mem {msg : GNetBuf} (h : Rep msg) (m : Mem) : Rep { msg with mem := m } :=
  ⟨h.head_le_data, h.tail_eq, h.tail_le_end, h.end_eq, h.truesize_lt⟩

theorem putData_spec {re : Realloc} {msg : GNetBuf} {data : List UInt8} (h : Rep msg)
    (hg : msg.end_ < msg.tail + data.length → Grows re msg data.length) :
    Rep (gNetbufPutData re msg data).2 ∧
      (gNetbufPutData re msg data).2.bytes = msg.bytes ++ data := by
  obtain ⟨msg', hput, hrep, hlen, hload⟩ := put_spec h hg
  have e : gNetbufPutData re msg data = (some (msg'.data + msg.len),
      { msg' with mem := store msg'.mem (msg'.data + msg.len) data }) := by
    simp only [gNetbufPutData, hput]
  rw [e]
  refine ⟨rep_of_mem hrep _, ?_⟩
  simp only [GNetBuf.bytes, hlen]
  rw [load_add, load_store, load_store_disjoint (Or.inl le_rfl), hload]
  rfl

theorem prependHdr_spec {re : Realloc} {msg : GNetBuf} {hdr : List UInt8} (h : Rep msg)
    (hg : msg.data < msg.head + hdr.length → Grows re msg hdr.length) :
    Rep (gNetbufPrependHdr re msg hdr).2 ∧
      (gNetbufPrependHdr re msg hdr).2.bytes = hdr ++ msg.bytes := by
  obtain ⟨msg', hpush, hrep, hlen, hload⟩ := push_spec h hg
  have e : gNetbufPrependHdr re msg hdr =
      (some msg'.data, { msg' with mem := store msg'.mem msg'.data hdr }) := by
    simp only [gNetbufPrependHdr, hpush]
  rw [e]
  refine ⟨rep_of_mem hrep _, ?_⟩
  simp only [GNetBuf.bytes, hlen]
  rw [Nat.add_comm msg.len, load_add, load_store, load_store_disjoint (Or.inr le_rfl), hload]
  rfl

theorem pull_refused {msg : GNetBuf} {n : ℕ} (h : msg.len < n) :
    gNetbufPull msg n = (none, msg) := if_pos h

theorem pull_spec {msg : GNetBuf} {n : ℕ} (h : Rep msg) (hn : n ≤ msg.len) :
    Rep (gNetbufPull msg n).2 ∧ (gNetbufPull msg n).2.bytes = msg.bytes.drop n := by
  have hd := h.head_le_data; have ht := h.tail_eq
  rw [gNetbufPull, if_neg (by omega)]
  refine ⟨⟨by simp only; omega, by simp only; omega, h.tail_le_end, h.end_eq, h.truesize_lt⟩, ?_⟩
  simp only [GNetBuf.bytes, load_drop]

theorem trim_spec {msg : GNetBuf} (n : ℕ) (h : Rep msg) :
    Rep (gNetbufTrim msg n) ∧ (gNetbufTrim msg n).bytes = msg.bytes.take n := by
  have hd := h.head_le_data; have ht := h.tail_eq; have hte := h.tail_le_end
  unfold gNetbufTrim
  split_ifs with hn
  · refine ⟨⟨hd, rfl, by simp only; omega, h.end_eq, h.truesize_lt⟩, ?_⟩
    simp only [GNetBuf.bytes]
    rw [load_take _ _ _ _ (Nat.le_of_lt hn)]
  · exact ⟨h, (List.take_of_length_le (by rw [bytes_length]; omega)).symm⟩

theorem reserve_spec {msg : GNetBuf} {n : ℕ} (h : Rep msg) (h0 : msg.len = 0)
    (hn : n ≤ gNetbufTailroom msg) :
    Rep (gNetbufReserve msg n) ∧ (gNetbufReserve msg n).bytes = msg.bytes := by
  have hd := h.head_le_data; have ht := h.tail_eq; have hte := h.tail_le_end
  unfold gNetbufTailroom at hn
  refine ⟨⟨?_, ?_, ?_, h.end_eq, h.truesize_lt⟩, ?_⟩
  · simp only [gNetbufReserve]; omega
  · simp only [gNetbufReserve]; omega
  · simp only [gNetbufReserve]; omega
  · simp [GNetBuf.bytes, gNetbufReserve, h0]

/-- `msg` stands for the byte sequence `l`. -/
def Stands : Option GNetBuf → Option (List UInt8) → Prop
  | none, none => True
  | some msg, some l => Rep msg ∧ msg.bytes = l
  | _, _ => False

theorem stands_new (b : Option GNetBuf) (l : Option (List UInt8)) {base len : ℕ} {heap : Mem}
    (h : len < 2 ^ 32) :
    Stands (opStep b (.new base heap len)) (listStep l (.new base heap len)) := by
  have hb : opStep b (.new base heap len) = gNetbufNew base heap len := by cases b <;> rfl
  have hl : listStep l (.new base heap len) = if len = 0 then none else some [] := by
    cases l <;> rfl
  rw [hb, hl]
  rcases new_spec base heap h with ⟨h0, e⟩ | ⟨h0, msg, e, hrep, hbytes⟩
  · rw [e, if_pos h0]
    exact trivial
  · rw [e, if_neg h0]
    exact ⟨hrep, hbytes⟩

theorem stands_pull {msg : GNetBuf} (n : ℕ) (h : Rep msg) :
    Stands (opStep (some msg) (.pull n)) (listStep (some msg.bytes) (.pull n)) := by
  simp only [opStep, listStep, bytes_length]
  split_ifs with hn
  · rw [pull_refused hn]
    exact ⟨h, rfl⟩
  · exact pull_spec h (by omega)

theorem stands_step (b : Option GNetBuf) (l : Option (List UInt8)) (op : Op) (h : Stands b l)
    (hok : Allowed b op) : Stands (opStep b op) (listStep l op) := by
  match b, l, h with
  | none, none, _ =>
    cases op with
    | new base heap len => exact stands_new _ _ hok
    | _ => exact hok.elim
  | some msg, some _, ⟨hrep, rfl⟩ =>
    cases op with
    | new base heap len => exact stands_new _ _ hok
    | recycle => exact ⟨recycle_rep hrep.truesize_lt, rfl⟩
    | putData re data => exact putData_spec hrep hok
    | prependHdr re hdr => exact prependHdr_spec hrep hok
    | pull n => exact stands_pull n hrep
    | trim n => exact trim_spec n hrep
    | reserve n => exact reserve_spec hrep hok.1 hok.2

/-- After every run of calls the buffer is absent exactly when the byte sequence is.
Otherwise its pointers and lengths are as in the picture, its bytes are the sequence,
and a `pull` beyond the contents answers `NULL` and changes nothing. -/
theorem netbuf_refines_list (ops : List Op) (h : Along opStep Allowed none ops) :
    (ops.foldl opStep none = none ↔ ops.foldl listStep none = none) ∧
      ∀ msg, ops.foldl opStep none = some msg →
        (msg.head ≤ msg.data ∧ msg.data ≤ msg.tail ∧ msg.tail ≤ msg.end_ ∧
          msg.end_ - msg.head = msg.truesize ∧ msg.tail - msg.data = msg.len) ∧
        ops.foldl listStep none = some (load msg.mem msg.data (msg.tail - msg.data)) ∧
        ∀ n, ((gNetbufPull msg n).1 = none ↔ msg.len < n) ∧
          (msg.len < n → (gNetbufPull msg n).2 = msg) := by
  have hs := simulation Stands stands_step ops none none trivial h
  match hb : ops.foldl opStep none, hl : ops.foldl listStep none, hs with
  | none, none, _ => exact ⟨by simp, by simp⟩
  | some msg, some _, ⟨hrep, rfl⟩ =>
    refine ⟨by simp, ?_⟩
    rintro _ ⟨rfl⟩
    have hd := hrep.head_le_data; have ht := hrep.tail_eq
    have hte := hrep.tail_le_end; have he := hrep.end_eq
    have hlen : msg.tail - msg.data = msg.len := by omega
    refine ⟨⟨hd, by omega, hte, by omega, hlen⟩, by rw [hlen]; rfl, fun n => ?_⟩
    by_cases hn : msg.len < n
    · simp [pull_refused hn, hn]
    · simp [gNetbufPull, hn]

/-- A `realloc` that moves every block to address 100. -/
def movingRealloc : Realloc := fun m p n => some (100, store m 100 (load m p n))

theorem movingRealloc_grows (msg : GNetBuf) (n : ℕ) (h : msg.truesize + n < 2 ^ 32) :
    Grows movingRealloc msg n := by
  refine ⟨h, 100, _, rfl, fun k hk => ?_⟩
  have hk' : k < (load msg.mem msg.head (msg.truesize + n)).length := by
    rw [load_length]; omega
  rw [store_inside hk', load_getElem]

/-- A run that grows at both ends: two bytes are put in a buffer of one, and three
are pushed in front of them. -/
def growRun : List Op :=
  [.new 8 (fun _ => 0) 1, .putData movingRealloc [1, 2], .prependHdr movingRealloc [3, 4, 5],
    .pull 1, .trim 3]

theorem netbuf_refines_growRun :
    Along opStep Allowed none growRun ∧
      ∃ msg, growRun.foldl opStep none = some msg ∧ msg.bytes = [4, 5, 1] := by
  have h : Along opStep Allowed none growRun := by
    refine ⟨?_, fun _ => ?_, fun _ => ?_, ?_, ?_, trivial⟩
    · exact show (1 : ℕ) < 2 ^ 32 by norm_num
    · exact movingRealloc_grows _ _ (show 1 + 2 < 2 ^ 32 by norm_num)
    · exact movingRealloc_grows _ _ (show 3 + 3 < 2 ^ 32 by norm_num)
    · exact show (1 : ℕ) < 2 ^ 32 by norm_num
    · exact show (3 : ℕ) < 2 ^ 32 by norm_num
  refine ⟨h, ?_⟩
  obtain ⟨hnone, hsome⟩ := netbuf_refines_list growRun h
  have hl : growRun.foldl listStep none = some [4, 5, 1] := rfl
  cases hb : growRun.foldl opStep none with
  | none => rw [hnone.1 hb] at hl; cases hl
  | some msg =>
    obtain ⟨⟨-, -, -, -, hlen⟩, hbytes, -⟩ := hsome msg hb
    rw [hl, hlen] at hbytes
    exact ⟨msg, rfl, (Option.some.inj hbytes).symm⟩

/-! ### Failed growth -/

inductive Growth where
  | put
  | push
  deriving DecidableEq

namespace Growth

def call (re : Realloc) (msg : GNetBuf) (len : ℕ) : Growth → Option ℕ × GNetBuf
  | put => gNetbufPut re msg len
  | push => gNetbufPush re msg len

/-- There is no room for `len` bytes at the end that the call grows. -/
def Overruns (msg : GNetBuf) (len : ℕ) : Growth → Prop
  | put => msg.end_ < msg.tail + len
  | push => (msg.data : ℤ) - len < msg.head

/-- The call turns to `realloc`, which fails. -/
structure Fails (re : Realloc) (msg : GNetBuf) (len : ℕ) (op : Growth) : Prop where
  overruns : op.Overruns msg len
  refused : re msg.mem msg.head (guint (msg.truesize + len)) = none

end Growth

/-- The answer is `NULL`, and the buffer is the one before the call, also for every later
run of calls. -/
structure Intact (msg : GNetBuf) (r : Option ℕ × GNetBuf) : Prop where
  null : r.1 = none
  same : r.2 = msg
  later : ∀ ops : List Op, ops.foldl opStep (some r.2) = ops.foldl opStep (some msg)

/-- `g_netbuf_put` has moved `tail` and `len` before it asks for memory. -/
theorem put_failed {re : Realloc} {msg : GNetBuf} {len : ℕ} (h : Growth.put.Fails re msg len) :
    gNetbufPut re msg len =
      (none, { msg with tail := msg.tail + len, len := guint (msg.len + len) }) := by
  have ho : msg.end_ < msg.tail + len := h.overruns
  simp only [gNetbufPut, if_pos ho, gNetbufRealloc, h.refused]

/-- `g_netbuf_push` asks first. -/
theorem push_failed {re : Realloc} {msg : GNetBuf} {len : ℕ} (h : Growth.push.Fails re msg len) :
    gNetbufPush re msg len = (none, msg) := by
  have ho : (msg.data : ℤ) - len < msg.head := h.overruns
  simp only [gNetbufPush, if_pos ho, gNetbufRealloc, h.refused]

/-- A failed `put` leaves `tail` behind the end of the block. -/
theorem put_failed_tail {re : Realloc} {msg : GNetBuf} {len : ℕ} (hrep : Rep msg)
    (h : Growth.put.Fails re msg len) : (gNetbufPut re msg len).2.tail ≠ msg.tail := by
  have ho : msg.end_ < msg.tail + len := h.overruns
  have hte := hrep.tail_le_end
  rw [put_failed h]
  simp only
  omega

/-- A call that cannot grow the buffer leaves it intact exactly when it is a `push`. -/
theorem failed_growth_intact_iff (re : Realloc) (msg : GNetBuf) (len : ℕ) (op : Growth)
    (hrep : Rep msg) (hfail : op.Fails re msg len) :
    Intact msg (op.call re msg len) ↔ op = .push := by
  cases op with
  | put =>
    refine iff_of_false ?_ (by decide)
    intro h
    exact put_failed_tail hrep hfail (congrArg GNetBuf.tail h.same)
  | push =>
    refine iff_of_true ?_ rfl
    simp only [Growth.call, push_failed hfail]
    exact ⟨rfl, rfl, fun _ => rfl⟩

def fullBuf : GNetBuf :=
  { data := 8, head := 8, tail := 9, end_ := 9, len := 1, truesize := 1, mem := fun _ => 0 }

theorem fullBuf_rep : Rep fullBuf := ⟨le_rfl, rfl, le_rfl, rfl, by norm_num [fullBuf]⟩

def noRealloc : Realloc := fun _ _ _ => none

theorem failed_growth_intact_fullBuf : Intact fullBuf (gNetbufPush noRealloc fullBuf 3) :=
  (failed_growth_intact_iff noRealloc fullBuf 3 .push fullBuf_rep
    ⟨by simp [Growth.Overruns, fullBuf], rfl⟩).2 rfl

/-- After a refused `put` the buffer counts bytes that it does not have. -/
theorem failed_put_moves_tail :
    ¬ ∀ (re : Realloc) (msg : GNetBuf) (len : ℕ) (op : Growth), Rep msg → op.Fails re msg len →
      Intact msg (op.call re msg len) := by
  intro h
  have hf : Growth.put.Fails noRealloc fullBuf 1 := ⟨by simp [Growth.Overruns, fullBuf], rfl⟩
  have hi := h noRealloc fullBuf 1 .put fullBuf_rep hf
  exact put_failed_tail fullBuf_rep hf (congrArg GNetBuf.tail hi.same)

end Irdadump
