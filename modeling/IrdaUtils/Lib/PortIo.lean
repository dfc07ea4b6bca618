import Mathlib.Tactic

/-! Programs that access I/O ports, run against hardware that may answer a read with any
byte, also depending on all accesses before it. `Only` says that all accesses of a program
are of one kind, and `Bracketed` that they come in sessions, each opened by its keys and
closed by its exit key. -/

namespace PortIo

inductive Access where
  | out (value : UInt8) (port : UInt16)
  | inn (value : UInt8) (port : UInt16)
  deriving DecidableEq, Repr

def Access.port : Access → UInt16
  | .out _ port => port
  | .inn _ port => port

/-- What a read answers, from the accesses so far and the port. -/
abbrev Hardware := List Access → UInt16 → UInt8

def Io (α : Type) : Type := Hardware → List Access → α × List Access

instance : Monad Io where
  pure a := fun _ t => (a, t)
  bind m f := fun hw t => f (m hw t).1 hw (m hw t).2

/-- What is left of an `int` in the byte that goes out. -/
def toByte (z : BitVec 32) : UInt8 := UInt8.ofBitVec (z.setWidth 8)

def outb (value : UInt8) (port : UInt16) : Io Unit := fun _ t => ((), t ++ [.out value port])

def inb (port : UInt16) : Io UInt8 := fun hw t => (hw t port, t ++ [.inn (hw t port) port])

variable {α β : Type}

theorem pure_run (a : α) (hw : Hardware) (t : List Access) : (pure a : Io α) hw t = (a, t) := rfl

theorem outb_run (value : UInt8) (port : UInt16) (hw : Hardware) (t : List Access) :
    outb value port hw t = ((), t ++ [.out value port]) := rfl

theorem inb_run (port : UInt16) (hw : Hardware) (t : List Access) :
    inb port hw t = (hw t port, t ++ [.inn (hw t port) port]) := rfl

theorem bind_run (m : Io α) (f : α → Io β) (hw : Hardware) (t : List Access) :
    (m >>= f) hw t = f (m hw t).1 hw (m hw t).2 := rfl

theorem ite_run (c : Prop) [Decidable c] (m m' : Io α) (hw : Hardware) (t : List Access) :
    (if c then m else m') hw t = if c then m hw t else m' hw t := by
  split <;> rfl

/-- All accesses of the program meet `P`. -/
def Only (P : Access → Prop) (m : Io α) : Prop :=
  ∀ hw t, ∃ body, (m hw t).2 = t ++ body ∧ ∀ a ∈ body, P a

section Only

variable {P : Access → Prop}

theorem Only.pure (a : α) : Only P (pure a : Io α) :=
  fun _ t => ⟨[], (List.append_nil t).symm, by simp⟩

theorem Only.outb {value : UInt8} {port : UInt16} (h : P (.out value port)) :
    Only P (outb value port) :=
  fun _ t => ⟨[.out value port], rfl, by simpa using h⟩

theorem Only.inb {port : UInt16} (h : ∀ value, P (.inn value port)) : Only P (inb port) :=
  fun hw t => ⟨[.inn (hw t port) port], rfl, by simpa using h _⟩

theorem Only.bind {m : Io α} {f : α → Io β} (hm : Only P m) (hf : ∀ a, Only P (f a)) :
    Only P (m >>= f) := by
  intro hw t
  obtain ⟨b1, h1, hb1⟩ := hm hw t
  obtain ⟨b2, h2, hb2⟩ := hf (m hw t).1 hw (m hw t).2
  refine ⟨b1 ++ b2, ?_, ?_⟩
  · change (f (m hw t).1 hw (m hw t).2).2 = _
    rw [h2, h1, List.append_assoc]
  · intro a ha
    rcases List.mem_append.1 ha with h | h
    · exact hb1 a h
    · exact hb2 a h

/-- What all turns of a loop give. -/
def gather {κ : Type} (f : κ → Io (List α)) : List κ → Io (List α)
  | [] => pure []
  | k :: ks => do
    let as ← f k
    let bs ← gather f ks
    pure (as ++ bs)

theorem Only.gather {κ : Type} {f : κ → Io (List α)} {ks : List κ} (hf : ∀ k ∈ ks, Only P (f k)) :
    Only P (gather f ks) := by
  induction ks with
  | nil => exact .pure []
  | cons k ks ih =>
    obtain ⟨hk, hks⟩ := List.forall_mem_cons.1 hf
    exact .bind hk fun _ => .bind (ih hks) fun _ => .pure _

end Only

/-! ### Given answers -/

def Access.isRead : Access → Bool
  | .out _ _ => false
  | .inn _ _ => true

def reads (t : List Access) : ℕ := t.countP Access.isRead

/-- The reads are answered in turn, with the bytes of `rs`. -/
def replies (rs : ℕ → UInt8) : Hardware := fun t _ => rs (reads t)

@[simp] theorem reads_nil : reads [] = 0 := rfl

@[simp] theorem reads_append (t u : List Access) : reads (t ++ u) = reads t + reads u :=
  List.countP_append

@[simp] theorem reads_out (value : UInt8) (port : UInt16) (t : List Access) :
    reads (.out value port :: t) = reads t :=
  List.countP_cons_of_neg Bool.false_ne_true

@[simp] theorem reads_inn (value : UInt8) (port : UInt16) (t : List Access) :
    reads (.inn value port :: t) = reads t + 1 :=
  List.countP_cons_of_pos rfl

/-! ### Sessions -/

/-- The keys that open a configuration mode at a port, and the key that closes it. -/
structure Entry where
  port : UInt16
  keys : List UInt8
  exitKey : UInt8
  deriving DecidableEq, Repr

structure Session where
  entry : Entry
  body : List Access

def Session.trace (s : Session) : List Access :=
  s.entry.keys.map (Access.out · s.entry.port) ++ s.body ++ [.out s.entry.exitKey s.entry.port]

/-- `port` is opened, `m` runs, and `port` is closed. -/
def session (e : Entry) (m : Io α) : Io α := do
  e.keys.forM fun key => outb key e.port
  let a ← m
  outb e.exitKey e.port
  pure a

/-- From every point, the program makes one session for each of a first part of `entries`,
of all of them if it answers 0, and nothing else; inside the sessions `P` holds. -/
def Bracketed (P : Access → Prop) (entries : List Entry) (m : Io ℕ) : Prop :=
  ∀ hw t, ∃ ss : List Session, (m hw t).2 = t ++ ss.flatMap Session.trace ∧
    ss.map Session.entry <+: entries ∧ ((m hw t).1 = 0 → ss.map Session.entry = entries) ∧
    ∀ s ∈ ss, ∀ a ∈ s.body, P a

theorem keys_run (keys : List UInt8) (port : UInt16) (hw : Hardware) :
    ∀ t, ((keys.forM fun key => outb key port) hw t).2 = t ++ keys.map (Access.out · port) := by
  induction keys with
  | nil => intro t; exact (List.append_nil t).symm
  | cons k ks ih =>
    intro t
    change ((ks.forM fun key => outb key port) hw (t ++ [.out k port])).2 = _
    rw [ih, List.append_assoc]
    rfl

section Bracketed

variable {P : Access → Prop}

theorem Bracketed.session {e : Entry} {m : Io ℕ} (hm : Only P m) :
    Bracketed P [e] (session e m) := by
  intro hw t
  obtain ⟨body, hb, hP⟩ := hm hw ((e.keys.forM fun key => outb key e.port) hw t).2
  refine ⟨[⟨e, body⟩], ?_, List.prefix_refl _, fun _ => rfl, by simpa using hP⟩
  change (m hw ((e.keys.forM fun key => outb key e.port) hw t).2).2 ++ _ = _
  rw [hb, keys_run]
  simp [Session.trace, List.append_assoc]

/-- The loop `for (k in ks) if (r == 0) r = f k`. -/
def whileZero {κ : Type} (f : κ → Io ℕ) : List κ → ℕ → Io ℕ
  | [], r => pure r
  | k :: ks, r => if r = 0 then f k >>= whileZero f ks else pure r

theorem Bracketed.pure_nil (r : ℕ) : Bracketed P [] (pure r) :=
  fun _ t => ⟨[], (List.append_nil t).symm, List.prefix_refl _, fun _ => rfl, by simp⟩

/-- A loop makes the sessions of its turns, one turn behind the other. -/
theorem Bracketed.whileZero {κ : Type} {f : κ → Io ℕ} {entries : κ → List Entry}
    (ks : List κ) (hf : ∀ k ∈ ks, Bracketed P (entries k) (f k)) :
    Bracketed P (ks.flatMap entries) (whileZero f ks 0) := by
  induction ks with
  | nil => exact .pure_nil 0
  | cons k ks ih =>
    intro hw t
    obtain ⟨ss, htr, hpre, hall, hP⟩ := hf k (by simp) hw t
    have hrun : PortIo.whileZero f (k :: ks) 0 hw t =
        PortIo.whileZero f ks (f k hw t).1 hw (f k hw t).2 := rfl
    rw [hrun]
    by_cases h0 : (f k hw t).1 = 0
    · obtain ⟨ss', htr', hpre', hall', hP'⟩ := ih (fun k' hk' => hf k' (by simp [hk'])) hw (f k hw t).2
      rw [h0]
      refine ⟨ss ++ ss', ?_, ?_, ?_, ?_⟩
      · rw [htr', htr, List.flatMap_append, List.append_assoc]
      · rw [List.map_append, hall h0, List.flatMap_cons]
        exact (List.prefix_append_right_inj _).2 hpre'
      · intro hr
        rw [List.map_append, hall h0, hall' hr, List.flatMap_cons]
      · intro s hs
        rcases List.mem_append.1 hs with h | h
        · exact hP s h
        · exact hP' s h
    · have hstop : PortIo.whileZero f ks (f k hw t).1 hw (f k hw t).2 = f k hw t := by
        cases ks with
        | nil => rfl
        | cons k' ks =>
          rw [PortIo.whileZero, if_neg h0]
          rfl
      rw [hstop]
      refine ⟨ss, htr, ?_, fun h => absurd h h0, hP⟩
      rw [List.flatMap_cons]
      exact hpre.trans (List.prefix_append _ _)

end Bracketed

end PortIo
