import IrdaUtils.Lib.Memory

/-! Lists of parameters in memory, each one an identifier, a length byte and that many
bytes. A reader walks over them by the length bytes alone and stops at the first
parameter that does not start below a limit. -/

namespace Tlv
open Memory

/-- A parameter; its length byte can hold the length. -/
structure Param where
  id : UInt8
  value : List UInt8
  fits : value.length < 256

namespace Param

def size (p : Param) : ℕ := p.value.length + 2

def encode (p : Param) : List UInt8 := p.id :: UInt8.ofNat p.value.length :: p.value

@[simp] theorem encode_length (p : Param) : p.encode.length = p.size := rfl

end Param

def encode (ps : List Param) : List UInt8 := ps.flatMap Param.encode

/-- The parameters with the places where they start, the first one at `n`. -/
def starts : ℕ → List Param → List (ℕ × Param)
  | _, [] => []
  | n, p :: ps => (n, p) :: starts (n + p.size) ps

/-- The places where the walk from `n` on looks for a parameter. -/
def visits (m : Mem) (clen n : ℕ) : List ℕ :=
  if n < clen then n :: visits m clen (n + ((m (n + 1)).toNat + 2)) else []
termination_by clen - n

theorem visits_next {m : Mem} {clen n : ℕ} (h : n < clen) :
    visits m clen n = n :: visits m clen (n + ((m (n + 1)).toNat + 2)) := by
  rw [visits, if_pos h]

theorem visits_done {m : Mem} {clen n : ℕ} (h : ¬ n < clen) : visits m clen n = [] := by
  rw [visits, if_neg h]

/-- `bs` lies in the memory from `a` on. -/
def Lies (m : Mem) (a : ℕ) (bs : List UInt8) : Prop := load m a bs.length = bs

theorem Lies.byte {m : Mem} {a : ℕ} {bs : List UInt8} (h : Lies m a bs) {i : ℕ}
    (hi : i < bs.length) : m (a + i) = bs.getD i 0 := by
  rw [List.getD_eq_getElem _ _ hi]
  have hl : i < (load m a bs.length).length := by rwa [load_length]
  rw [← load_getElem m a bs.length i hl]
  simp only [show load m a bs.length = bs from h]

theorem lies_append {m : Mem} {a : ℕ} {bs cs : List UInt8} :
    Lies m a (bs ++ cs) ↔ Lies m a bs ∧ Lies m (a + bs.length) cs := by
  unfold Lies
  rw [List.length_append, load_add]
  constructor
  · intro h
    exact List.append_inj h (by simp)
  · rintro ⟨h1, h2⟩
    rw [h1, h2]

theorem encode_cons (p : Param) (ps : List Param) : encode (p :: ps) = p.encode ++ encode ps := rfl

theorem le_of_mem_starts {ps : List Param} : ∀ {n : ℕ} {x : ℕ × Param},
    x ∈ starts n ps → n ≤ x.1 := by
  induction ps with
  | nil => intro n x h; cases h
  | cons p ps ih =>
    intro n x h
    rcases List.mem_cons.1 h with rfl | h
    · exact le_rfl
    · exact le_trans (Nat.le_add_right n p.size) (ih h)

theorem end_le_of_mem_starts {ps : List Param} : ∀ {n : ℕ} {x : ℕ × Param},
    x ∈ starts n ps → x.1 + x.2.size ≤ n + (encode ps).length := by
  induction ps with
  | nil => intro n x h; cases h
  | cons p ps ih =>
    intro n x h
    rw [encode_cons, List.length_append, Param.encode_length]
    rcases List.mem_cons.1 h with rfl | h
    · simp only
      omega
    · have := ih h
      omega

/-- Every parameter lies where it starts. -/
theorem lies_of_mem_starts {m : Mem} {ps : List Param} : ∀ {n : ℕ} {x : ℕ × Param},
    Lies m n (encode ps) → x ∈ starts n ps → Lies m x.1 x.2.encode := by
  induction ps with
  | nil => intro n x _ h; cases h
  | cons p ps ih =>
    intro n x hs h
    obtain ⟨hp, hps⟩ := lies_append.1 (encode_cons p ps ▸ hs)
    rcases List.mem_cons.1 h with rfl | h
    · exact hp
    · exact ih hps h

theorem starts_map_snd (ps : List Param) : ∀ n, (starts n ps).map Prod.snd = ps := by
  induction ps with
  | nil => intro n; rfl
  | cons p ps ih => intro n; rw [starts, List.map_cons, ih]

/-- The length byte of a parameter leads to the next one. -/
theorem visits_cons {m : Mem} {clen n : ℕ} {p : Param} (hp : Lies m n p.encode) (hn : n < clen) :
    visits m clen n = n :: visits m clen (n + p.size) := by
  have hlen : (m (n + 1)).toNat = p.value.length := by
    rw [hp.byte (by simp [Param.encode])]
    simp [Param.encode, Nat.mod_eq_of_lt p.fits]
  rw [visits_next hn, hlen]
  rfl

/-- The walk over a list of parameters that does not reach beyond them visits those that
start below the limit. -/
theorem visits_encode {m : Mem} {clen : ℕ} {ps : List Param} : ∀ {n : ℕ},
    Lies m n (encode ps) → clen ≤ n + (encode ps).length →
    visits m clen n = ((starts n ps).filter fun x => x.1 < clen).map Prod.fst := by
  induction ps with
  | nil =>
    intro n _ hle
    have hn : ¬ n < clen := Nat.not_lt.2 (by simpa [encode] using hle)
    rw [visits_done hn]
    rfl
  | cons p ps ih =>
    intro n hs hle
    obtain ⟨hp, hps⟩ := lies_append.1 (encode_cons p ps ▸ hs)
    rw [Param.encode_length] at hps
    rw [encode_cons, List.length_append, Param.encode_length, ← Nat.add_assoc] at hle
    by_cases hn : n < clen
    · rw [visits_cons hp hn, ih hps hle, starts, List.filter_cons_of_pos (by simpa using hn)]
      rfl
    · rw [visits_done hn, List.filter_eq_nil_iff.2]
      · rfl
      · intro x hx
        have hle' := le_of_mem_starts hx
        simp only [decide_eq_true_eq]
        omega

/-! ### Joined texts -/

section Texts

variable {α : Type*} (text : α → String) (keep : α → Bool)

theorem length_join_filter_le (xs : List α) :
    (String.join ((xs.filter keep).map text)).length ≤ (String.join (xs.map text)).length := by
  induction xs with
  | nil => exact le_rfl
  | cons x xs ih =>
    by_cases hx : keep x = true
    · simp only [List.filter_cons_of_pos hx, List.map_cons, String.join_cons, String.length_append]
      omega
    · simp only [List.filter_cons_of_neg hx, List.map_cons, String.join_cons, String.length_append]
      omega

/-- Leaving items out of a text shows, unless they are empty. -/
theorem join_filter_eq_iff (xs : List α) :
    String.join ((xs.filter keep).map text) = String.join (xs.map text) ↔
      ∀ x ∈ xs, keep x = false → text x = "" := by
  induction xs with
  | nil => simp
  | cons x xs ih =>
    rw [List.forall_mem_cons, ← ih]
    by_cases hx : keep x = true
    · simp only [List.filter_cons_of_pos hx, List.map_cons, String.join_cons, hx,
        Bool.true_eq_false, false_implies, true_and]
      exact String.append_right_inj _
    · simp only [List.filter_cons_of_neg hx, List.map_cons, String.join_cons,
        Bool.eq_false_iff.2 hx, forall_const]
      constructor
      · intro h
        have hle := length_join_filter_le text keep xs
        have hlen := congrArg String.length h
        rw [String.length_append] at hlen
        have h0 : text x = "" := String.length_eq_zero_iff.1 (by omega)
        refine ⟨h0, ?_⟩
        rw [h, h0, String.empty_append]
      · rintro ⟨h0, h⟩
        rw [h0, String.empty_append, h]

end Texts

theorem mem_of_mem_starts {ps : List Param} {n : ℕ} {x : ℕ × Param} (h : x ∈ starts n ps) :
    x.2 ∈ ps := by
  rw [← starts_map_snd ps n]
  exact List.mem_map_of_mem h

/-- A reader that shows each parameter as it is meant, and the unknown ones not at all, shows
all of a list exactly when no known parameter starts at the limit or behind it. -/
theorem shown_iff {m : Mem} {clen n : ℕ} {ps : List Param} (known : Param → Bool)
    (render : Param → String) (text : ℕ → String) (hs : Lies m n (encode ps))
    (hle : clen ≤ n + (encode ps).length) (hknown : ∀ p, render p = "" ↔ known p = false)
    (htext : ∀ x ∈ starts n ps, text x.1 = render x.2) :
    String.join ((visits m clen n).map text) = String.join ((ps.filter known).map render) ↔
      ∀ x ∈ starts n ps, known x.2 = true → x.1 < clen := by
  have hvisited : (visits m clen n).map text =
      ((starts n ps).filter fun x => x.1 < clen).map fun x => render x.2 := by
    rw [visits_encode hs hle, List.map_map]
    exact List.map_congr_left fun x hx => htext x (List.mem_filter.1 hx).1
  have hall : String.join ((ps.filter known).map render) =
      String.join ((starts n ps).map fun x => render x.2) := by
    rw [(join_filter_eq_iff render known ps).2 fun p _ hp => (hknown p).2 hp]
    nth_rewrite 1 [← starts_map_snd ps n]
    rw [List.map_map]
    rfl
  rw [hvisited, hall, join_filter_eq_iff]
  refine forall₂_congr fun x _ => ?_
  rw [hknown, decide_eq_false_iff_not, ← Bool.not_eq_true]
  exact not_imp_not

end Tlv
