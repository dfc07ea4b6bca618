import Mathlib.Data.List.TakeWhile
import IrdaUtils.Lib.Runs
import IrdaUtils.Spec.Irnetd

/-! Which commands `irnetd` runs. Neither the result of `fgets` nor the length of the line is
looked at: when nothing was read the last line is taken once more, and the address of a short
line is filled up with what earlier lines have left. -/

namespace Irnetd

open Memory Runs
open Decimal (ascii)

def command (u : Setup) (addr : List UInt8) : List UInt8 := fixedPart u.args ++ addr ++ ascii "\""

def Line.Req (l : Line) : Prop := l.bytes.take 3 = ascii "Req"

/-- One call for a line that is a request, with the characters 13 to 20 of this line, and no
call otherwise. -/
def LaunchedOnce (u : Setup) (s : State) (o : Outcome) : Prop :=
  match o with
  | .line l =>
    (l.Req → 21 ≤ l.bytes.length ∧ (turn u s o).2 = [command u ((l.bytes.drop 13).take 8)]) ∧
      (¬ l.Req → (turn u s o).2 = [])
  | _ => (turn u s o).2 = []

/-- A request has its address, without a zero byte in it; and when nothing is read, what is
in the array is no request. -/
def Clean (s : State) : Outcome → Prop
  | .line l => l.Req → 21 ≤ l.bytes.length ∧ 0 ∉ (l.bytes.drop 13).take 8
  | .eof => ¬ IsRequest s.line
  | .error line => ¬ IsRequest line

/-- The command in `cmd`, around the address. -/
structure HasCommand (u : Setup) (s : State) : Prop where
  fixed : load s.cmd 0 (endp u) = fixedPart u.args
  close : load s.cmd (endp u + 8) 2 = ascii "\"" ++ [0]

/-! ### Lines -/

theorem isRequest_line (line : Mem) (l : Line) :
    IsRequest (fgets line (.line l)) ↔ l.Req := by
  have hend : (l.bytes ++ [0]).length = l.bytes.length + 1 := by simp
  unfold IsRequest Line.Req fgets
  by_cases h3 : 3 ≤ l.bytes.length
  · have h := load_store_slice line 0 (l.bytes ++ [0]) (i := 0) (n := 3) (by omega)
    rw [List.drop_zero, List.take_append_of_le_length h3] at h
    rw [h]
  · refine iff_of_false ?_ ?_
    · intro h
      have hzero : store line 0 (l.bytes ++ [0]) (0 + l.bytes.length) = 0 := by
        rw [store_inside (by omega), List.getElem_concat_length rfl]
      have hget : (load (store line 0 (l.bytes ++ [0])) 0 3)[l.bytes.length]? = some 0 := by
        rw [List.getElem?_eq_getElem (by rw [load_length]; omega), load_getElem, hzero]
      rw [h] at hget
      have hmem : (0 : UInt8) ∈ ascii "Req" := List.mem_of_getElem? hget
      exact absurd hmem (by decide)
    · intro h
      have hlen := congrArg List.length h
      rw [List.length_take] at hlen
      have : (ascii "Req").length = 3 := by decide
      omega

theorem address_line (line : Mem) {l : Line} (h : 21 ≤ l.bytes.length) :
    load (fgets line (.line l)) 13 8 = (l.bytes.drop 13).take 8 := by
  have hend : (l.bytes ++ [0]).length = l.bytes.length + 1 := by simp
  have hslice := load_store_slice line 0 (l.bytes ++ [0]) (i := 13) (n := 8) (by omega)
  rwa [List.drop_append_of_le_length (by omega),
    List.take_append_of_le_length (by rw [List.length_drop]; omega)] at hslice

/-! ### The command -/

theorem fixedPart_ne_zero (u : Setup) : 0 ∉ fixedPart u.args := by
  have hargs : ∀ a ∈ u.args, 0 ∉ a ++ ascii " " := by
    intro a ha hmem
    rcases List.mem_append.1 hmem with h | h
    · exact u.strings a ha h
    · exact absurd h (by decide)
  unfold fixedPart
  intro h
  rcases List.mem_append.1 h with h | h
  · rcases List.mem_append.1 h with h | h
    · exact absurd h (by decide)
    · split_ifs at h
      · exact absurd h (by decide)
      · obtain ⟨a, ha, hz⟩ := List.mem_flatMap.1 h
        exact hargs a ha hz
  · exact absurd h (by decide)

theorem HasCommand.store {u : Setup} {s : State} (h : HasCommand u s) {addr : List UInt8}
    (hlen : addr.length = 8) (line : Mem) :
    HasCommand u ⟨line, store s.cmd (endp u) addr⟩ := by
  refine ⟨?_, ?_⟩
  · rw [load_store_disjoint (.inl (by omega)), h.fixed]
  · rw [load_store_disjoint (.inr (by omega)), h.close]

theorem forall_ne_zero {l : List UInt8} (h : 0 ∉ l) : ∀ b ∈ l, decide (b ≠ 0) = true := by
  intro b hb
  rw [decide_eq_true_eq]
  rintro rfl
  exact h hb

/-- The command is the fixed part, and then what stands before the next zero byte. -/
theorem commandOf_store_eq {u : Setup} {s : State} (h : HasCommand u s) {addr : List UInt8}
    (hlen : addr.length = 8) :
    commandOf (Memory.store s.cmd (endp u) addr) =
      fixedPart u.args ++ (addr ++ (ascii "\"" ++ [0] ++
        load (Memory.store s.cmd (endp u) addr) (endp u + 8 + 2) (sizeofCmd - (endp u + 10)))).takeWhile
          (· ≠ 0) := by
  obtain ⟨hfixed, hclose⟩ := h.store hlen s.line
  simp only at hfixed hclose
  have haddr : load (Memory.store s.cmd (endp u) addr) (endp u) 8 = addr := by
    rw [← hlen, load_store]
  have hsize : sizeofCmd = endp u + (8 + (2 + (sizeofCmd - (endp u + 10)))) := by
    have hfits := u.fits
    have haux : aux.length = 9 := by decide
    unfold endp sizeofCmd at *
    omega
  rw [commandOf, hsize, load_add, load_add, load_add, Nat.zero_add, hfixed, haddr, hclose, ← hsize,
    List.takeWhile_append_of_pos (forall_ne_zero (fixedPart_ne_zero u))]

/-- The string that starts the array, with the address `addr` in it. -/
theorem commandOf_store {u : Setup} {s : State} (h : HasCommand u s) {addr : List UInt8}
    (hlen : addr.length = 8) :
    commandOf (Memory.store s.cmd (endp u) addr) = command u addr ↔ 0 ∉ addr := by
  rw [commandOf_store_eq h hlen, command, List.append_assoc (fixedPart u.args) addr,
    List.append_cancel_left_eq]
  constructor
  · intro e hz
    -- the address is cut at its zero byte, and with it the closing quote
    have hstop : addr.takeWhile (· ≠ 0) ≠ addr := by
      intro hall
      exact absurd (List.takeWhile_eq_self_iff.1 hall 0 hz) (by decide)
    have hle := (List.takeWhile_prefix (l := addr) (· ≠ 0)).length_le
    have hlt : (addr.takeWhile (· ≠ 0)).length ≠ addr.length := fun h =>
      hstop ((List.takeWhile_prefix _).eq_of_length h)
    rw [List.takeWhile_append, if_neg hlt] at e
    have hcongr := congrArg List.length e
    rw [List.length_append] at hcongr
    omega
  · intro hz
    rw [List.takeWhile_append_of_pos (forall_ne_zero hz)]
    rfl

/-! ### One turn -/

theorem turn_request {u : Setup} {s : State} {o : Outcome} (h : IsRequest (fgets s.line o)) :
    turn u s o = (⟨fgets s.line o, store s.cmd (endp u) (load (fgets s.line o) 13 8)⟩,
      [commandOf (store s.cmd (endp u) (load (fgets s.line o) 13 8))]) := if_pos h

theorem turn_other {u : Setup} {s : State} {o : Outcome} (h : ¬ IsRequest (fgets s.line o)) :
    turn u s o = (⟨fgets s.line o, s.cmd⟩, []) := if_neg h

theorem calls_nil_iff (u : Setup) (s : State) (o : Outcome) :
    (turn u s o).2 = [] ↔ ¬ IsRequest (fgets s.line o) := by
  by_cases h : IsRequest (fgets s.line o)
  · rw [turn_request h]
    simp [h]
  · rw [turn_other h]
    simp [h]

theorem hasCommand_step {u : Setup} {s : State} (h : HasCommand u s) (o : Outcome) :
    HasCommand u (step u s o) := by
  unfold step
  by_cases hr : IsRequest (fgets s.line o)
  · rw [turn_request hr]
    exact h.store (load_length _ _ _) _
  · rw [turn_other hr]
    exact ⟨h.fixed, h.close⟩

theorem launchedOnce_iff {u : Setup} {s : State} (h : HasCommand u s) (o : Outcome) :
    LaunchedOnce u s o ↔ Clean s o := by
  cases o with
  | eof => exact calls_nil_iff u s .eof
  | error line => exact calls_nil_iff u s (.error line)
  | line l =>
    have hother : ¬ l.Req → (turn u s (.line l)).2 = [] := by
      rw [calls_nil_iff, isRequest_line]
      exact id
    refine (and_iff_left hother).trans (imp_congr_right fun hreq => and_congr_right fun hlen => ?_)
    have haddr : ((l.bytes.drop 13).take 8).length = 8 := by
      rw [List.length_take, List.length_drop]
      omega
    rw [turn_request ((isRequest_line s.line l).2 hreq), address_line s.line hlen, List.singleton_inj,
      commandOf_store h haddr]

theorem hasCommand_start (u : Setup) (line cmd : Mem) : HasCommand u (start u line cmd) := by
  have haux : aux = ascii "01235678" ++ ascii "\"" := by decide
  have hsplit : fixedPart u.args ++ aux ++ [0] =
      (fixedPart u.args ++ ascii "01235678") ++ (ascii "\"" ++ [0]) := by
    rw [haux]
    simp only [List.append_assoc]
  have hfront : (fixedPart u.args ++ ascii "01235678").length = endp u + 8 := List.length_append
  have hback : (ascii "\"" ++ [0]).length = 2 := rfl
  refine ⟨?_, ?_⟩
  · have h := load_store_slice cmd 0 (fixedPart u.args ++ (aux ++ [0])) (i := 0) (n := endp u)
      (by rw [List.length_append, endp]; omega)
    rw [start, List.append_assoc, h]
    exact List.take_left
  · have h := load_store_slice cmd 0 ((fixedPart u.args ++ ascii "01235678") ++ (ascii "\"" ++ [0]))
      (i := endp u + 8) (n := 2) (by rw [List.length_append]; omega)
    rw [Nat.zero_add, List.drop_left' hfront, ← hback, List.take_length] at h
    rw [start, hsplit]
    exact h

/-! ### Runs -/

/-- In every sequence of outcomes of `fgets`, whatever the two arrays held at the start: one
command is run for each line that is a request, with the address of this line, and none
otherwise, exactly when every request has its address and no `fgets` that reads nothing
leaves a request in the array. -/
theorem requests_launched_iff (u : Setup) (line cmd : Mem) (os : List Outcome) :
    Along (step u) (LaunchedOnce u) (start u line cmd) os ↔
      Along (step u) Clean (start u line cmd) os := by
  refine along_congr (HasCommand u) ?_ ?_ (hasCommand_start u line cmd)
  · intro s o _ h
    exact launchedOnce_iff h o
  · intro s o _ h _
    exact hasCommand_step h o

/-- A request behind which the file ends: `pppd` is launched again. -/
theorem request_launched_twice :
    let u : Setup := ⟨[], by simp, by decide⟩
    let request : Line := ⟨ascii "Request from 12345678\n", by decide, by decide⟩
    ¬ Along (step u) (LaunchedOnce u) (start u (fun _ => 0) fun _ => 0) [.line request, .eof] := by
  intro u request h
  have heof : (turn u (step u (start u (fun _ => 0) fun _ => 0) (.line request)) .eof).2 = [] := h.2.1
  rw [calls_nil_iff] at heof
  exact heof (by decide)

end Irnetd
