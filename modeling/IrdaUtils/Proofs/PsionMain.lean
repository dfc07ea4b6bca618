import Mathlib.Data.List.TakeWhile
import IrdaUtils.Spec.PsionMain

/-! The argument loop of `irpsion5.c` against the switches of the command line. The loop of a
plain `-s` keeps `argc` and `argv` together. Behind `-s --` the pointer is moved on by two and
the element after it is sent first, so that the first name is lost, or the `NULL` is passed. -/

namespace Psion

open Decimal

variable {beyond : List (Option Arg)}

theorem cells_cons (a : Arg) (args : List Arg) :
    cells (a :: args) beyond = .arg a :: cells args beyond := rfl

theorem cells_nil : cells [] beyond = .null :: beyond.map .beyond := rfl

/-! ### The inner loops -/

/-- From the pointer before the names, an inner loop sends those in front that `go` takes and
stops at the pointer before the rest. -/
theorem sendLoop_cells (beyond : List (Option Arg)) (go : Arg → Bool) (args : List Arg) : ∀ (argc : ℤ) (c0 : Cell),
    (sendLoop go argc (c0 :: cells args beyond)).1 = (args.takeWhile go).map .sendfile ∧
      (sendLoop go argc (c0 :: cells args beyond)).2.1 = argc - (args.takeWhile go).length ∧
      (sendLoop go argc (c0 :: cells args beyond)).2.2.tail = cells (args.dropWhile go) beyond := by
  induction args with
  | nil =>
    intro argc c0
    rw [cells_nil]
    simp [sendLoop, Cell.ptr, Cell.read, cells_nil]
  | cons a args ih =>
    intro argc c0
    rw [cells_cons]
    by_cases hgo : go a = true
    · obtain ⟨h1, h2, h3⟩ := ih (argc - 1) (.arg a)
      simp only [sendLoop, Cell.ptr, Cell.read, hgo, if_true, List.nil_append, h1, h2, h3,
        List.takeWhile_cons_of_pos, List.dropWhile_cons_of_pos, List.map_cons, List.length_cons]
      refine ⟨trivial, ?_, trivial⟩
      push_cast
      ring
    · simp [sendLoop, Cell.ptr, Cell.read, hgo, cells_cons]

/-- Behind the `NULL` the first thing that an inner loop does is to read too far. -/
theorem sendLoop_null_ne (go : Arg → Bool) (argc : ℤ) :
    (sendLoop go argc (cells [] beyond)).1 ≠ [] := by
  rw [cells_nil]
  cases beyond with
  | nil => simp [sendLoop]
  | cons p ps =>
    rw [List.map_cons, sendLoop]
    split
    · simp [Cell.read]
    · split_ifs <;> simp [Cell.read]

/-! ### The outer loop -/

/-- The events of the turns that follow. -/
def goOn : Option (ℤ × List Cell) → List Event
  | none => []
  | some next => mainLoop next.1 next.2

theorem mainLoop_turn {argc : ℤ} (h : 0 < argc) (a : Arg) (rest : List Cell) :
    mainLoop argc (.arg a :: rest) =
      (turn argc (.arg a) a rest).1 ++ goOn (turn argc (.arg a) a rest).2 := by
  rw [mainLoop, if_neg (not_le.2 h)]
  simp only [Cell.ptr, Cell.read, List.nil_append]
  split
  · rename_i e
    rw [e, goOn, List.append_nil]
  · rename_i next e
    rw [e, goOn]

theorem mainLoop_end (argc : ℤ) : mainLoop argc (cells [] beyond) = [] := by
  rw [cells_nil, mainLoop]
  simp [Cell.read, Cell.ptr]

/-- A plain `-s` sends the names up to the next switch, and the loop goes on there. -/
theorem turn_send (argc : ℤ) {args : List Arg} (hdash : args.head? ≠ some (ascii "--")) :
    turn argc (.arg (ascii "-s")) (ascii "-s") (cells args beyond) =
      ((args.takeWhile isName).map .sendfile,
        some (argc - (args.takeWhile isName).length - 1, cells (args.dropWhile isName) beyond)) := by
  obtain ⟨h1, h2, h3⟩ := sendLoop_cells beyond isName args argc (.arg (ascii "-s"))
  rw [← h1, ← h2, ← h3, turn, if_pos rfl]
  cases args with
  | nil => simp [cells_nil, Cell.read, Cell.ptr, sendSwitch]
  | cons a args =>
    have ha : a ≠ ascii "--" := fun e => hdash (by rw [e]; rfl)
    simp [cells_cons, Cell.read, Cell.ptr, sendSwitch, ha]

theorem turn_sendAny (argc : ℤ) (names : List Arg) :
    turn argc (.arg (ascii "-s")) (ascii "-s") (cells (ascii "--" :: names) beyond) =
      ((sendLoop (fun _ => true) argc (cells names beyond)).1,
        some ((sendLoop (fun _ => true) argc (cells names beyond)).2.1 - 1,
          (sendLoop (fun _ => true) argc (cells names beyond)).2.2.tail)) := by
  rw [turn, if_pos rfl, cells_cons]
  simp [Cell.read, Cell.ptr, sendSwitch]

theorem numberSwitch_cons (set : BitVec 32 → Event) (argc : ℤ) (n : Arg) (args : List Arg) :
    numberSwitch set argc (cells (n :: args) beyond) =
      ([set (atoi n)], some (argc - 2, cells args beyond)) := rfl

theorem numberSwitch_nil (set : BitVec 32 → Event) (argc : ℤ) :
    numberSwitch set argc (cells [] beyond) = ([.atoiNull], none) := rfl

/-- The first name behind `--` is not sent. -/
theorem mainLoop_sendAny_cons {argc : ℤ} (h : 0 < argc) (a : Arg) (names : List Arg) :
    mainLoop argc (cells (ascii "-s" :: ascii "--" :: a :: names) beyond) =
      names.map .sendfile := by
  obtain ⟨h1, -, h3⟩ := sendLoop_cells beyond (fun _ => true) names argc (.arg a)
  have htake : names.takeWhile (fun _ => true) = names :=
    List.takeWhile_eq_self_iff.2 fun _ _ => rfl
  have hdrop : names.dropWhile (fun _ => true) = [] := List.dropWhile_eq_nil_iff.2 fun _ _ => rfl
  rw [cells_cons, mainLoop_turn h, turn_sendAny, goOn, cells_cons, h1, h3, htake, hdrop,
    mainLoop_end, List.append_nil]

theorem mainLoop_sendAny_ne {argc : ℤ} (h : 0 < argc) (names : List Arg) :
    mainLoop argc (cells (ascii "-s" :: ascii "--" :: names) beyond) ≠ names.map .sendfile := by
  cases names with
  | nil =>
    rw [cells_cons, mainLoop_turn h, turn_sendAny, goOn]
    intro e
    exact sendLoop_null_ne _ argc (List.append_eq_nil_iff.1 e).1
  | cons a names =>
    rw [mainLoop_sendAny_cons h]
    intro e
    have hlen := congrArg List.length e
    simp at hlen

/-! ### Command lines -/

/-- `main` does what the switches `sws` of `args` say, unless `-s --` is among them. -/
def Right (beyond : List (Option Arg)) (args : List Arg) (sws : List Switch) : Prop :=
  mainLoop args.length (cells args beyond) = sws.flatMap Switch.events ↔
    ∀ names, .sendAny names ∉ sws

/-- A turn that does what its switch says and leaves the loop at the next one. -/
theorem Right.cons {a : Arg} {args args' : List Arg} {sw : Switch} {sws : List Switch}
    (hturn : turn (a :: args).length (.arg a) a (cells args beyond) =
      (sw.events, some ((args'.length : ℤ), cells args' beyond)))
    (hsw : ∀ names, sw ≠ .sendAny names) (ih : Right beyond args' sws) :
    Right beyond (a :: args) (sw :: sws) := by
  have hpos : (0 : ℤ) < (a :: args).length := by simp
  have hmem : (∀ names, .sendAny names ∉ sw :: sws) ↔ ∀ names, .sendAny names ∉ sws := by
    refine forall_congr' fun names => ?_
    rw [List.mem_cons, not_or]
    exact and_iff_right fun e => hsw names e.symm
  rw [Right, cells_cons, mainLoop_turn hpos, hturn, goOn, List.flatMap_cons,
    List.append_cancel_left_eq, hmem]
  exact ih

/-- A turn with which the program ends. -/
theorem Right.last {a : Arg} {args : List Arg} {sw : Switch}
    (hturn : turn (a :: args).length (.arg a) a (cells args beyond) = (sw.events, none))
    (hsw : ∀ names, sw ≠ .sendAny names) : Right beyond (a :: args) [sw] := by
  have hpos : (0 : ℤ) < (a :: args).length := by simp
  refine iff_of_true ?_ fun names => ?_
  · rw [cells_cons, mainLoop_turn hpos, hturn, goOn, List.flatMap_singleton, List.append_nil]
  · rw [List.mem_singleton]
    exact fun e => hsw names e.symm

theorem Right.sendAny (names : List Arg) :
    Right beyond (ascii "-s" :: ascii "--" :: names) [.sendAny names] := by
  refine iff_of_false ?_ fun h => h names (List.mem_singleton.2 rfl)
  rw [List.flatMap_singleton]
  exact mainLoop_sendAny_ne (Int.natCast_pos.2 (Nat.succ_pos _)) names

theorem Right.send {args : List Arg} (hdash : args.head? ≠ some (ascii "--")) {sws : List Switch}
    (ih : Right beyond (args.dropWhile isName) sws) :
    Right beyond (ascii "-s" :: args) (.send (args.takeWhile isName) :: sws) := by
  refine .cons ?_ (by simp) ih
  have hlen := congrArg List.length (List.takeWhile_append_dropWhile (p := isName) (l := args))
  rw [List.length_append] at hlen
  rw [turn_send _ hdash, Switch.events, List.length_cons, ← hlen]
  congr 3
  push_cast
  ring

theorem length_sub_one (a : Arg) (args : List Arg) :
    ((a :: args).length : ℤ) - 1 = args.length := by
  rw [List.length_cons]
  push_cast
  ring

theorem length_sub_two (a n : Arg) (args : List Arg) :
    ((a :: n :: args).length : ℤ) - 2 = args.length := by
  simp only [List.length_cons]
  push_cast
  ring

theorem right_switches (args : List Arg) : Right beyond args (switches args) := by
  fun_induction switches args with
  | case1 => exact iff_of_true (mainLoop_end _) (by simp)
  | case2 rest h =>
    obtain ⟨names, rfl⟩ : ∃ names, rest = ascii "--" :: names := by
      cases rest with
      | nil => cases h
      | cons d names => exact ⟨names, by rw [Option.some.inj h]⟩
    exact .sendAny names
  | case3 rest h ih => exact .send h ih
  | case4 h => exact .last (by rw [turn, if_neg h, if_pos rfl, numberSwitch_nil]; rfl) (by simp)
  | case5 n rest h ih =>
    refine .cons ?_ (by simp) ih
    rw [turn, if_neg h, if_pos rfl, numberSwitch_cons, length_sub_two]
    rfl
  | case6 h1 h2 =>
    exact .last (by rw [turn, if_neg h1, if_neg h2, if_pos rfl, numberSwitch_nil]; rfl) (by simp)
  | case7 n rest h1 h2 ih =>
    refine .cons ?_ (by simp) ih
    rw [turn, if_neg h1, if_neg h2, if_pos rfl, numberSwitch_cons, length_sub_two]
    rfl
  | case8 rest h1 h2 h3 ih =>
    refine .cons ?_ (by simp) ih
    rw [turn, if_neg h1, if_neg h2, if_neg h3, if_pos rfl, length_sub_one]
    rfl
  | case9 rest h1 h2 h3 h4 ih =>
    refine .cons ?_ (by simp) ih
    rw [turn, if_neg h1, if_neg h2, if_neg h3, if_neg h4, if_pos rfl, length_sub_one]
    rfl
  | case10 rest h1 h2 h3 h4 h5 ih =>
    refine .cons ?_ (by simp) ih
    rw [turn, if_neg h1, if_neg h2, if_neg h3, if_neg h4, if_neg h5, if_pos rfl, length_sub_one]
    rfl
  | case11 rest h1 h2 h3 h4 h5 h6 ih =>
    refine .cons ?_ (by simp) ih
    rw [turn, if_neg h1, if_neg h2, if_neg h3, if_neg h4, if_neg h5, if_neg h6, if_pos rfl,
      length_sub_one]
    rfl
  | case12 a rest h1 h2 h3 h4 h5 h6 h7 =>
    refine .last ?_ (by simp)
    rw [turn, if_neg h1, if_neg h2, if_neg h3, if_neg h4, if_neg h5, if_neg h6, if_neg h7]
    rfl

/-- For every argument vector, whatever stands in memory behind its `NULL`: `main` calls
`sendfile` for the names of every `-s`, once and in order, goes on with the next switch and
reads nothing behind the `NULL`, exactly when no `-s` that it comes to is followed by `--`. -/
theorem names_sent_iff (args : List Arg) (beyond : List (Option Arg)) :
    main args beyond = intended args ↔ ∀ names, .sendAny names ∉ switches args := by
  by_cases h : args = []
  · subst h
    refine iff_of_true rfl ?_
    rw [switches]
    simp
  · rw [main, intended, if_neg h, if_neg h]
    exact right_switches args

/-- With `-s -- a b` the file `a` is not sent. -/
theorem first_name_lost :
    main [ascii "-s", ascii "--", ascii "a", ascii "b"] [] ≠
      intended [ascii "-s", ascii "--", ascii "a", ascii "b"] := by
  have hmain : main [ascii "-s", ascii "--", ascii "a", ascii "b"] [] = [.sendfile (ascii "b")] := by
    rw [main, if_neg (by decide), mainLoop_sendAny_cons (by decide)]
    rfl
  have hint : intended [ascii "-s", ascii "--", ascii "a", ascii "b"] =
      [.sendfile (ascii "a"), .sendfile (ascii "b")] := by
    rw [intended, if_neg (by decide), switches, if_pos rfl, if_pos (by decide)]
    rfl
  rw [hmain, hint]
  decide

end Psion
