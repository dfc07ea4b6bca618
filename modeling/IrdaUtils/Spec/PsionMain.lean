import IrdaUtils.Lib.Decimal

/-! The argument loop of `irpsion5.c`. `argv` is the list of pointers from the current one on:
the arguments, the `NULL` that ends them, and whatever stands behind it in memory. Reading
there is an event, and so is every call of `main`; `sendfile` and `receivefile` return. -/

namespace Psion

open Decimal

abbrev Arg := List UInt8

inductive Cell where
  | arg (a : Arg)
  | null
  | beyond (p : Option Arg)
  deriving DecidableEq, Repr

def Cell.ptr : Cell → Option Arg
  | .arg a => some a
  | .null => none
  | .beyond p => p

inductive Event where
  | sendfile (filename : Arg)
  | receivefile (mode : ℕ)
  | debugLevel (n : BitVec 32)
  | slotTimeout (n : BitVec 32)
  | verbose (on : Bool)
  | usage
  | unknownSwitch (a : Arg)
  /-- `atoi` of `NULL`, which does not return. -/
  | atoiNull
  | readPastEnd
  /-- There is no memory left to read. -/
  | fault
  deriving DecidableEq, Repr

/-- What reading the pointer adds to the events. -/
def Cell.read : Cell → List Event
  | .beyond _ => [.readPastEnd]
  | _ => []

/-- `*a != '-'` -/
def isName (a : Arg) : Bool := a.head? != some 0x2d

/-- The inner loops: `argv[1]` is sent and `argv` moved on, as long as it is there and `go`
says so. The events, and `argc` and `argv` behind the loop. -/
def sendLoop (go : Arg → Bool) : ℤ → List Cell → List Event × ℤ × List Cell
  | argc, c0 :: c1 :: rest =>
    match c1.ptr with
    | none => (c1.read, argc, c0 :: c1 :: rest)
    | some a =>
      if go a then
        let r := sendLoop go (argc - 1) (c1 :: rest)
        (c1.read ++ .sendfile a :: r.1, r.2)
      else (c1.read, argc, c0 :: c1 :: rest)
  | _, _ => ([.fault], 0, [])

theorem sendLoop_length (go : Arg → Bool) : ∀ (argv : List Cell) (argc : ℤ),
    (sendLoop go argc argv).2.2.length ≤ argv.length := by
  intro argv
  induction argv with
  | nil => intro argc; exact le_rfl
  | cons c0 argv ih =>
    intro argc
    cases argv with
    | nil => exact Nat.zero_le _
    | cons c1 rest =>
      unfold sendLoop
      split
      · exact le_rfl
      · split_ifs
        · exact (ih (argc - 1)).trans (Nat.le_succ _)
        · exact le_rfl

/-- The branch of `-s`, with `argv` at it: behind `--` the names are taken from the pointer
after the next on. The events, and `argc` and `argv` of the next turn if there is one. -/
def sendSwitch (argc : ℤ) (c0 : Cell) : List Cell → List Event × Option (ℤ × List Cell)
  | [] => ([.fault], none)
  | c1 :: rest =>
    let r :=
      if c1.ptr = some (ascii "--") then sendLoop (fun _ => true) argc rest
      else sendLoop isName argc (c0 :: c1 :: rest)
    (c1.read ++ r.1, some (r.2.1 - 1, r.2.2.tail))

/-- The branches of `-D` and `-S`. -/
def numberSwitch (set : BitVec 32 → Event) (argc : ℤ) :
    List Cell → List Event × Option (ℤ × List Cell)
  | [] => ([.fault], none)
  | c1 :: rest =>
    match c1.ptr with
    | none => (c1.read ++ [.atoiNull], none)
    | some n => (c1.read ++ [set (atoi n)], some (argc - 2, rest))

/-- One turn of the outer loop with the argument `a` at `c0`. -/
def turn (argc : ℤ) (c0 : Cell) (a : Arg) (rest : List Cell) :
    List Event × Option (ℤ × List Cell) :=
  if a = ascii "-s" then sendSwitch argc c0 rest
  else if a = ascii "-D" then numberSwitch .debugLevel argc rest
  else if a = ascii "-S" then numberSwitch .slotTimeout argc rest
  else if a = ascii "-r" then ([.receivefile 1], some (argc - 1, rest))
  else if a = ascii "-b" then ([.receivefile 0], some (argc - 1, rest))
  else if a = ascii "-v" then ([.verbose true], some (argc - 1, rest))
  else if a = ascii "-q" then ([.verbose false], some (argc - 1, rest))
  else ([.unknownSwitch a], none)

theorem sendSwitch_length {argc : ℤ} {c0 : Cell} {rest : List Cell} {next : ℤ × List Cell}
    (h : (sendSwitch argc c0 rest).2 = some next) : next.2.length ≤ rest.length := by
  cases rest with
  | nil => cases h
  | cons c1 rest =>
    have hall := sendLoop_length (fun _ => true) rest argc
    have hnames := sendLoop_length isName (c0 :: c1 :: rest) argc
    cases h
    simp only [List.length_tail, List.length_cons] at hnames ⊢
    split_ifs <;> omega

theorem numberSwitch_length {set : BitVec 32 → Event} {argc : ℤ} {rest : List Cell}
    {next : ℤ × List Cell} (h : (numberSwitch set argc rest).2 = some next) :
    next.2.length ≤ rest.length := by
  cases rest with
  | nil => cases h
  | cons c1 rest =>
    simp only [numberSwitch] at h
    split at h
    · cases h
    · cases h
      exact Nat.le_succ _

theorem turn_length {argc : ℤ} {c0 : Cell} {a : Arg} {rest : List Cell} {next : ℤ × List Cell}
    (h : (turn argc c0 a rest).2 = some next) : next.2.length ≤ rest.length := by
  unfold turn at h
  split_ifs at h
  · exact sendSwitch_length h
  · exact numberSwitch_length h
  · exact numberSwitch_length h
  all_goals
    cases h
    exact le_rfl

/-- `for ( ; argc>0 && argv[0] ; argc-- , argv++)` -/
def mainLoop (argc : ℤ) (argv : List Cell) : List Event :=
  if argc ≤ 0 then []
  else
    match argv with
    | [] => [.fault]
    | c0 :: rest =>
      match c0.ptr with
      | none => c0.read
      | some a =>
        match h : (turn argc c0 a rest).2 with
        | none => c0.read ++ (turn argc c0 a rest).1
        | some next =>
          have _ := Nat.lt_succ_of_le (turn_length h)
          c0.read ++ (turn argc c0 a rest).1 ++ mainLoop next.1 next.2
termination_by argv.length

/-- The pointers behind the name of the program. -/
def cells (args : List Arg) (beyond : List (Option Arg)) : List Cell :=
  args.map .arg ++ .null :: beyond.map .beyond

def main (args : List Arg) (beyond : List (Option Arg)) : List Event :=
  if args = [] then [.usage] else mainLoop args.length (cells args beyond)

/-! ### What the command line means -/

/-- A switch with its arguments. `sendAny` is `-s --`, which takes any names to the end. -/
inductive Switch where
  | send (names : List Arg)
  | sendAny (names : List Arg)
  | debug (n : Arg)
  | slot (n : Arg)
  | noNumber
  | receive (mode : ℕ)
  | verbose (on : Bool)
  | unknown (a : Arg)
  deriving DecidableEq, Repr

/-- The switches of a command line, up to the first one that ends the program. -/
def switches : List Arg → List Switch
  | [] => []
  | a :: rest =>
    if a = ascii "-s" then
      if rest.head? = some (ascii "--") then [.sendAny rest.tail]
      else .send (rest.takeWhile isName) :: switches (rest.dropWhile isName)
    else if a = ascii "-D" then
      match rest with
      | [] => [.noNumber]
      | n :: rest => .debug n :: switches rest
    else if a = ascii "-S" then
      match rest with
      | [] => [.noNumber]
      | n :: rest => .slot n :: switches rest
    else if a = ascii "-r" then .receive 1 :: switches rest
    else if a = ascii "-b" then .receive 0 :: switches rest
    else if a = ascii "-v" then .verbose true :: switches rest
    else if a = ascii "-q" then .verbose false :: switches rest
    else [.unknown a]
termination_by args => args.length
decreasing_by
  all_goals simp only [List.length_cons]
  · have := (List.dropWhile_suffix (l := rest) isName).length_le
    omega
  all_goals omega

def Switch.events : Switch → List Event
  | .send names => names.map .sendfile
  | .sendAny names => names.map .sendfile
  | .debug n => [.debugLevel (atoi n)]
  | .slot n => [.slotTimeout (atoi n)]
  | .noNumber => [.atoiNull]
  | .receive mode => [.receivefile mode]
  | .verbose on => [.verbose on]
  | .unknown a => [.unknownSwitch a]

/-- What `main` should do: every name is sent once, in order, and then the next switch is
taken. -/
def intended (args : List Arg) : List Event :=
  if args = [] then [.usage] else (switches args).flatMap Switch.events

end Psion
