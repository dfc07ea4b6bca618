import IrdaUtils.Lib.Decimal
import IrdaUtils.Lib.Stores

/-! `irattach.c`, how it finds the interfaces of a module: the names in `/proc/net/dev`, and
the instances that `get_module_devices` leaves, one for each new name. An array of names is a
memory with a row of `IFNAMSIZ + 1` bytes for each. -/

namespace Irattach

open Decimal Stores

/-! ### Lines -/

def cstr (bs : List UInt8) : List UInt8 := bs.takeWhile (· ≠ 0)

def readLine : ℕ → List UInt8 → List UInt8 × List UInt8
  | 0, s => ([], s)
  | _ + 1, [] => ([], [])
  | n + 1, b :: s => if b = 0x0a then ([b], s) else (b :: (readLine n s).1, (readLine n s).2)

theorem readLine_rest_le (n : ℕ) (s : List UInt8) : (readLine n s).2.length ≤ s.length := by
  induction n generalizing s with
  | zero => exact le_rfl
  | succ n ih =>
    cases s with
    | nil => exact le_rfl
    | cons b s =>
      rw [readLine]
      split_ifs
      · exact Nat.le_succ _
      · exact (ih s).trans (Nat.le_succ _)

def fgetsAll (n : ℕ) (s : List UInt8) : List (List UInt8) :=
  match s with
  | [] => []
  | b :: s => (readLine (n + 1) (b :: s)).1 :: fgetsAll n (readLine (n + 1) (b :: s)).2
termination_by s.length
decreasing_by
  rw [readLine]
  split_ifs
  · exact Nat.lt_succ_self _
  · exact Nat.lt_succ_of_le (readLine_rest_le n s)

/-! ### Names -/

def ifnamsiz : ℕ := 16

def rowSize : ℕ := ifnamsiz + 1

def getIrdevname (nsize : ℕ) (buf : List UInt8) : Option (List UInt8) :=
  let buf := (cstr buf).dropWhile isSpace
  if buf.take 4 ≠ ascii "irda" then none
  else if 0x3a ∉ buf ∨ (buf.takeWhile (· ≠ 0x3a)).length + 1 > nsize then none
  else some (buf.takeWhile (· ≠ 0x3a))

def rowLog (ifnum : ℕ) (name : List UInt8) : Log := textAt (rowSize * ifnum) name

/-- The loop over the lines behind the header: what it returns, and the writes to `ifnames`. -/
def devlistLoop (maxchars maxnames : ℕ) : List (List UInt8) → ℕ → ℤ × Log
  | [], ifnum => (ifnum, [])
  | buff :: bs, ifnum =>
    match getIrdevname maxchars buff with
    | some name =>
      if ifnum + 1 > maxnames then (-1, rowLog ifnum name)
      else
        let r := devlistLoop maxchars maxnames bs (ifnum + 1)
        (r.1, rowLog ifnum name ++ r.2)
    | none => if ifnum > maxnames then (-1, []) else devlistLoop maxchars maxnames bs ifnum

/-- `file` is `none` when it cannot be opened. -/
def getDevlist (file : Option (List UInt8)) (maxchars maxnames : ℕ) : ℤ × Log :=
  match file with
  | none => (-1, [])
  | some s => devlistLoop maxchars maxnames ((fgetsAll 1022 s).drop 2) 0

def row (m : Memory.Mem) (i : ℕ) : List UInt8 := cstr (Memory.load m (rowSize * i) rowSize)

/-! ### Instances -/

/-- The lists before and after the module is loaded, from what the two arrays held before. An
error is the status of an `exit`. -/
def moduleNames (before : Option (List UInt8)) (loaded : Bool) (after : Option (List UInt8))
    (m m' : Memory.Mem) : Except ℤ (List (List UInt8) × List (List UInt8)) :=
  let b := getDevlist before rowSize 10
  if b.1 < 0 then .error (-1)
  else if loaded = false then .error (-1)
  else
    let a := getDevlist after rowSize 15
    if a.1 ≤ 0 then .error (-1)
    else .ok ((List.range b.1.toNat).map (row (play m b.2)), (List.range a.1.toNat).map (row (play m' a.2)))

inductive Pc where
  | loop (i : ℕ)
  /-- In the child, behind the `fork` for the name `i`. -/
  | child (i : ℕ)
  | returned
  deriving DecidableEq, Repr

structure Instance where
  parent : Option ℕ
  pc : Pc
  firstone : ℤ
  device : List UInt8
  deriving DecidableEq, Repr

def searchBefore (name : List UInt8) : List (List UInt8) → ℕ
  | [] => 0
  | b :: bs => if b = name then 0 else searchBefore name bs + 1

def start (device : List UInt8) : Instance := ⟨none, .loop 0, -1, device⟩

/-- Any instance takes the next step; an instance made by a `fork`, which succeeds, comes at
the end. -/
inductive Step (before after : List (List UInt8)) : List Instance → List Instance → Prop where
  | known {s k p i} (h : i < after.length) : s[k]? = some p → p.pc = .loop i →
      searchBefore after[i] before ≠ before.length →
      Step before after s (s.set k { p with pc := .loop (i + 1) })
  | first {s k p i} (h : i < after.length) : s[k]? = some p → p.pc = .loop i →
      searchBefore after[i] before = before.length → ¬ p.firstone ≥ 0 →
      Step before after s (s.set k { p with pc := .loop (i + 1), firstone := i, device := after[i] })
  | fork {s k p i} (h : i < after.length) : s[k]? = some p → p.pc = .loop i →
      searchBefore after[i] before = before.length → p.firstone ≥ 0 →
      Step before after s (s.set k { p with pc := .loop (i + 1) } ++ [{ p with parent := some k, pc := .child i }])
  | child {s k p i} (h : i < after.length) : s[k]? = some p → p.pc = .child i →
      Step before after s (s.set k { p with pc := .returned, device := after[i] })
  | done {s k p i} : s[k]? = some p → p.pc = .loop i → ¬ i < after.length →
      Step before after s (s.set k { p with pc := .returned })

end Irattach
