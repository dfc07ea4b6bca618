import Mathlib.Tactic

/-! The life of a link of `ircard_cs.c`: attach, card events, the release timer, detach. The
bits of `link->state` are fields, and what Card Services answer is part of the event. -/

namespace Ircard

/-- A `dev_link_t` with its bits, its release timer and `stop` of the driver's data. -/
structure Link where
  id : ℕ
  present : Bool
  config : Bool
  configPending : Bool
  releasePending : Bool
  staleConfig : Bool
  staleLink : Bool
  suspend : Bool
  opens : ℕ
  timer : Bool
  stop : Bool
  deriving DecidableEq, Repr

/-- The structure that `ircard_attach` clears. -/
def Link.fresh (id : ℕ) : Link :=
  ⟨id, false, false, false, false, false, false, false, 0, false, false⟩

/-- `none` is a link that is unlinked and freed. -/
def ircardDetach (link : Link) : Option Link :=
  if link.config then some { link with staleLink := true } else none

/-- A device that is still open postpones its release. -/
def ircardRelease (link : Link) : Link :=
  if link.opens ≠ 0 then { link with staleConfig := true }
  else { link with config := false, releasePending := false }

/-- How `ircard_config` goes: it fails on one of the tuples before `DEV_CONFIG` is set, or
behind that. -/
inductive ConfigResult where
  | ok
  | failsEarly
  | failsLate
  deriving DecidableEq, Repr

def ircardConfig (link : Link) : ConfigResult → Link
  | .ok => { link with config := true, configPending := false }
  | .failsEarly => ircardRelease link
  | .failsLate => ircardRelease { link with config := true }

inductive LinkEvent where
  | cardRemoval
  | cardInsertion (r : ConfigResult)
  | pmSuspend
  | resetPhysical
  | pmResume
  | cardReset
  | releaseTimer
  | detach
  deriving DecidableEq, Repr

/-- `ircard_event`, the timer it starts and `ircard_detach`. -/
def Link.handle (link : Link) : LinkEvent → Option Link
  | .cardRemoval =>
    let link := { link with present := false }
    some (if link.config then { link with stop := true, timer := true } else link)
  | .cardInsertion r => some (ircardConfig { link with present := true, configPending := true } r)
  | .pmSuspend => some { link with suspend := true, stop := true }
  | .resetPhysical => some { link with stop := true }
  | .pmResume => some { link with suspend := false, stop := false }
  | .cardReset => some { link with stop := false }
  | .releaseTimer => some (if link.timer then ircardRelease { link with timer := false } else link)
  | .detach => ircardDetach link

/-- `attach` is with the outcome of `RegisterClient`; `id` stands for the address. -/
inductive DriverEvent where
  | attach (id : ℕ) (registered : Bool)
  | link (id : ℕ) (e : LinkEvent)
  deriving DecidableEq, Repr

def onLink (id : ℕ) (f : Link → Option Link) (devList : List Link) : List Link :=
  devList.filterMap fun link => if link.id = id then f link else some link

/-- A failed registration detaches the new link at once. -/
def ircardAttach (id : ℕ) (registered : Bool) (devList : List Link) : List Link :=
  if id ∈ devList.map Link.id then devList   -- the address is in use
  else
    let devList := Link.fresh id :: devList
    if registered then devList else onLink id ircardDetach devList

def driverStep (devList : List Link) : DriverEvent → List Link
  | .attach id registered => ircardAttach id registered devList
  | .link id e => onLink id (fun link => link.handle e) devList

end Ircard
