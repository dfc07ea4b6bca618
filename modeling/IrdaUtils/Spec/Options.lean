import IrdaUtils.Lib.Decimal
import IrdaUtils.Spec.Decoder

/-! The option loop of `main.c`. A command line is given as `getopt` returns it. What the
program prints is left out. -/

namespace Irdadump

open Decimal (atoi)

/-- The options that come back to the loop. -/
inductive Opt where
  | b
  | c (optarg : List UInt8)
  | d
  | i (optarg : List UInt8)
  | l
  | p
  | r (optarg : List UInt8)
  | s (optarg : List UInt8)
  | t
  | w (optarg : List UInt8)
  | x
  deriving DecidableEq, Repr

/-- What `getopt` returns: an unknown option is a question mark too. -/
inductive Getopt where
  | opt (o : Opt)
  | version
  | usage
  deriving DecidableEq, Repr

/-- The variables that the loop sets; `lineBuffered` is the mode of `stdout`. -/
structure Vars where
  cfg : Config
  ifdev : Option (List UInt8)
  readfilename : Option (List UInt8)
  writefilename : Option (List UInt8)
  lineBuffered : Bool

def Vars.init : Vars := ⟨{}, none, none, none, false⟩

/-- The number of an option, or the default that stands for all that are not positive. -/
def positiveOr (default : ℕ) (optarg : List UInt8) : ℕ :=
  if (atoi optarg).toInt ≤ 0 then default else (atoi optarg).toInt.toNat

def Vars.optionT (vs : Vars) : Vars := { vs with cfg := { vs.cfg with forceTtp := true } }

def Vars.option (vs : Vars) : Opt → Vars
  | .b => { vs with cfg := { vs.cfg with dumpBytes := true } }
  | .c optarg => { vs with cfg := { vs.cfg with snapcols := positiveOr 16 optarg } }
  | .d => { vs with cfg := { vs.cfg with printDiff := true } }
  | .i optarg => { vs with ifdev := some optarg }
  | .l => { vs with lineBuffered := true }
  | .p => { vs with cfg := { vs.cfg with printIrlap := false } }
  | .r optarg => { vs with readfilename := some optarg }
  -- there is no `break` before the case of `-t`
  | .s optarg =>
    Vars.optionT { vs with cfg := { vs.cfg with snaplen := positiveOr 2050 optarg } }
  | .t => vs.optionT
  | .w optarg => { vs with writefilename := some optarg }
  | .x => { vs with cfg := { vs.cfg with dumpFrame := true } }

/-- The variables behind the loop, or the status that it exits with. -/
def optionLoop : Vars → List Getopt → Except ℕ Vars
  | vs, [] => .ok vs
  | vs, .opt o :: gs => optionLoop (vs.option o) gs
  | _, .version :: _ => .error 0
  | _, .usage :: _ => .error 1

/-! ### The variables one by one -/

inductive Var where
  | dumpBytes
  | snapcols
  | printDiff
  | printIrlap
  | snaplen
  | forceTtp
  | dumpFrame
  | ifdev
  | readfilename
  | writefilename
  deriving DecidableEq, Repr

inductive Value where
  | flag (b : Bool)
  | number (n : ℕ)
  | name (s : Option (List UInt8))
  deriving DecidableEq, Repr

def Vars.get (v : Var) (vs : Vars) : Value :=
  match v with
  | .dumpBytes => .flag vs.cfg.dumpBytes
  | .snapcols => .number vs.cfg.snapcols
  | .printDiff => .flag vs.cfg.printDiff
  | .printIrlap => .flag vs.cfg.printIrlap
  | .snaplen => .number vs.cfg.snaplen
  | .forceTtp => .flag vs.cfg.forceTtp
  | .dumpFrame => .flag vs.cfg.dumpFrame
  | .ifdev => .name vs.ifdev
  | .readfilename => .name vs.readfilename
  | .writefilename => .name vs.writefilename

/-- The variable that the manual page and the usage text give an option for. -/
def Opt.documented : Opt → Option Var
  | .b => some .dumpBytes
  | .c _ => some .snapcols
  | .d => some .printDiff
  | .i _ => some .ifdev
  | .l => none
  | .p => some .printIrlap
  | .r _ => some .readfilename
  | .s _ => some .snaplen
  | .t => some .forceTtp
  | .w _ => some .writefilename
  | .x => some .dumpFrame

def Opt.sets (v : Var) (o : Opt) : Bool := o.documented == some v

end Irdadump
