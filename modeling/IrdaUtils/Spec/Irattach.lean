import IrdaUtils.Lib.Calls

/-! `irattach.c`, as far as it touches the tty: the setup from the return of `open_tty` to
`pause`, and `cleanup`. Every system call and every assignment of a global is a step of
its own, so that a signal can come between any two of them. -/

namespace Irattach

open Calls

def oNonblock : BitVec 32 := 0x800
def nIrda : ℕ := 11

structure Termios where
  cIflag : BitVec 32
  cOflag : BitVec 32
  cCflag : BitVec 32
  cLflag : BitVec 32
  cLine : UInt8
  cCc : Fin 32 → UInt8
  cIspeed : BitVec 32
  cOspeed : BitVec 32
  deriving DecidableEq

structure Tty where
  flags : BitVec 32
  ldisc : ℕ
  termios : Termios
  deriving DecidableEq

/-- What is left to the kernel: the file flags that `F_SETFL` can change, and what a change
of the line discipline does to the termios of the tty. -/
structure Kernel where
  setflMask : BitVec 32
  ldiscTermios : ℕ → Termios → Termios

def Tty.setfl (k : Kernel) (arg : BitVec 32) (t : Tty) : Tty :=
  { t with flags := (t.flags &&& ~~~k.setflMask) ||| (arg &&& k.setflMask) }

def Tty.setd (k : Kernel) (ldisc : ℕ) (t : Tty) : Tty :=
  { t with ldisc := ldisc, termios := k.ldiscTermios ldisc t.termios }

def Tty.setattr (tios : Termios) (t : Tty) : Tty := { t with termios := tios }

/-- The globals of the process, `tios` of `init_irda_ldisc` and the tty. -/
structure Proc where
  devfd : ℤ
  fdflags : BitVec 32
  initfdflags : BitVec 32
  initdisc : ℤ
  termsave : Termios
  termvalid : ℤ
  tios : Termios
  tty : Tty
  deriving DecidableEq

/-- The process when `open_tty` has returned `fd`. -/
def Proc.opened (fd : ℤ) (termsave tios : Termios) (t : Tty) : Proc where
  devfd := fd
  fdflags := t.flags
  initfdflags := t.flags
  initdisc := -1
  termsave := termsave
  termvalid := -1
  tios := tios
  tty := t

def ttyConfigure (tios : Termios) : Termios :=
  { tios with
    cCflag := 0x30 ||| 0x80 ||| 0x0d ||| 0x800
    cIflag := 0x01 ||| 0x04
    cOflag := 0
    cLflag := 0
    cCc := Function.update (Function.update tios.cCc 6 1) 5 0 }

/-! ### Calls -/

def fcntlSetfl (k : Kernel) (arg : Proc → BitVec 32) (f : OnFailure) : Call Proc :=
  ⟨fun s => { s with tty := s.tty.setfl k (arg s) }, f⟩

def clearNonblock : Call Proc := assign fun s => { s with fdflags := s.fdflags &&& ~~~oNonblock }

/-- A call that neither reads nor changes what is modelled. -/
def other (f : OnFailure) : Call Proc := ⟨id, f⟩

def initIrdaLdisc : List (Call Proc) :=
  [⟨fun s => { s with tios := s.tty.termios }, .ends⟩,
    assign fun s => { s with termsave := s.tios },
    assign fun s => { s with termvalid := 0 },
    assign fun s => { s with tios := ttyConfigure s.tios },
    ⟨fun s => { s with tty := s.tty.setattr s.tios }, .ends⟩]

def establishIrda (k : Kernel) : List (Call Proc) :=
  [other .goesOn,   -- TIOCEXCL
    ⟨fun s => { s with initdisc := s.tty.ldisc }, .ends⟩,
    ⟨fun s => { s with tty := s.tty.setd k nIrda }, .ends⟩]

def startTty (k : Kernel) : List (Call Proc) :=
  [clearNonblock, fcntlSetfl k Proc.fdflags .goesOn] ++
    -- F_GETFD and F_SETFD
    [other .ends, other .ends] ++ initIrdaLdisc ++ establishIrda k ++
    [other .never,   -- sleep
      fcntlSetfl k (fun s => s.fdflags ||| oNonblock) .ends]

/-- `start_tty`, then `IRTTY_IOCGNAME`, the dongle, the two `sysctl` settings and `ifup`. -/
def setup (k : Kernel) : List (Call Proc) :=
  startTty k ++ [other .ends, other .goesOn, other .goesOn, other .goesOn, other .ends]

/-- The first calls of `cleanup`: `ifdown`, and the tty back to blocking mode. -/
def unblock (k : Kernel) : List (Call Proc) :=
  [other .goesOn, clearNonblock, fcntlSetfl k Proc.fdflags .goesOn]

/-- The restoring calls. -/
def restore (k : Kernel) : List (Call Proc) :=
  [⟨fun s => if s.initdisc ≠ -1 then { s with tty := s.tty.setd k s.initdisc.toNat } else s,
      .goesOn⟩,
    ⟨fun s => if s.termvalid ≠ -1 then { s with tty := s.tty.setattr s.termsave } else s,
      .goesOn⟩,
    fcntlSetfl k Proc.initfdflags .goesOn]

def closeTty : Call Proc := assign fun s => { s with devfd := -1 }

/-- The calls of `cleanup`; without a tty there is only the interface to stop. -/
def cleanup (k : Kernel) (s : Proc) : List (Call Proc) :=
  if s.devfd ≠ -1 then unblock k ++ restore k ++ [closeTty] else [other .goesOn]

/-- The states in which `cleanup` can begin: any point of the setup, where a call fails or a
signal comes in, and any point of an earlier `cleanup` that a second signal interrupts
before `close`. -/
inductive Reached (k : Kernel) (s₀ : Proc) : Proc → Prop where
  | setup {rest s} : Reach (setup k) s₀ rest s → Reached k s₀ s
  | again {rest s s'} : Reached k s₀ s → Reach (unblock k ++ restore k) s rest s' →
      Reached k s₀ s'

end Irattach
