import IrdaUtils.Spec.Irdadump

/-! `main.c`: the loop over packets, each with a line of its own, and the count that is printed
at the end. -/

namespace Irdadump

/-- The variables of `main`; `out` has the lines that were printed. -/
structure Program where
  dumper : Dumper
  packets : ℕ
  out : List String

/-- `g_string_truncate (line, 0)` -/
def truncateLine (g : Dumper) : Dumper := { g with st := { g.st with str := "" } }

/-- A turn of the loop; an `exit` ends the program there. -/
def mainTurn (o : ByteOrder.Order) (inp : LoopInput) (p : Program) : Option Program :=
  match irdadumpLoop o inp p.dumper with
  | (.exit, _) => none
  | (.skipped, g) => some { p with dumper := g }
  | (.ok, g) => some ⟨truncateLine g, p.packets + 1, p.out ++ [g.st.str]⟩

/-- Some turns one behind the other. -/
def mainLoop (o : ByteOrder.Order) : List LoopInput → Program → Option Program
  | [], p => some p
  | inp :: inps, p => (mainTurn o inp p).bind (mainLoop o inps)

end Irdadump
