import IrdaUtils.Spec.Tracking

/-! What connection tracking is for: a ledger with the protocols of every open connection,
by link and selectors. A `CONNECT_CMD` for the selector of the last IAS answer opens a
connection with the protocols that were asked for, and a `DISCONNECT` or a LAP `DISC`
closes it. The table of `irlap.c` stands for this ledger; `Sanity/Ledger` says when. -/

namespace Irdadump

/-- The protocols of the open connections, by connection address and selectors. -/
abbrev Ledger := UInt8 → UInt8 × UInt8 → Option Flags

namespace Ledger

def empty : Ledger := fun _ _ => none

def set (L : Ledger) (caddr : UInt8) (p : UInt8 × UInt8) (o : Option Flags) : Ledger :=
  fun c q => if c = caddr ∧ q = p then o else L c q

def clear (L : Ledger) (caddr : UInt8) : Ledger :=
  fun c q => if c = caddr then none else L c q

/-- The ledger behind a frame; `q` is `last_ias` before it. -/
def next (q : IasQuery) (L : Ledger) : Pdu → Ledger
  | .lm h .connectCmd =>
    if h.dlsapSel = q.lsapSel then L.set h.caddr h.pair (some q.flags) else L
  | .lm h .disconnect => L.set h.caddr h.pair none
  | .lapDisc caddr => L.clear caddr
  | _ => L

end Ledger

/-- The parsers of a `CONNECT_RSP` for an open connection, or for an unknown one. -/
def rspCalls (cfg : Config) (h : LmHead) : Option Flags → List Parser
  | some fl => fl.connectCalls
  | none => whenFlag (cfg.forceTtp && h.slsapSel != 0) [.irttpConnect]

/-- The parsers of a data frame, behind those of the information service. -/
def dataCalls (cfg : Config) (h : LmHead) : Option Flags → List Parser
  | some fl => fl.dataCalls
  | none => whenFlag (h.dlsapSel != 0 && h.slsapSel != 0 && cfg.forceTtp) [.irttp]

/-- A `CONNECT_RSP` or a data frame was decoded to `s` as one of the connection `o`. An
unknown connection is the index `-1`. The other frames may do as they like. -/
def DecodedAs (cfg : Config) (q : IasQuery) (o : Option Flags) (s : St) : Pdu → Prop
  | .lm h .connectRsp =>
    s.picked.map (Option.map LsapState.flags) = [o] ∧ s.names = rspCalls cfg h o
  | .lm h (.data ias) =>
    s.picked.map (Option.map LsapState.flags) = [o] ∧
      s.names = iasCalls q ias ++ dataCalls cfg h o
  | _ => True

/-- The connection that a frame belongs to. -/
def Ledger.entry (L : Ledger) : Pdu → Option Flags
  | .lm h _ => L h.caddr h.pair
  | _ => none

/-- The tracker and the ledger side by side. -/
def ledgerStep (cfg : Config) (x : Tracker × Ledger) (f : Frame) : Tracker × Ledger :=
  ((trackStep cfg x.1 (f.pdu cfg)).tracker, x.2.next x.1.lastIas (f.pdu cfg))

/-- The connections that are open behind the frames `fs`. -/
def openAfter (cfg : Config) (fs : List Frame) : Ledger :=
  (fs.foldl (ledgerStep cfg) (Decoder.init.tracker, Ledger.empty)).2

/-- At most `n` connections are in the ledger. -/
def Ledger.AtMost (n : ℕ) (L : Ledger) : Prop :=
  ∃ S : Finset (UInt8 × UInt8 × UInt8), S.card ≤ n ∧ ∀ c p, L c p ≠ none → (c, p) ∈ S

/-- Every frame of the run is decoded as one of the connection that is open for it. -/
def FollowsLedger (cfg : Config) (fs : List Frame) : Prop :=
  ∀ pre f post, fs = pre ++ f :: post →
    DecodedAs cfg (pre.foldl (decode cfg) Decoder.init).lastIas
      ((openAfter cfg pre).entry (f.pdu cfg))
      (parseFrame cfg (pre.foldl (decode cfg) Decoder.init) f) (f.pdu cfg)

end Irdadump
