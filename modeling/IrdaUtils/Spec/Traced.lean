import IrdaUtils.Lib.Accesses
import IrdaUtils.Spec.Irlap
import IrdaUtils.Spec.ObexWire

/-! The loops over parameters and the narrowing of Unicode texts, as programs whose accesses
to the memory of the buffer can be seen. The memory of the first ones starts at `buf->data`. -/

namespace Irdadump
open Memory Accesses

namespace Traced

/-! ### Parameters -/

def bytesToUint (buf : ℕ) : Prog ℕ := do
  let b0 ← read buf
  let b1 ← read (buf + 1)
  let b2 ← read (buf + 2)
  let b3 ← read (buf + 3)
  pure ((b0.toNat * 256 + b1.toNat) * 65536 + (b2.toNat * 256 + b3.toNat))

/-- The `switch` of `parse_ircomm_params`. -/
def ircommParamText (n pi : ℕ) : Prog String :=
  if pi = serviceTypePi then do
    let pvByte ← read (n + 2)
    pure (serviceTypeText pvByte)
  else if pi = portTypePi then do
    let pvByte ← read (n + 2)
    pure (portTypeText pvByte)
  else if pi = dataRatePi then do
    let pvByte ← bytesToUint (n + 2)
    pure s!"Data Rate={fmtInt32 pvByte} "
  else if pi = dataFormatPi then do
    let b ← read (n + 2)
    pure s!"Data Format={fmtX 2 b.toNat} "
  else if pi = flowControlPi then do
    let b ← read (n + 2)
    pure s!"Flow Control={fmtX 2 b.toNat} "
  else if pi = xonXoffCharPi then do
    let xon ← read (n + 2)
    let xoff ← read (n + 3)
    pure s!"XON/XOFF={fmtX 2 xon.toNat},{fmtX 2 xoff.toNat} "
  else if pi = dtelineStatePi then do
    let b ← read (n + 2)
    pure s!"DTEline State={fmtX 2 b.toNat} "
  else pure ""

/-- The `switch` of `parse_irlap_params`. -/
def irlapParam (env : Env) (s : St) (n pi pl : ℕ) : Prog St :=
  if pi = piBaudRate then do
    let b0 ← read (n + 2)
    if 2 ≤ pl then do
      let b1 ← read (n + 3)
      pure (appendQos env s "Baud Rate=" (b0.toNat + b1.toNat * 256) baudRates "bps ")
    else pure (appendQos env s "Baud Rate=" b0.toNat baudRates "bps ")
  else
    match qosTable pi with
    | some (label, array, unit) => do
      let pvByte ← read (n + 2)
      pure (appendQos env s label pvByte.toNat array unit)
    | none => pure s

/-- The body of both loops: the step is the length byte and 2, whatever `param` reads. -/
def paramTurn (param : St → ℕ → ℕ → ℕ → Prog St) (p : St × ℕ) : Prog (St × ℕ) := do
  let pi ← read p.2
  let pl ← read (p.2 + 1)
  let s ← param p.1 p.2 (pi &&& 0x7f).toNat pl.toNat
  pure (s, p.2 + (pl.toNat + 2))

/-- `while (n < clen)`, with at most that many turns, and the `g_netbuf_pull` behind it. -/
def parseParams (param : St → ℕ → ℕ → ℕ → Prog St) (clen : UInt8) (turns : ℕ) (s : St) :
    Prog (Option St) := do
  let r ← loop (fun p => pure (p.2 < clen.toNat)) (paramTurn param) turns (s, 0)
  pure (r.map fun p => p.1.pull clen.toNat)

def parseIrcommParams (clen : UInt8) (turns : ℕ) (s : St) : Prog (Option St) :=
  parseParams (fun s n pi _ => do pure (s.append (← ircommParamText n pi))) clen turns s

def parseIrlapParams (env : Env) (clen : UInt8) (turns : ℕ) (s : St) : Prog (Option St) :=
  parseParams (irlapParam env) clen turns (s.append "\n\tLAP QoS: ")

/-! ### Unicode -/

/-- `buf2[n] = buf[n*2+1]`, and whether the byte is not zero. The index is an `int`, which has
room for every place in an array of up to 2^31 bytes. -/
def unicodeToCharCond (buf n : ℕ) : Prog Bool := do
  let b ← read (buf + (n * 2 + 1))
  write (buf + n) b
  pure (b ≠ 0)

/-- The answer is `n` behind the loop. -/
def unicodeToChar (buf turns : ℕ) : Prog (Option ℕ) :=
  loop (unicodeToCharCond buf) (fun n => pure (n + 1)) turns 0

end Traced

/-- However many turns from `(clen + 1) / 2` on are allowed, the loop ends with `result`; it
reads no byte behind `clen + 4` and writes none. -/
def WalkBounded (clen : UInt8) (m : Mem) (walk : ℕ → Prog (Option St)) (result : St) : Prop :=
  ∀ turns, (clen.toNat + 1) / 2 ≤ turns →
    ReadsOnly (· ≤ clen.toNat + 4) m (walk turns) (some result)

/-- The array at `buf` starts with the units `us`, high byte first, and the last of them is the
first one whose low byte is zero. -/
structure HoldsUnits (m : Mem) (buf : ℕ) (us : List (UInt8 × UInt8)) : Prop where
  pos : 0 < us.length
  bytes : load m buf (2 * us.length) = ObexHeader.units us
  first : ∀ i (h : i < us.length), us[i].2 = 0 ↔ i + 1 = us.length

/-- The low bytes of the units `us` are at the start of the array, where only the last one is
zero, and nothing else has changed; what was read is inside the units and was not written
before. -/
structure Narrowed (m : Mem) (buf : ℕ) (us : List (UInt8 × UInt8)) (o : Effect (Option ℕ)) :
    Prop where
  ends : o.val = some (us.length - 1)
  low : load o.mem buf us.length = us.map Prod.snd
  zero : ∀ i < us.length, o.mem (buf + i) = 0 ↔ i + 1 = us.length
  rest : ∀ x, x < buf ∨ buf + us.length ≤ x → o.mem x = m x
  fresh : ReadsFresh o.trace
  inside : ∀ a, .read a ∈ o.trace → buf ≤ a ∧ a < buf + 2 * us.length

end Irdadump
