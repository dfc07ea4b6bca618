import IrdaUtils.Sanity.Side
import IrdaUtils.Spec.Traced

/-! The walks over parameters on arbitrary bytes. A length byte takes the walk at least two
bytes on, and what a parameter reads is at most five bytes behind its start, so that neither
the turns nor the bytes that are read depend on what the lengths say. -/

namespace Irdadump
open Memory Accesses

namespace Traced

/-! ### One parameter -/

theorem readsOnly_bytesToUint {P : ℕ → Prop} (s : St) {n : ℕ} (h : ∀ a, n ≤ a → a < n + 4 → P a) :
    ReadsOnly P s.byte (bytesToUint n) (s.be32 n) :=
  .bind (.read (h _ le_rfl (by omega))) <| .bind (.read (h _ (by omega) (by omega))) <|
    .bind (.read (h _ (by omega) (by omega))) <| .bind (.read (h _ (by omega) (by omega))) <|
      .pure _

theorem readsOnly_ircommParamText (s : St) (n : ℕ) :
    ReadsOnly (· ≤ n + 5) s.byte (ircommParamText n (s.byte n &&& 0x7f).toNat)
      (Irdadump.ircommParamText s n) := by
  have hfirst : n + 2 ≤ n + 5 := by omega
  unfold ircommParamText Irdadump.ircommParamText
  simp only
  split_ifs
  · exact .bind (.read hfirst) (.pure _)
  · exact .bind (.read hfirst) (.pure _)
  · exact .bind (readsOnly_bytesToUint s fun a _ h => by omega) (.pure _)
  · exact .bind (.read hfirst) (.pure _)
  · exact .bind (.read hfirst) (.pure _)
  · exact .bind (.read hfirst) (.bind (.read (show n + 3 ≤ n + 5 by omega)) (.pure _))
  · exact .bind (.read hfirst) (.pure _)
  · exact .pure _

theorem readsOnly_irlapParam (env : Env) (s : St) (n : ℕ) :
    ReadsOnly (· ≤ n + 5) s.byte
      (irlapParam env s n (s.byte n &&& 0x7f).toNat (s.byte (n + 1)).toNat)
      (Irdadump.irlapParam env s n) := by
  have hfirst : n + 2 ≤ n + 5 := by omega
  unfold irlapParam Irdadump.irlapParam
  simp only
  split_ifs
  · exact .bind (.read hfirst) (.bind (.read (show n + 3 ≤ n + 5 by omega)) (.pure _))
  · exact .bind (.read hfirst) (.pure _)
  · cases qosTable (s.byte n &&& 0x7f).toNat with
    | none => exact .pure _
    | some t => exact .bind (.read hfirst) (.pure _)

/-- One turn, for a parameter `param` that does on the buffer what `f` says. -/
theorem readsOnly_paramTurn {param : St → ℕ → ℕ → ℕ → Prog St} {f : St → ℕ → St} {s : St} {n : ℕ}
    (h : ReadsOnly (· ≤ n + 5) s.byte
      (param s n (s.byte n &&& 0x7f).toNat (s.byte (n + 1)).toNat) (f s n)) :
    ReadsOnly (· ≤ n + 5) s.byte (paramTurn param (s, n)) (f s n, n + ((s.byte (n + 1)).toNat + 2)) :=
  .bind (.read (show n ≤ n + 5 by omega)) <| .bind (.read (show n + 1 ≤ n + 5 by omega)) <|
    .bind h (.pure _)

/-! ### The walk -/

/-- `walk` is the loop whose turns are made by `f`, and `param` does on the buffer what `f`
does. -/
structure Walks (clen : UInt8) (param : St → ℕ → ℕ → ℕ → Prog St) (f walk : St → ℕ → St) : Prop where
  param : ∀ s n, ReadsOnly (· ≤ n + 5) s.byte
    (param s n (s.byte n &&& 0x7f).toNat (s.byte (n + 1)).toNat) (f s n)
  buf : ∀ s n, (f s n).buf = s.buf
  next : ∀ s n, n < clen.toNat → walk s n = walk (f s n) (n + ((s.byte (n + 1)).toNat + 2))
  done : ∀ s n, ¬ n < clen.toNat → walk s n = s

theorem ircomm_walks (clen : UInt8) :
    Walks clen (fun s n pi _ => do pure (s.append (← ircommParamText n pi)))
      (fun s n => s.append (Irdadump.ircommParamText s n)) (ircommParamsLoop clen.toNat) where
  param s n := .bind (readsOnly_ircommParamText s n) (.pure _)
  buf _ _ := rfl
  next s n hn := by rw [ircommParamsLoop, if_pos hn]
  done s n hn := by rw [ircommParamsLoop, if_neg hn]

theorem irlap_walks (env : Env) (clen : UInt8) :
    Walks clen (irlapParam env) (Irdadump.irlapParam env) (irlapParamsLoop env clen.toNat) where
  param := readsOnly_irlapParam env
  buf := buf_irlapParam env
  next s n hn := by rw [irlapParamsLoop, if_pos hn]
  done s n hn := by rw [irlapParamsLoop, if_neg hn]

/-- The most turns that can follow at `n`. -/
def turnsLeft (clen : UInt8) (n : ℕ) : ℕ := (clen.toNat - n + 1) / 2

theorem turnsLeft_lt {clen : UInt8} {n : ℕ} (hn : n < clen.toNat) (pl : ℕ) :
    turnsLeft clen (n + (pl + 2)) < turnsLeft clen n := by
  unfold turnsLeft
  omega

section Walks

variable {clen : UInt8} {param : St → ℕ → ℕ → ℕ → Prog St} {f walk : St → ℕ → St}

/-- The walk from `s` has come to the place and the state of `p`. -/
def OnWay (walk : St → ℕ → St) (s : St) (p : St × ℕ) : Prop :=
  p.1.buf = s.buf ∧ walk p.1 p.2 = walk s 0

/-- A turn starts below the limit, so that it reads no more than four bytes behind it, and
takes the walk two bytes on, at least. -/
theorem Walks.turn (h : Walks clen param f walk) {s s' : St} {n : ℕ} (hp : OnWay walk s (s', n))
    (hn : n < clen.toNat) :
    let p := (f s' n, n + ((s'.byte (n + 1)).toNat + 2))
    ReadsOnly (· ≤ clen.toNat + 4) s.byte (paramTurn param (s', n)) p ∧ OnWay walk s p ∧
      turnsLeft clen p.2 < turnsLeft clen n := by
  obtain ⟨hbuf, hwalk⟩ := hp
  refine ⟨?_, ⟨(h.buf s' n).trans hbuf, (h.next s' n hn).symm.trans hwalk⟩, turnsLeft_lt hn _⟩
  rw [← byte_of_buf hbuf]
  exact (readsOnly_paramTurn (h.param s' n)).mono fun a ha => by omega

theorem Walks.bounded (h : Walks clen param f walk) (s : St) :
    WalkBounded clen s.byte (parseParams param clen · s) ((walk s 0).pull clen.toNat) := by
  intro turns hturns
  obtain ⟨⟨s', n⟩, ⟨-, hwalk⟩, hc, hloop⟩ := loop_readsOnly (I := OnWay walk s) (s := (s, 0))
    (fun p => turnsLeft clen p.2) (fun p hp hc => h.turn hp (of_decide_eq_true hc)) ⟨rfl, rfl⟩ hturns
  rw [← hwalk, h.done s' n (of_decide_eq_false hc)]
  exact .bind hloop (.pure _)

end Walks

end Traced

/-- Both walks end after at most half as many turns as there are bytes, rounded up, with what the
parsers answer, and read no byte that is more than four behind the limit. -/
theorem parameter_walks_bounded (env : Env) (clen : UInt8) (s : St) :
    WalkBounded clen s.byte (Traced.parseIrcommParams clen · s) (parseIrcommParams clen s) ∧
      WalkBounded clen s.byte (Traced.parseIrlapParams env clen · s) (parseIrlapParams env clen s) := by
  constructor
  · exact (Traced.ircomm_walks clen).bounded s
  · -- the words in front of the parameters leave the buffer as it is
    exact (Traced.irlap_walks env clen).bounded (s.append "\n\tLAP QoS: ")

end Irdadump
