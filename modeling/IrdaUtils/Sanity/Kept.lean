import IrdaUtils.Sanity.Tracking

/-! What the LM and LAP layers leave alone, once for all such statements. A relation between
the state before and the state behind a parser that the upper parsers keep, and that does not
look at the connection table, is kept by the frames as well. -/

namespace Irdadump

/-- The state before and behind a parser may differ in the table and the record of its use. -/
structure Kept (R : St → St → Prop) : Prop where
  after : ∀ {s s' s'' : St}, R s' s'' → R s s' → R s s''
  calm : ∀ {ps : List Parser} {s s' : St}, Calm ps s s' → R s s'
  table : ∀ (s : St) (conn : Slot → LsapState), R s { s with dec := { s.dec with conn := conn } }
  cache : ∀ (s : St) (i : Option Slot), R s (s.setCache i)
  pick : ∀ (s : St) (r : Option LsapState), R s (s.pick r)

theorem rel_ite {R : St → St → Prop} {p : Prop} [Decidable p] {s s₁ s₂ : St} (h₁ : R s s₁)
    (h₂ : R s s₂) : R s (if p then s₁ else s₂) := by
  split_ifs
  · exact h₁
  · exact h₂

namespace Kept

variable {R : St → St → Prop} (hR : Kept R)
include hR

theorem upper {ps : List Parser} {s s' : St} (h : Upper ps s s') : R s s' := hR.calm h.toCalm

theorem append (s : St) (t : String) : R s (s.append t) := hR.upper (upper_append s t)

/-- The header of a frame is taken off, and shown. -/
theorem head (s : St) (t : String) : R s ((s.pull 2).append t) :=
  hR.upper ((upper_pull s 2).then (upper_append _ t))

theorem found (s : St) (h : LmHead) : R s (s.found h) := hR.after (hR.pick _ _) (hR.cache s _)

/-! ### LM frames -/

theorem connectCmd (env : Env) (s : St) (h : LmHead) :
    R s (lmConnectCmd env s h.caddr h.type h.slsapSel h.dlsapSel) := by
  have hstart : R s (s.append "CONN_CMD ") := hR.append s _
  have hnone : R s ((s.append "CONN_CMD ").pick none) := hR.after (hR.pick _ _) hstart
  unfold lmConnectCmd
  simp only
  split_ifs
  · split
    · exact hR.after (hR.upper (upper_print _ _)) hstart
    · refine hR.after (hR.upper (upper_connectParsers _ _)) (hR.after (hR.pick _ _) ?_)
      exact hR.after (hR.table _ _) hstart
  · exact hR.after (hR.upper (upper_parseIrttpConnect _)) hnone
  · exact hnone

theorem connectRsp (env : Env) (s : St) (h : LmHead) :
    R s (lmConnectRsp env s h.type h.slsapSel h.dlsapSel) := by
  have hstart : R s (s.append "CONN_RSP ") := hR.append s _
  have hfound := hR.after (hR.found _ h) hstart
  unfold lmConnectRsp
  simp only [find_eq]
  cases (s.append "CONN_RSP ").dec.tracker.find h.pair with
  | some i => exact hR.after (hR.upper (upper_connectParsers _ _)) hfound
  | none => exact rel_ite (hR.after (hR.upper (upper_parseIrttpConnect _)) hfound) hfound

theorem disconnect (s : St) (h : LmHead) :
    R s (lmDisconnect s h.type h.slsapSel h.dlsapSel) := by
  have hstart : R s (s.append "DISC ") := hR.append s _
  have hfound := hR.after (hR.found _ h) hstart
  unfold lmDisconnect
  simp only [find_eq]
  cases (s.append "DISC ").dec.tracker.find h.pair with
  | some i => exact hR.after (hR.table _ _) hfound
  | none => exact hfound

theorem data (env : Env) (s : St) (cmd : UInt8) (h : LmHead) :
    R s (lmData env s h.type cmd h.slsapSel h.dlsapSel) := by
  have hias := hR.calm (ias_calm s h.slsapSel h.dlsapSel).1
  unfold lmData
  simp only [find_eq]
  generalize (if h.dlsapSel = 0x00 then parseIriapCommand s
    else if h.slsapSel = 0x00 then parseIriapResponse s else s) = s₁ at hias
  have hfound := hR.after (hR.found s₁ h) hias
  cases s₁.dec.tracker.find h.pair with
  | some i => exact hR.after (hR.upper (upper_dataParsers env _ cmd _)) hfound
  | none => exact rel_ite (hR.after (hR.upper (upper_parseIrttp _)) hfound) hfound

theorem irlmp (env : Env) (s : St) (caddr : UInt8) (type : ℤ) (cmd : UInt8) :
    R s (parseIrlmp env s caddr type cmd) := by
  set h : LmHead := ⟨caddr, type, s.byte 1, s.byte 0 &&& lsapMask⟩
  have hhead : ∀ t, R s ((s.pull 2).append t) := hR.head s
  have hpull : ∀ t, R s (((s.pull 2).append t).pull 2) := fun t =>
    hR.after (hR.upper (upper_pull _ 2)) (hhead t)
  unfold parseIrlmp
  simp only
  split_ifs
  · exact hR.after (hR.connectCmd env _ h) (hpull _)
  · exact hR.after (hR.connectRsp env _ h) (hpull _)
  · exact hR.after (hR.disconnect _ h) (hpull _)
  · exact hpull _
  · exact hR.after (hR.data env _ cmd h) (hhead _)

theorem uiIrlmp (env : Env) (s : St) : R s (parseUiIrlmp env s) := by
  have hultra : ∀ t u, R s ((((s.pull 2).append t).pull 1).append u) := fun t u =>
    hR.after (hR.upper ((upper_append _ u).after (upper_pull _ 1))) (hR.head s t)
  unfold parseUiIrlmp
  simp only
  split_ifs
  · exact hR.after (hR.upper ((upper_parseObex env _ 1).after (upper_pull _ 1))) (hultra _ _)
  · exact hultra _ _
  · exact hR.head s _

/-! ### LAP frames -/

/-- All unnumbered frames but `XID`, whose parser writes to the memory. -/
theorem uFrame (env : Env) (caddr cmd pf ctrl : UInt8) (type : ℤ) (s : St)
    (hxid : ctrl = xidRsp ∨ ctrl = xidCmd → R s (parseXidFrame env cmd type s)) :
    R s (parseUFrame env caddr cmd pf ctrl type s) := by
  unfold parseUFrame
  split_ifs with hx
  · exact hxid hx
  · exact hR.upper (upper_parseSnrmFrame env caddr cmd pf type s)
  · exact hR.append s _
  · exact hR.append s _
  · exact hR.after (hR.table _ _) (hR.append s _)
  · exact hR.append s _
  · exact hR.append s _
  · exact hR.upper (upper_parseUaFrame env caddr cmd pf type s)
  · exact hR.append s _
  · exact rel_ite (hR.after (hR.uiIrlmp env _) (hR.head s _)) (hR.head s _)
  · exact hR.append s _

end Kept

end Irdadump
