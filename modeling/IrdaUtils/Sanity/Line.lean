import IrdaUtils.Proofs.ObexFraming
import IrdaUtils.Proofs.QosParams

/-! The decoders only add to the line: what has been printed of a frame stays in front of
what is decoded after it. -/

namespace Irdadump

/-- The line of `s'` starts with the line of `s`. -/
def Longer (s s' : St) : Prop := ∃ t, s'.str = s.str ++ t

theorem Longer.of_eq {s s' : St} (h : s'.str = s.str) : Longer s s' :=
  ⟨"", by rw [h, String.append_empty]⟩

theorem Longer.refl (s : St) : Longer s s := .of_eq rfl

/-- `h` is the earlier step. -/
theorem Longer.after {s s' s'' : St} (h' : Longer s' s'') (h : Longer s s') : Longer s s'' := by
  obtain ⟨t, ht⟩ := h
  obtain ⟨t', ht'⟩ := h'
  exact ⟨t ++ t', by rw [ht', ht, String.append_assoc]⟩

theorem longer_append (s : St) (t : String) : Longer s (s.append t) := ⟨t, rfl⟩

/-- A parser that is called or not. -/
theorem longer_if {p : Prop} [Decidable p] {s s' : St} (h : p → Longer s s') :
    Longer s (if p then s' else s) := by
  split_ifs with hp
  · exact h hp
  · exact .refl s

/-! ### The upper layers -/

theorem longer_ircommParams (clen : UInt8) (s : St) : Longer s (parseIrcommParams clen s) := by
  rw [parseIrcommParams, ircommParamsLoop_eq]
  exact ⟨_, rfl⟩

theorem longer_ircommTtp (s : St) : Longer s (parseIrcommTtp s) := by
  unfold parseIrcommTtp
  simp only
  split_ifs
  · exact .of_eq rfl
  · exact (longer_ircommParams _ _).after ⟨_, rfl⟩
  · exact ⟨_, rfl⟩

theorem longer_ircommConnect (s : St) : Longer s (parseIrcommConnect s) :=
  (longer_ircommTtp _).after (.of_eq rfl)

theorem longer_obexHeaders (env : Env) (s : St) (off : ℕ) : Longer s (parseObexHeaders env s off) := by
  rw [Longer, parseObexHeaders_str]
  simp only [String.append_assoc]
  exact ⟨_, rfl⟩

theorem longer_obexConnect (s : St) : Longer s (parseObexConnect s) := by
  unfold parseObexConnect
  simp only
  split_ifs <;> exact longer_append s _

theorem longer_obexSuccess (env : Env) (s : St) (c : UInt8) : Longer s (parseObexSuccess env s c) := by
  unfold parseObexSuccess
  simp only
  split_ifs <;> exact (longer_obexHeaders env _ _).after (longer_append s _)

theorem longer_obexResponse (env : Env) (s : St) (opcode : UInt8) :
    Longer s (parseObexResponse env s opcode) := by
  unfold parseObexResponse
  split_ifs
  · exact (longer_obexHeaders env _ _).after (longer_append s _)
  · exact longer_append s _
  · exact longer_obexSuccess env s _
  all_goals exact longer_append s _

theorem longer_obexCommand (env : Env) (s : St) (opcode : UInt8) :
    Longer s (parseObexCommand env s opcode) := by
  have hset : Longer s (s.setCommand opcode) := .of_eq rfl
  unfold parseObexCommand
  simp only
  split_ifs
  · exact (longer_obexConnect _).after hset
  · exact ((longer_obexHeaders env _ _).after (longer_append _ _)).after hset
  · exact ((longer_obexHeaders env _ _).after (longer_append _ _)).after hset
  · exact (longer_append _ _).after hset
  · exact (longer_append _ _).after hset
  · exact ((longer_obexHeaders env _ _).after (longer_append _ _)).after hset
  all_goals exact (longer_append _ _).after hset

theorem longer_obex (env : Env) (s : St) (cmd : UInt8) : Longer s (parseObex env s cmd) := by
  have hstart : Longer s ((s.enter .obex).append "\n\tOBEX ") := ⟨_, rfl⟩
  unfold parseObex
  simp only
  split_ifs
  · exact hstart
  · exact (longer_obexResponse env _ _).after hstart
  · exact (longer_obexCommand env _ _).after hstart

theorem longer_irttp (s : St) : Longer s (parseIrttp s) := by
  unfold parseIrttp
  simp only
  split_ifs
  · exact (longer_append _ _).after ⟨_, rfl⟩
  · exact ⟨_, rfl⟩

theorem longer_irttpConnect (s : St) : Longer s (parseIrttpConnect s) := by
  unfold parseIrttpConnect
  simp only
  split_ifs
  · exact (longer_append _ _).after ⟨_, rfl⟩
  · exact ⟨_, rfl⟩

theorem longer_irnet (s : St) : Longer s (parseIrnet s) := ⟨_, rfl⟩

theorem longer_iriapCommand (s : St) : Longer s (parseIriapCommand s) := by
  unfold parseIriapCommand
  simp only
  split_ifs
  · exact ⟨_, rfl⟩
  · exact .of_eq rfl

theorem longer_iriasValue (s : St) : Longer s (parseIriasValue s) := by
  unfold parseIriasValue
  simp only
  split_ifs
  · exact ⟨_, rfl⟩
  · exact ⟨_, rfl⟩
  · exact (longer_ircommParams _ _).after ⟨_, rfl⟩
  · exact ⟨_, rfl⟩
  · exact .of_eq rfl

theorem longer_iriapResponse (s : St) : Longer s (parseIriapResponse s) := by
  have hop : ∀ (op : UInt8), Longer s
      (if op = getInfoBase then ((s.enter .iriapResponse).pull 2).print
          "parse_iriap_response() Sorry, GET_INFO_BASE not implemented!\n"
        else if op = getValueByClass then
          ((s.enter .iriapResponse).pull 2).append "GET_VALUE_BY_CLASS: "
        else ((s.enter .iriapResponse).pull 2).print
          "parse_iriap_response() Sorry, not implemented!\n") := by
    intro op
    split_ifs
    · exact .of_eq rfl
    · exact ⟨_, rfl⟩
    · exact .of_eq rfl
  have h := hop ((s.enter .iriapResponse).byte 0 &&& ~~~0x80)
  unfold parseIriapResponse
  simp only
  generalize (if (s.enter .iriapResponse).byte 0 &&& ~~~0x80 = getInfoBase then _ else _ : St) = s₂ at h
  split_ifs
  · exact ((longer_iriasValue _).after (longer_append _ _)).after h
  all_goals exact (longer_append _ _).after h

/-! ### LM frames -/

theorem longer_connectParsers (c : LsapState) (s : St) : Longer s (connectParsers c s) :=
  ((longer_if fun _ => longer_irnet _).after (longer_if fun _ => longer_ircommConnect _)).after
    (longer_if fun _ => longer_irttpConnect s)

theorem longer_dataParsers (env : Env) (c : LsapState) (cmd : UInt8) (s : St) :
    Longer s (dataParsers env c cmd s) := by
  have hircomm : ∀ s, Longer s (if c.ttp = true then parseIrcommTtp s else parseIrcommLmp s) := by
    intro s
    split_ifs
    · exact longer_ircommTtp s
    · exact ⟨_, rfl⟩
  exact (((longer_if fun _ => longer_irnet _).after (longer_if fun _ => hircomm _)).after
    (longer_if fun _ => longer_obex env _ cmd)).after (longer_if fun _ => longer_irttp s)

theorem longer_connectCmd (env : Env) (s : St) (h : LmHead) :
    Longer s (lmConnectCmd env s h.caddr h.type h.slsapSel h.dlsapSel) := by
  unfold lmConnectCmd
  simp only
  split_ifs
  · split
    · exact ⟨_, rfl⟩
    · exact (longer_connectParsers _ _).after ⟨_, rfl⟩
  · exact (longer_irttpConnect _).after ⟨_, rfl⟩
  · exact ⟨_, rfl⟩

theorem longer_connectRsp (env : Env) (s : St) (h : LmHead) :
    Longer s (lmConnectRsp env s h.type h.slsapSel h.dlsapSel) := by
  unfold lmConnectRsp
  simp only [find_eq]
  cases (s.append "CONN_RSP ").dec.tracker.find h.pair with
  | some i => exact (longer_connectParsers _ _).after ⟨_, rfl⟩
  | none => exact (longer_if fun _ => longer_irttpConnect _).after ⟨_, rfl⟩

theorem longer_disconnect (s : St) (h : LmHead) :
    Longer s (lmDisconnect s h.type h.slsapSel h.dlsapSel) := by
  unfold lmDisconnect
  simp only [find_eq]
  cases (s.append "DISC ").dec.tracker.find h.pair <;> exact ⟨_, rfl⟩

theorem longer_data (env : Env) (s : St) (cmd : UInt8) (h : LmHead) :
    Longer s (lmData env s h.type cmd h.slsapSel h.dlsapSel) := by
  have hias : Longer s (if h.dlsapSel = 0x00 then parseIriapCommand s
      else if h.slsapSel = 0x00 then parseIriapResponse s else s) := by
    split_ifs
    · exact longer_iriapCommand s
    · exact longer_iriapResponse s
    · exact .refl s
  unfold lmData
  simp only [find_eq]
  generalize (if h.dlsapSel = 0x00 then parseIriapCommand s
    else if h.slsapSel = 0x00 then parseIriapResponse s else s) = s₁ at hias
  have hfound : Longer s (s₁.found h) := Longer.after (.of_eq rfl) hias
  cases s₁.dec.tracker.find h.pair with
  | some i => exact (longer_dataParsers env _ cmd _).after hfound
  | none => exact (longer_if fun _ => longer_irttp _).after hfound

theorem longer_irlmp (env : Env) (s : St) (caddr : UInt8) (type : ℤ) (cmd : UInt8) :
    Longer s (parseIrlmp env s caddr type cmd) := by
  set h : LmHead := ⟨caddr, type, s.byte 1, s.byte 0 &&& lsapMask⟩
  unfold parseIrlmp
  simp only
  split_ifs
  · exact (longer_connectCmd env _ h).after ⟨_, rfl⟩
  · exact (longer_connectRsp env _ h).after ⟨_, rfl⟩
  · exact (longer_disconnect _ h).after ⟨_, rfl⟩
  · exact ⟨_, rfl⟩
  · exact (longer_data env _ cmd h).after ⟨_, rfl⟩

theorem longer_uiIrlmp (env : Env) (s : St) : Longer s (parseUiIrlmp env s) := by
  unfold parseUiIrlmp
  simp only
  split_ifs
  · exact (longer_obex env _ 1).after (Longer.after ⟨_, rfl⟩ ⟨_, rfl⟩)
  · exact (longer_append _ _).after ⟨_, rfl⟩
  · exact ⟨_, rfl⟩

/-! ### LAP frames -/

theorem longer_iField (env : Env) (n : ℕ) (s : St) : Longer s (parseIField env n s) :=
  ⟨_, parseIField_str env n s⟩

theorem longer_trackI (type nr ns : ℤ) (s : St) : Longer s (trackI type nr ns s) := by
  unfold trackI
  simp only
  split_ifs
  · exact (show Longer (s.append _) _ from ⟨_, rfl⟩).after (longer_append s _)
  · exact ⟨_, rfl⟩
  · exact (show Longer (s.append _) _ from ⟨_, rfl⟩).after (longer_append s _)
  · exact ⟨_, rfl⟩

theorem longer_iFrame (env : Env) (caddr cmd pf : UInt8) (type : ℤ) (s : St) :
    Longer s (parseIFrame env caddr cmd pf type s) := by
  unfold parseIFrame
  exact ((longer_if fun _ => longer_trackI _ _ _ _).after
    (longer_if fun _ => longer_irlmp env _ caddr type cmd)).after ⟨_, rfl⟩

theorem longer_trackRr (type nr : ℤ) (s : St) : Longer s (trackRr type nr s) := by
  unfold trackRr
  simp only
  split_ifs <;> exact ⟨_, rfl⟩

theorem longer_sFrame (env : Env) (caddr cmd pf ctrl : UInt8) (type : ℤ) (s : St) :
    Longer s (parseSFrame env caddr cmd pf ctrl type s) := by
  unfold parseSFrame
  simp only
  split_ifs
  · exact (longer_if fun _ => longer_trackRr _ _ _).after ⟨_, rfl⟩
  all_goals exact longer_append s _

theorem longer_xidFrame (env : Env) (cmd : UInt8) (type : ℤ) (s : St) :
    Longer s (parseXidFrame env cmd type s) := by
  have hinfo : Longer s (if xidHasInfo cmd (s.byte 12) = true then parseXidInfo env s else (s, "")).1 := by
    split_ifs <;> exact .of_eq rfl
  unfold parseXidFrame
  simp only
  generalize (if xidHasInfo cmd (s.byte 12) = true then parseXidInfo env s else (s, "")) = r at hinfo
  split_ifs
  all_goals
    exact (((longer_append _ _).after (longer_append _ _)).after (longer_append _ _)).after hinfo

theorem longer_uFrame (env : Env) (caddr cmd pf ctrl : UInt8) (type : ℤ) (s : St) :
    Longer s (parseUFrame env caddr cmd pf ctrl type s) := by
  unfold parseUFrame
  split_ifs
  · exact longer_xidFrame env cmd type s
  · unfold parseSnrmFrame
    simp only
    split_ifs <;> exact (longer_iField env 11 _).after (longer_append s _)
  · exact longer_append s _
  · exact longer_append s _
  · exact ⟨_, rfl⟩
  · exact longer_append s _
  · exact longer_append s _
  · unfold parseUaFrame
    simp only
    split_ifs <;> exact (longer_iField env 10 _).after (longer_append s _)
  · exact longer_append s _
  · exact (longer_if fun _ => longer_uiIrlmp env _).after ⟨_, rfl⟩
  · exact longer_append s _

theorem longer_irlapFrame (env : Env) (type : ℤ) (s : St) :
    Longer s (parseIrlapFrame env type s) := by
  unfold parseIrlapFrame
  simp only
  split_ifs
  · exact longer_iFrame env _ _ _ type s
  · exact longer_sFrame env _ _ _ _ type s
  · exact longer_uFrame env _ _ _ _ type s

end Irdadump
