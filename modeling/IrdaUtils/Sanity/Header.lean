import IrdaUtils.Lib.Words
import IrdaUtils.Sanity.Line

/-! The words with which the line of a frame starts. What the parsers of the upper layers add
to the line comes behind them. -/

namespace Irdadump

open Words

/-! ### Frames by their kind -/

/-- The parsers that `parse_irlap_frame` calls, and a frame that none of them takes. -/
inductive FrameKind where
  | i
  | rr
  | rnr
  | rej
  | srej
  | xid
  | snrm
  | rnrm
  | dm
  | disc
  | rd
  | test
  | ua
  | frmr
  | ui
  | unknown
  deriving DecidableEq, Repr

namespace St

/-- The command bit. -/
def cmd (s : St) : UInt8 := s.byte 0 &&& cmdFrame

/-- The connection address. -/
def caddr (s : St) : UInt8 := s.byte 0 &&& cbroadcast

/-- The poll or final bit. -/
def pf (s : St) : UInt8 := (s.byte 1 &&& pfBit) >>> 4

/-- The control byte without it. -/
def ctrl (s : St) : UInt8 := s.byte 1 &&& ~~~pfBit

/-- By the control byte, and by the command bit for the requests of a secondary. -/
def kind (s : St) : FrameKind :=
  if s.ctrl &&& 0x01 = 0 then .i
  else if s.ctrl &&& 0x02 = 0 then
    if s.ctrl &&& 0x0f = Irdadump.rr then .rr
    else if s.ctrl &&& 0x0f = Irdadump.rnr then .rnr
    else if s.ctrl &&& 0x0f = Irdadump.rej then .rej
    else if s.ctrl &&& 0x0f = Irdadump.srej then .srej
    else .unknown
  else if s.ctrl = xidRsp ∨ s.ctrl = xidCmd then .xid
  else if s.ctrl = snrmCmd then if s.cmd ≠ 0 then .snrm else .rnrm
  else if s.ctrl = dmRsp then .dm
  else if s.ctrl = discCmd then if s.cmd ≠ 0 then .disc else .rd
  else if s.ctrl = testCmd then .test
  else if s.ctrl = uaRsp then .ua
  else if s.ctrl = frmrRsp then .frmr
  else if s.ctrl = uiFrame then .ui
  else .unknown

/-- Source and destination of a frame that has addresses. -/
def addresses (s : St) : FrameKind → Option (ℕ × ℕ)
  | .xid => some (s.le32 3, s.le32 7)
  | .snrm | .ua | .test | .rnrm => some (s.le32 2, s.le32 6)
  | _ => none

end St

/-! ### Words -/

def caWord (s : St) : String := "ca=" ++ fmtX 2 s.caddr.toNat
def altCaWord (s : St) : String := "ca=" ++ fmtAltX 2 s.caddr.toNat
def pfWord (s : St) : String := "pf=" ++ toString s.pf.toNat

/-- The word with `nr` from the control byte at offset `n`. -/
def nrWord (s : St) (n : ℕ) : String := "nr=" ++ toString (s.byte n >>> 5).toNat
def nsWord (s : St) (n : ℕ) : String := "ns=" ++ toString ((s.byte n >>> 1) &&& 0x07).toNat

def nameWord (name : String) (s : St) : String := name ++ ":" ++ cmdText s.cmd

def sWords (name : String) (type : ℤ) (s : St) : List String :=
  [nameWord name s, dirText type, caWord s, pfWord s, nrWord s 1]

def uWords (name : String) (type : ℤ) (s : St) : List String :=
  [nameWord name s, dirText type, altCaWord s, pfWord s]

/-- The addresses, the left one is the source where the arrow goes to the right. -/
def addressWords (type : ℤ) (saddr daddr : ℕ) : List String :=
  if type ≠ 0 then [fmtX 8 saddr, ">", fmtX 8 daddr] else [fmtX 8 daddr, "<", fmtX 8 saddr]

/-- The addresses in the order of the frame, whatever the arrow. -/
def plainWords (type : ℤ) (saddr daddr : ℕ) : List String :=
  [fmtX 8 saddr, dirText type, fmtX 8 daddr]

def headWords (type : ℤ) (s : St) : FrameKind → List String
  | .i => [nameWord "i" s, "", dirText type, caWord s, pfWord s, nrWord s 1, nsWord s 1]
  | .rr => sWords "rr" type s
  | .rnr => sWords "rnr" type s
  | .rej => sWords "rej" type s
  | .srej => sWords "srej" type s
  | .xid => nameWord "xid" s :: addressWords type (s.le32 3) (s.le32 7)
  | .snrm => nameWord "snrm" s :: caWord s :: pfWord s :: addressWords type (s.le32 2) (s.le32 6)
  | .rnrm => nameWord "snrm" s :: caWord s :: pfWord s :: plainWords type (s.le32 2) (s.le32 6)
  | .dm => uWords "dm" type s
  | .disc => uWords "disc" type s
  | .rd => uWords "rd" type s
  | .test => nameWord "test" s :: altCaWord s :: pfWord s :: plainWords type (s.le32 2) (s.le32 6)
  | .ua => nameWord "ua" s :: caWord s :: pfWord s :: addressWords type (s.le32 2) (s.le32 6)
  | .frmr => [nameWord "frmr" s, "", dirText type, caWord s, "pf=" ++ toString (s.byte 1).toNat,
      "ctrl=" ++ fmtX 2 (s.byte 2 >>> 5).toNat ++ ",", "nr=" ++ toString s.pf.toNat, nsWord s 2]
  | .ui => [nameWord "ui" s, dirText type, caWord s, pfWord s, ""]
  | .unknown => []

/-! ### Lines -/

/-- The line goes on with these words. -/
def Starts (ws : List String) (s s' : St) : Prop := ∃ rest, s'.str = s.str ++ sentence ws rest

theorem Starts.longer {ws : List String} {s s' s'' : St} (h : Starts ws s s') (h' : Longer s' s'') :
    Starts ws s s'' := by
  obtain ⟨rest, hrest⟩ := h
  obtain ⟨t, ht⟩ := h'
  exact ⟨rest ++ t, by rw [ht, hrest, String.append_assoc, sentence_append]⟩

theorem starts_append (ws : List String) (s : St) (rest : String) {t : String}
    (h : t.toList = (sentence ws rest).toList) : Starts ws s (s.append t) :=
  ⟨rest, congrArg (s.str ++ ·) (String.toList_inj.1 h)⟩

/-- Interpolation of a text. -/
theorem toString_text (t : String) : toString t = t := rfl

theorem starts_sFrame (name : String) (type : ℤ) (s : St) :
    Starts (sWords name type s) s (appendSFrame name s.caddr s.cmd s.pf type s) := by
  refine starts_append _ s "" ?_
  simp [sentence, sWords, nameWord, caWord, pfWord, nrWord, toString_text]

theorem starts_uFrame (name : String) (type : ℤ) (s : St) :
    Starts (uWords name type s) s (appendUFrame name s.caddr s.cmd s.pf type s) := by
  refine starts_append _ s "" ?_
  simp [sentence, uWords, nameWord, altCaWord, pfWord, toString_text]

theorem starts_iFrame (env : Env) (type : ℤ) (s : St) :
    Starts (headWords type s .i) s (parseIFrame env s.caddr s.cmd s.pf type s) := by
  unfold parseIFrame
  refine Starts.longer ?_ (longer_if fun _ => longer_trackI type _ _ _)
  refine Starts.longer ?_ (longer_if fun _ => longer_irlmp env _ s.caddr type s.cmd)
  refine starts_append _ (s.pull 2) "" ?_
  simp [sentence, headWords, nameWord, caWord, pfWord, nrWord, nsWord, toString_text]

theorem starts_frmrFrame (type : ℤ) (s : St) :
    Starts (headWords type s .frmr) s (parseFrmrFrame s.caddr s.cmd s.pf type s) := by
  refine starts_append _ s "" ?_
  simp [sentence, headWords, nameWord, caWord, nsWord, toString_text]

theorem starts_rnrmFrame (type : ℤ) (s : St) :
    Starts (headWords type s .rnrm) s (parseRnrmFrame s.caddr s.cmd s.pf type s) := by
  refine starts_append _ s "" ?_
  simp [sentence, headWords, nameWord, caWord, pfWord, plainWords, toString_text]

theorem starts_testFrame (type : ℤ) (s : St) :
    Starts (headWords type s .test) s (parseTestFrame s.caddr s.cmd s.pf type s) := by
  refine starts_append _ s "" ?_
  simp [sentence, headWords, nameWord, altCaWord, pfWord, plainWords, toString_text]

theorem starts_uaFrame (env : Env) (type : ℤ) (s : St) :
    Starts (headWords type s .ua) s (parseUaFrame env s.caddr s.cmd s.pf type s) := by
  unfold parseUaFrame
  refine Starts.longer ?_ (longer_iField env 10 _)
  simp only [headWords, addressWords]
  split_ifs
  all_goals
    refine starts_append _ s "" ?_
    simp [sentence, nameWord, caWord, pfWord, toString_text]

theorem starts_snrmFrame (env : Env) (type : ℤ) (s : St) :
    Starts (headWords type s .snrm) s (parseSnrmFrame env s.caddr s.cmd s.pf type s) := by
  unfold parseSnrmFrame
  refine Starts.longer ?_ (longer_iField env 11 _)
  simp only [headWords, addressWords]
  split_ifs
  all_goals
    refine starts_append _ s ("new-ca=" ++ fmtX 2 (s.byte 10).toNat ++ " ") ?_
    simp [sentence, nameWord, caWord, pfWord, toString_text]

theorem starts_uiFrame (env : Env) (type : ℤ) (s : St) :
    Starts (headWords type s .ui) s (parseUiFrame env s.caddr s.cmd s.pf type s) := by
  unfold parseUiFrame
  refine Starts.longer ?_ (longer_if fun _ => longer_uiIrlmp env _)
  refine starts_append _ (s.pull 2) "" ?_
  simp [sentence, headWords, nameWord, caWord, pfWord, toString_text]

/-- The device information is appended last. -/
theorem starts_xidFrame (env : Env) (type : ℤ) (s : St) :
    Starts (headWords type s .xid) s (parseXidFrame env s.cmd type s) := by
  have hinfo : (if xidHasInfo s.cmd (s.byte 12) = true then parseXidInfo env s else (s, "")).1.str = s.str := by
    split_ifs <;> rfl
  unfold parseXidFrame
  simp only
  generalize (if xidHasInfo s.cmd (s.byte 12) = true then parseXidInfo env s else (s, "")) = r at hinfo
  refine Starts.longer ?_ (longer_append _ _)
  have hslot : ∀ s₁ : St, Longer s₁
      (if s.byte 12 = 0xff then s₁.append "s=* " else s₁.append s!"s={(s.byte 12).toNat} ") := by
    intro s₁
    split_ifs <;> exact longer_append _ _
  refine Starts.longer ?_ (hslot _)
  rw [Starts, ← hinfo]
  simp only [headWords, addressWords]
  split_ifs
  all_goals
    refine starts_append _ r.1 ("S=" ++ toString (xidSlots (s.byte 11)) ++ " ") ?_
    simp [sentence, nameWord, toString_text]

theorem starts_unknown {s s' : St} (h : Longer s s') : Starts [] s s' := h

/-- A branch of `parse_irlap_frame`. -/
theorem starts_if {p : Prop} [Decidable p] {type : ℤ} {s s₁ s₂ : St} {k₁ k₂ : FrameKind}
    (h₁ : Starts (headWords type s k₁) s s₁) (h₂ : Starts (headWords type s k₂) s s₂) :
    Starts (headWords type s (if p then k₁ else k₂)) s (if p then s₁ else s₂) := by
  split_ifs
  · exact h₁
  · exact h₂

/-- Every line starts with the words of its frame. -/
theorem starts_irlapFrame (env : Env) (type : ℤ) (s : St) :
    Starts (headWords type s s.kind) s (parseIrlapFrame env type s) := by
  refine starts_if (starts_iFrame env type s) (starts_if ?_ ?_)
  · refine starts_if ?_ (starts_if (starts_sFrame "rnr" type s) (starts_if (starts_sFrame "rej" type s)
      (starts_if (starts_sFrame "srej" type s) (starts_unknown (longer_append s _)))))
    exact (starts_sFrame "rr" type s).longer (longer_if fun _ => longer_trackRr type _ _)
  · refine starts_if (starts_xidFrame env type s) (starts_if
      (starts_if (starts_snrmFrame env type s) (starts_rnrmFrame type s)) (starts_if
      (starts_uFrame "dm" type s) (starts_if (starts_if ?_ (starts_uFrame "rd" type s)) (starts_if
      (starts_testFrame type s) (starts_if (starts_uaFrame env type s) (starts_if
      (starts_frmrFrame type s) (starts_if (starts_uiFrame env type s)
      (starts_unknown (longer_append s _)))))))))
    exact (starts_uFrame "disc" type s).longer (.of_eq rfl)

end Irdadump
