import IrdaUtils.Proofs.SmcinitStatus

/-! The configuration mode that `set_smc` enters. The exit key is written at the end of the one
path that goes well; every early return, and every port without a known chip, is left open. -/

namespace Smcinit

open PortIo

/-- Wherever the entry key is written to a port, the exit key follows at the same port, before
an entry key at any of the ports and before the end. -/
def LeavesConfig (t : List Access) : Prop :=
  ∀ port ∈ possibleCfgbase, ∀ pre post, t = pre ++ .out 0x55 port :: post →
    ∃ body rest, post = body ++ .out 0xaa port :: rest ∧
      ∀ a ∈ body, ∀ q ∈ possibleCfgbase, a ≠ .out 0x55 q

/-- The access writes no key to a configuration port. -/
def NoKey (a : Access) : Prop := ∀ q ∈ possibleCfgbase, a ≠ .out 0x55 q ∧ a ≠ .out 0xaa q

theorem noKey_inn (v : UInt8) (p : UInt16) : NoKey (.inn v p) :=
  fun _ _ => ⟨Access.noConfusion, Access.noConfusion⟩

theorem noKey_index {v : UInt8} (h1 : v ≠ 0x55) (h2 : v ≠ 0xaa) (p : UInt16) : NoKey (.out v p) :=
  fun _ _ => ⟨fun e => h1 (Access.out.inj e).1, fun e => h2 (Access.out.inj e).1⟩

/-- The data ports are no configuration ports. -/
theorem noKey_data {base : UInt16} (h : base ∈ possibleCfgbase) (v : UInt8) :
    NoKey (.out v (base + 1)) := by
  intro q hq
  have hne : base + 1 ≠ q := by
    rcases List.mem_pair.1 h with rfl | rfl
    · rcases List.mem_pair.1 hq with rfl | rfl
      · decide
      · decide
    · rcases List.mem_pair.1 hq with rfl | rfl
      · decide
      · decide
  exact ⟨fun e => hne (Access.out.inj e).2, fun e => hne (Access.out.inj e).2⟩

section Quiet

variable {base : UInt16} (h : base ∈ possibleCfgbase)

include h

theorem quiet_writeBack (v : BitVec 32) : Only NoKey (writeBack base v) :=
  .bind (.outb (noKey_data h _)) fun _ => .bind (.inb fun _ => noKey_inn _ _) fun _ => .pure _

theorem quiet_modifyReg {reg : UInt8} (h1 : reg ≠ 0x55) (h2 : reg ≠ 0xaa) (f : UInt8 → UInt8) :
    Only NoKey (modifyReg base reg f) :=
  .bind (.outb (noKey_index h1 h2 _)) fun _ =>
    .bind (.inb fun _ => noKey_inn _ _) fun _ => .outb (noKey_data h _)

theorem quiet_setRegs (o : Options) : Only NoKey (setRegs base o) := by
  have hsir : Only NoKey (setSirIo base o) :=
    .bind (.outb (noKey_index (by decide) (by decide) _)) fun _ => .bind (.outb (noKey_data h _)) fun _ =>
      .bind (.outb (noKey_index (by decide) (by decide) _)) fun _ => quiet_writeBack h _
  have hirq : Only NoKey (setFirIrq base o) :=
    .bind (.outb (noKey_index (by decide) (by decide) _)) fun _ => .bind (.inb fun _ => noKey_inn _ _) fun _ =>
      .bind (.outb (noKey_data h _)) fun _ => .bind (.inb fun _ => noKey_inn _ _) fun _ => .pure _
  have hfir : Only NoKey (setFirIo base o) :=
    .bind (.outb (noKey_index (by decide) (by decide) _)) fun _ => quiet_writeBack h _
  have hdma : Only NoKey (setFirDma base o) :=
    .bind (.outb (noKey_index (by decide) (by decide) _)) fun _ => quiet_writeBack h _
  refine .bind hsir fun ok => ?_
  split_ifs
  · refine .bind hirq fun ok' => ?_
    split_ifs
    · refine .bind hfir fun ok'' => ?_
      split_ifs
      · exact hdma
      · exact .pure _
    · exact .pure _
  · exact .pure _

theorem quiet_enableIrda : Only NoKey (enableIrda base) :=
  .bind (quiet_modifyReg h (by decide) (by decide) _) fun _ =>
    .bind (quiet_modifyReg h (by decide) (by decide) _) fun _ =>
    .bind (quiet_modifyReg h (by decide) (by decide) _) fun _ =>
    .bind (quiet_modifyReg h (by decide) (by decide) _) fun _ =>
    quiet_modifyReg h (by decide) (by decide) _

end Quiet

/-- A session at one port. -/
theorem leaves_session (port : UInt16) {body : List Access} (hbody : ∀ a ∈ body, NoKey a) :
    LeavesConfig (.out 0x55 port :: (body ++ [.out 0xaa port])) := by
  intro q hq pre post e
  cases pre with
  | nil =>
    obtain ⟨e1, rfl⟩ := List.cons.inj e
    obtain rfl := (Access.out.inj e1).2
    exact ⟨body, [], rfl, fun a ha r hr => (hbody a ha r hr).1⟩
  | cons b pre =>
    -- a second entry key would stand in the body or in the place of the exit key
    have hmem : Access.out 0x55 q ∈ body ++ [.out 0xaa port] := by
      rw [(List.cons.inj e).2]
      simp
    rcases List.mem_append.1 hmem with h | h
    · exact absurd rfl (hbody _ h q hq).1
    · exact absurd (Access.out.inj (List.mem_singleton.1 h)).1 (by decide)

theorem not_leaves_of_no_exit {t : List Access} (h : .out 0xaa 0x2e ∉ t) :
    ¬ LeavesConfig (.out 0x55 0x2e :: t) := by
  intro hl
  obtain ⟨body, rest, e, -⟩ := hl 0x2e (by decide) [] t rfl
  exact h (by rw [e]; simp)

theorem setChip_trace {base : UInt16} (h : base ∈ possibleCfgbase) (o : Options) (rs : ℕ → UInt8)
    (t : List Access) :
    ∃ body, (∀ a ∈ body, NoKey a) ∧ (setChip o (some base) (replies rs) t).2 =
      t ++ body ++ if ReadBack rs (reads t) o then [.out 0xaa base] else [] := by
  obtain ⟨b1, e1, h1⟩ := quiet_setRegs h o (replies rs) t
  simp only [setChip, bind_run, ite_run, setRegs_run, decide_eq_true_eq]
  by_cases hr : ReadBack rs (reads t) o
  · obtain ⟨b2, e2, h2⟩ := quiet_enableIrda h (replies rs) (setRegs base o (replies rs) t).2
    refine ⟨b1 ++ b2, ?_, ?_⟩
    · intro a ha
      rcases List.mem_append.1 ha with ha | ha
      · exact h1 a ha
      · exact h2 a ha
    · rw [if_pos hr, if_pos hr, outb_run, pure_run, e2, e1, List.append_assoc t]
  · refine ⟨b1, h1, ?_⟩
    rw [if_neg hr, if_neg hr, pure_run, e1, List.append_nil]

theorem noKey_probe (v : UInt8) (base port : UInt16) :
    ∀ a ∈ [Access.out 0x0d base, .inn v port], NoKey a := by
  intro a ha
  rcases List.mem_pair.1 ha with rfl | rfl
  · exact noKey_index (by decide) (by decide) _
  · exact noKey_inn _ _

/-- A chip is known at the first port. -/
theorem leaves_first (rs : ℕ → UInt8) (o : Options) :
    LeavesConfig (setChip o (some 0x2e) (replies rs)
      [.out 0x55 0x2e, .out 0x0d 0x2e, .inn (rs 0) 0x2f]).2 ↔ ReadBack rs 1 o := by
  obtain ⟨body, hbody, e⟩ := setChip_trace (by decide : 0x2e ∈ possibleCfgbase) o rs
    [.out 0x55 0x2e, .out 0x0d 0x2e, .inn (rs 0) 0x2f]
  have hquiet : ∀ a ∈ [Access.out 0x0d 0x2e, .inn (rs 0) 0x2f] ++ body, NoKey a := by
    intro a ha
    rcases List.mem_append.1 ha with ha | ha
    · exact noKey_probe _ _ _ a ha
    · exact hbody a ha
  rw [e]
  by_cases hr : ReadBack rs 1 o
  · refine iff_of_true ?_ hr
    have hs := leaves_session 0x2e hquiet
    simpa [hr] using hs
  · refine iff_of_false ?_ hr
    have hno : Access.out 0xaa 0x2e ∉ [Access.out 0x0d 0x2e, .inn (rs 0) 0x2f] ++ body :=
      fun hmem => absurd rfl (hquiet _ hmem 0x2e (by decide)).2
    simpa [hr] using not_leaves_of_no_exit hno

/-- No chip is known there: the exit key is never written to the first port. -/
theorem not_leaves_second {rs : ℕ → UInt8} (h0 : ¬ KnownId (rs 0)) (o : Options) :
    ¬ LeavesConfig ((findChip possibleCfgbase >>= setChip o) (replies rs) []).2 := by
  rw [bind_run, findChip_second h0, findChip_one]
  simp only [reads_out, reads_inn, reads_nil]
  have hprobe : ∀ a ∈ [Access.out 0x0d 0x2e, .inn (rs 0) 0x2f] ++
      [.out 0x55 0x4e, .out 0x0d 0x4e, .inn (rs 1) 0x4f], a ≠ .out 0xaa 0x2e := by
    simp
  by_cases h1 : KnownId (rs 1)
  · obtain ⟨body, hbody, e⟩ := setChip_trace (by decide : 0x4e ∈ possibleCfgbase) o rs
      ([.out 0x55 0x2e, .out 0x0d 0x2e, .inn (rs 0) 0x2f] ++
        [.out 0x55 0x4e, .out 0x0d 0x4e, .inn (rs 1) 0x4f])
    rw [if_pos h1]
    rw [show (0x4e : UInt16) + 1 = 0x4f from rfl, e]
    apply not_leaves_of_no_exit
    intro hmem
    rcases List.mem_append.1 hmem with hmem | hmem
    · rcases List.mem_append.1 hmem with hmem | hmem
      · exact hprobe _ hmem rfl
      · exact absurd rfl (hbody _ hmem 0x2e (by decide)).2
    · split_ifs at hmem
      · simp at hmem
      · simp at hmem
  · rw [if_neg h1]
    exact not_leaves_of_no_exit fun hmem => hprobe _ hmem rfl

/-- The configuration mode is left exactly when it was not entered, or a chip is known at the
first port and keeps its settings. -/
theorem config_mode_left_iff (hub : HubReads) (o : Options) (rs : ℕ → UInt8) :
    LeavesConfig (setSmc hub o (replies rs) []).2 ↔
      (HubKnown hub → KnownId (rs 0) ∧ ReadBack rs 1 o) := by
  unfold setSmc
  cases hh : setHub hub with
  | none =>
    have hno : ¬ HubKnown hub := (setHub_eq_none_iff hub).1 hh
    refine iff_of_true ?_ fun hk => absurd hk hno
    intro port _ pre post e
    simp [pure_run] at e
  | some ws =>
    have hyes : HubKnown hub := hubKnown_of_setHub hh
    simp only [hyes, true_implies]
    by_cases h0 : KnownId (rs 0)
    · rw [bind_run, findChip_first h0]
      exact (leaves_first rs o).trans (by simp [h0])
    · exact iff_of_false (not_leaves_second h0 o) fun h => h0 h.1

/-- A hub without a chip: both ports are left open. -/
theorem config_mode_kept :
    (setSmc goodHub .default (replies fun _ => 0xff) []).2 =
        [.out 0x55 0x2e, .out 0x0d 0x2e, .inn 0xff 0x2f, .out 0x55 0x4e, .out 0x0d 0x4e, .inn 0xff 0x4f] ∧
      ¬ LeavesConfig (setSmc goodHub .default (replies fun _ => 0xff) []).2 := by
  have htrace : (setSmc goodHub .default (replies fun _ => 0xff) []).2 =
      [.out 0x55 0x2e, .out 0x0d 0x2e, .inn 0xff 0x2f, .out 0x55 0x4e, .out 0x0d 0x4e, .inn 0xff 0x4f] := by
    decide +kernel
  refine ⟨htrace, ?_⟩
  rw [htrace]
  exact not_leaves_of_no_exit (by decide)

end Smcinit
