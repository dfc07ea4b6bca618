import IrdaUtils.Lib.ConfigKeys
import IrdaUtils.Spec.Nsc
import IrdaUtils.Proofs.ConfigMode

/-! The configuration modes of all known chips over a run of `findchip`. Several chips share a
port, and the FIR part of an SMC chip may be at any port: its probe can neither open nor close a
chip of another one there, but a port that is not granted ends the program between the keys. -/

namespace Findchip

open PortIo

def knownEntries : List Entry := smcEntries ++ winbondEntries

/-! ### NSC -/

/-- A silent access to a port that is granted. -/
def Plain (a : Access) : Prop := Silent a ∧ permitted a = true

theorem plain_readReg {cfgBase : UInt16} (hport : cfgBase < 0x3ff ∧ cfgBase + 1 < 0x3ff) {reg : UInt8}
    (h : reg ∉ keyBytes) : Only Plain (readReg cfgBase reg) :=
  .bind (.outb ⟨h, decide_eq_true hport.1⟩) fun _ => .inb fun _ => ⟨trivial, decide_eq_true hport.2⟩

section nsc

variable {cfgBase : UInt16} (hport : cfgBase < 0x3ff ∧ cfgBase + 1 < 0x3ff)
include hport

theorem plain_nscProbe108 (name : List UInt8) (chipId revision : UInt8) :
    Only Plain (nscProbe108 name cfgBase chipId revision) :=
  .bind (plain_readReg hport (by decide)) fun _ =>
    .bind (plain_readReg hport (by decide)) fun _ =>
    .bind (plain_readReg hport (by decide)) fun _ => .pure _

theorem plain_nsc338Base : Only Plain (nsc338Base cfgBase) := by
  refine .bind (plain_readReg hport (by decide)) fun pnp0 => ?_
  split_ifs
  · exact .bind (plain_readReg hport (by decide)) fun _ =>
      .bind (plain_readReg hport (by decide)) fun _ => .pure _
  · exact .bind (plain_readReg hport (by decide)) fun _ => .pure _

theorem plain_nscProbe338 (name : List UInt8) (chipId revision : UInt8) :
    Only Plain (nscProbe338 name cfgBase chipId revision) :=
  .bind (plain_readReg hport (by decide)) fun _ => .bind (plain_nsc338Base hport) fun _ =>
    .bind (plain_readReg hport (by decide)) fun _ =>
    .bind (plain_readReg hport (by decide)) fun _ =>
    .bind (plain_readReg hport (by decide)) fun _ => .pure _

/-- The only writes select registers. -/
theorem plain_tryAt {chip : NscChip} (h : chip ∈ nscChips) : Only Plain (chip.tryAt cfgBase) := by
  have hcid : ∀ c ∈ nscChips, c.cidIndex ∉ keyBytes := by
    simp [nscChips, pc87108, pc87338, keyBytes]
  have hprobe : ∀ c ∈ nscChips, ∀ id rev, Only Plain (c.probe c.name cfgBase id rev) := by
    intro c hc id rev
    simp only [nscChips, List.mem_cons, List.not_mem_nil, or_false] at hc
    rcases hc with rfl | rfl
    · exact plain_nscProbe108 hport _ id rev
    · exact plain_nscProbe338 hport _ id rev
  refine .bind (.inb fun _ => ⟨trivial, decide_eq_true hport.1⟩) fun index => ?_
  split_ifs
  · exact .pure []
  · refine .bind (plain_readReg hport (hcid chip h)) fun id => ?_
    split_ifs
    · exact .bind (hprobe chip h _ _) fun _ => .pure _
    · exact .pure []

end nsc

theorem plain_probeNsc : Only Plain probeNsc := by
  have hports : ∀ c ∈ nscChips, ∀ p ∈ c.cfg, p < 0x3ff ∧ p + 1 < 0x3ff := by
    simp [nscChips, pc87108, pc87338]
  exact .gather fun chip hchip => .gather fun cfgBase hcfg => plain_tryAt (hports chip hchip cfgBase hcfg) hchip

/-! ### The program -/

theorem known_family : Family knownEntries Silent permitted where
  quiet e he a ha := by
    have hkeys : ∀ e ∈ knownEntries, ∀ k ∈ e.keys, k ∈ keyBytes := by decide +kernel
    rintro k hk rfl
    exact ha (hkeys e he k hk)
  noExit e he := by
    have hexit : ∀ e ∈ knownEntries, e.exitKey ∈ keyBytes := by decide +kernel
    exact fun h => h (hexit e he)
  compatible := by decide +kernel
  opens := by decide +kernel
  keys e he v := by
    have hports : ∀ e ∈ knownEntries, e.port < 0x3ff := by decide +kernel
    exact decide_eq_true (hports e he)

theorem probe_guards (c : Chipset) : Guards knownEntries permitted c.probe := by
  cases c with
  | smc =>
    exact .bind (.bind (.of_bracketed known_family (List.subset_append_left _ _) smc_sessions)
      fun _ => .pure 0) fun _ => .pure ()
  | nsc => exact .bind (.of_only known_family plain_probeNsc) fun _ => .pure ()
  | winbond =>
    exact .bind (.bind (.of_bracketed known_family (List.subset_append_right _ _) winbond_sessions)
      fun _ => .pure 0) fun _ => .pure ()

/-- For all arguments and whatever the hardware answers: a run of `findchip` leaves every chip of
the tables with a configuration mode closed, also those that share a port with another one, if and
only if the probes keep to the ports that are granted. -/
theorem findchip_leaves_closed (granted : Bool) (args : List (List UInt8)) (hw : Hardware) :
    AllClosed knownEntries (findchip granted args hw) ↔
      (granted = true → ∀ a ∈ (probeChips args hw []).2, permitted a = true) := by
  have hnil : AllClosed knownEntries [] := allClosed_nil (by decide +kernel)
  cases granted with
  | false => exact iff_of_true hnil fun h => absurd h Bool.false_ne_true
  | true =>
    have hrun : Guards knownEntries permitted (probeChips args) := .forM fun c _ => probe_guards c
    exact (hrun.cut_iff hnil hw).trans ⟨fun h _ => h, fun h => h rfl⟩

end Findchip
