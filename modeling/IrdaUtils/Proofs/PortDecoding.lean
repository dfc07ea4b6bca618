import IrdaUtils.Lib.Masks
import IrdaUtils.Spec.ToshSmcinit

/-! The port decoding of the ALi1533. A turn of the loop sets the bits of a port that the table
has and changes no other bit; a port that it has not is passed over, and the call still
reports that it has done its work. -/

namespace ToshSmcinit

open Masks

/-- The table has an entry for the port, the one without a port at its end apart. -/
def Listed (port : ℤ) : Prop := ∃ e ∈ ali1533Ports, e.port = port ∧ port ≠ 0

def Enabled (regs : Regs) (port : ℤ) : Prop :=
  ∃ e ∈ ali1533Ports, e.port = port ∧ port ≠ 0 ∧ regs e.reg &&& e.orMask = e.orMask

/-- No bit has changed but those of the entries of `ports`. -/
def KeepsOtherBits (ports : List ℤ) (old new : Regs) : Prop :=
  ∀ reg bits, (∀ e ∈ ali1533Ports, e.port ∈ ports → e.port ≠ 0 → e.reg = reg → bits &&& e.orMask = 0) →
    new reg &&& bits = old reg &&& bits

/-- What a call reports is so, and the rest of the registers is left alone. -/
def Decodes (ret : ℕ) (old new : Regs) (sirbase firbase : ℤ) : Prop :=
  (ret ≠ 0 → Enabled new sirbase ∧ Enabled new firbase) ∧ KeepsOtherBits [sirbase, firbase] old new

/-! ### One port -/

theorem findPortInfo_some {port : ℤ} {e : PortDecodingAccessInfo} :
    ∀ {ps : List PortDecodingAccessInfo}, findPortInfo port ps = some e →
      e ∈ ps ∧ e.port = port ∧ port ≠ 0 := by
  intro ps
  induction ps with
  | nil => intro h; cases h
  | cons p ps ih =>
    intro h
    rw [findPortInfo] at h
    by_cases h0 : p.port = 0
    · rw [if_pos h0] at h
      cases h
    · rw [if_neg h0] at h
      by_cases hp : p.port = port
      · rw [if_pos hp] at h
        obtain rfl := Option.some.inj h
        exact ⟨by simp, hp, by rwa [← hp]⟩
      · rw [if_neg hp] at h
        obtain ⟨hmem, hport⟩ := ih h
        exact ⟨by simp [hmem], hport⟩

theorem findAli1533_of_listed {port : ℤ} (h : Listed port) :
    ∃ e, findAli1533PortAccessInfo port = some e := by
  obtain ⟨e, he, rfl, h0⟩ := h
  simp only [ali1533Ports, List.mem_cons, List.not_mem_nil, or_false] at he
  rcases he with rfl | rfl | rfl | rfl | rfl | rfl
  · exact ⟨_, rfl⟩
  · exact ⟨_, rfl⟩
  · exact ⟨_, rfl⟩
  · exact ⟨_, rfl⟩
  · exact ⟨_, rfl⟩
  · exact absurd rfl h0

/-- The registers behind a turn: those before, or with the bits of the entry. -/
theorem setAli1533Port_cases (regs : Regs) (port : ℤ) :
    (findAli1533PortAccessInfo port = none ∧ (setAli1533Port regs port true).2 = regs) ∨
      ∃ e ∈ ali1533Ports, e.port = port ∧ port ≠ 0 ∧
        (setAli1533Port regs port true).2 = Function.update regs e.reg (regs e.reg ||| e.orMask) := by
  unfold setAli1533Port
  cases hf : findAli1533PortAccessInfo port with
  | none => exact .inl ⟨rfl, rfl⟩
  | some e =>
    obtain ⟨hmem, hport, h0⟩ := findPortInfo_some hf
    refine .inr ⟨e, hmem, hport, h0, ?_⟩
    simp only [if_true, set_bits]

theorem setAli1533Port_enables (regs : Regs) {port : ℤ} (h : Listed port) :
    Enabled (setAli1533Port regs port true).2 port := by
  obtain ⟨e', he'⟩ := findAli1533_of_listed h
  rcases setAli1533Port_cases regs port with ⟨hnone, -⟩ | ⟨e, he, hport, h0, hregs⟩
  · rw [he'] at hnone
    cases hnone
  · refine ⟨e, he, hport, h0, ?_⟩
    rw [hregs, Function.update_self, mask_or_self]

theorem setAli1533Port_keeps_set (regs : Regs) (port : ℤ) {reg bits : UInt8}
    (h : regs reg &&& bits = bits) : (setAli1533Port regs port true).2 reg &&& bits = bits := by
  rcases setAli1533Port_cases regs port with ⟨-, hregs⟩ | ⟨e, -, -, -, hregs⟩
  · rw [hregs, h]
  · rw [hregs]
    by_cases hr : reg = e.reg
    · subst hr
      rw [Function.update_self, or_keeps_set h]
    · rw [Function.update_of_ne hr, h]

theorem setAli1533Port_keeps_others (regs : Regs) (port : ℤ) :
    KeepsOtherBits [port] regs (setAli1533Port regs port true).2 := by
  intro reg bits h
  rcases setAli1533Port_cases regs port with ⟨-, hregs⟩ | ⟨e, he, hport, h0, hregs⟩
  · rw [hregs]
  · rw [hregs]
    by_cases hr : reg = e.reg
    · subst hr
      have hbits := h e he (by simp [hport]) (by rwa [hport]) rfl
      rw [Function.update_self, or_keeps_others hbits]
    · rw [Function.update_of_ne hr]

/-! ### Both ports -/

def decodedRegs (regs : Regs) (sirbase firbase : ℤ) : Regs :=
  (setAli1533Port (setAli1533Port regs sirbase true).2 firbase true).2

theorem configureAli1533_found {matched : PciDev → Bool} {bus pre post : List PciDev} {dev : PciDev}
    (h : findPciDevice matched bus = some (pre, dev, post)) (sirbase firbase : ℤ) :
    ∃ log, configureAli1533SmcPortsDecoding matched (some bus) firbase sirbase false =
      (1, log, some (pre ++ { dev with regs := decodedRegs dev.regs sirbase firbase } :: post)) := by
  refine ⟨([sirbase, firbase].foldl enablePort ([.found], dev.regs)).1 ++ [.ended], ?_⟩
  simp only [configureAli1533SmcPortsDecoding, h]
  rfl

theorem decodedRegs_keeps_others (regs : Regs) (sirbase firbase : ℤ) :
    KeepsOtherBits [sirbase, firbase] regs (decodedRegs regs sirbase firbase) := by
  intro reg bits h
  have h1 := setAli1533Port_keeps_others regs sirbase reg bits fun e he hp => h e he (by
    rw [List.mem_singleton] at hp
    simp [hp])
  have h2 := setAli1533Port_keeps_others (setAli1533Port regs sirbase true).2 firbase reg bits
    fun e he hp => h e he (by
      rw [List.mem_singleton] at hp
      simp [hp])
  exact h2.trans h1

theorem decodes_iff (regs : Regs) (sirbase firbase : ℤ) :
    Decodes 1 regs (decodedRegs regs sirbase firbase) sirbase firbase ↔
      Listed sirbase ∧ Listed firbase := by
  constructor
  · rintro ⟨h, -⟩
    obtain ⟨⟨e, he, hp, h0, -⟩, ⟨e', he', hp', h0', -⟩⟩ := h one_ne_zero
    exact ⟨⟨e, he, hp, h0⟩, ⟨e', he', hp', h0'⟩⟩
  · rintro ⟨hs, hf⟩
    refine ⟨fun _ => ⟨?_, setAli1533Port_enables _ hf⟩, decodedRegs_keeps_others regs sirbase firbase⟩
    obtain ⟨e, he, hp, h0, hset⟩ := setAli1533Port_enables regs hs
    exact ⟨e, he, hp, h0, setAli1533Port_keeps_set _ firbase hset⟩

/-- With the bridge found, the call returns 1 and rewrites the registers of the bridge alone;
what it reports is so exactly when the table has both ports. -/
theorem ports_decoded_iff (matched : PciDev → Bool) (bus pre post : List PciDev) (dev : PciDev)
    (h : findPciDevice matched bus = some (pre, dev, post)) (sirbase firbase : ℤ) :
    ∃ ret log regs, configureAli1533SmcPortsDecoding matched (some bus) firbase sirbase false =
        (ret, log, some (pre ++ { dev with regs := regs } :: post)) ∧
      (Decodes ret dev.regs regs sirbase firbase ↔ Listed sirbase ∧ Listed firbase) := by
  obtain ⟨log, hrun⟩ := configureAli1533_found h sirbase firbase
  exact ⟨1, log, _, hrun, decodes_iff dev.regs sirbase firbase⟩

/-- The bridge with all decoding off, alone on its bus. -/
def bareBridge : PciDev := ⟨0x10b9, 0x1533, fun _ => 0⟩

theorem ports_decoded_defaults :
    ∃ ret log regs, configureAli1533SmcPortsDecoding (·.device == 0x1533) (some [bareBridge]) 0x2f8
        0x2e8 false = (ret, log, some [{ bareBridge with regs := regs }]) ∧
      Decodes ret bareBridge.regs regs 0x2e8 0x2f8 := by
  obtain ⟨ret, log, regs, hrun, hiff⟩ := ports_decoded_iff (·.device == 0x1533) [bareBridge] [] []
    bareBridge rfl 0x2e8 0x2f8
  have hlisted : Listed 0x2e8 ∧ Listed 0x2f8 :=
    ⟨⟨⟨0x2e8, 0xb4, 0x08⟩, by decide, rfl, by decide⟩, ⟨⟨0x2f8, 0xb4, 0x30⟩, by decide, rfl, by decide⟩⟩
  exact ⟨ret, log, regs, hrun, hiff.2 hlisted⟩

/-- The second serial port has no entry: nothing is set, and the call returns 1. -/
theorem unlisted_port_reported :
    ∃ log, configureAli1533SmcPortsDecoding (·.device == 0x1533) (some [bareBridge]) 0x2f8 0x3e8 false =
        (1, log, some [{ bareBridge with regs := decodedRegs bareBridge.regs 0x3e8 0x2f8 }]) ∧
      .enabledDecoding 0x3e8 ∈ log ∧
      ¬ Decodes 1 bareBridge.regs (decodedRegs bareBridge.regs 0x3e8 0x2f8) 0x3e8 0x2f8 := by
  refine ⟨[.found, .enabledDecoding 0x3e8, .enabledDecoding 0x2f8, .ended], rfl, by decide, ?_⟩
  rw [decodes_iff]
  rintro ⟨⟨e, he, hp, -⟩, -⟩
  have hno : ∀ e ∈ ali1533Ports, e.port ≠ 0x3e8 := by decide
  exact hno e he hp

end ToshSmcinit
