import IrdaUtils.Lib.Masks
import IrdaUtils.Spec.ToshSmcinit

/-! The registers of the LPC47N227 behind `configure_47N227_smc_ircc`. The function is a chain
of writes to one register each, so that the registers behind it are a chain of updates; all
but one of them are as meant. The mode of UART2 is only cleared: the mask of the field and the
value are joined in the operand of the `&=`. -/

namespace ToshSmcinit

open Masks PortIo

/-- The registers as the function is meant to leave them. -/
structure Configured (old new : UInt8 → UInt8) (sirbase firbase dma irq : BitVec 32) : Prop where
  sir : ((new 0x25).toNat : ℤ) = (sirbase.toInt >>> (2 : ℕ)) % 256
  fir : ((new 0x2b).toNat : ℤ) = (firbase.toInt >>> (3 : ℕ)) % 256
  firDma : (new 0x2c).toNat = (dma &&& 0x0f).toNat
  uart2Irq : (new 0x28 &&& 0x0f).toNat = (irq &&& 0x0f).toNat
  uart1Irq : new 0x28 &&& 0xf0 = old 0x28 &&& 0xf0
  uart2Mode : new 0x0c &&& 0x38 = 0x08
  uartModeRest : new 0x0c &&& ~~~0x38 = old 0x0c &&& ~~~0x38
  autoPowerDown : new 0x07 = old 0x07 ||| 0x20
  power : new 0x02 = old 0x02 ||| 0x80
  valid : new 0x00 = old 0x00 ||| 0x80
  others : ∀ r, r ∉ [0x25, 0x2b, 0x2c, 0x28, 0x0c, 0x07, 0x02, 0x00] → new r = old r

/-! ### The run -/

def configuredRegs (regs : UInt8 → UInt8) (sirbase firbase dma irq : BitVec 32) : UInt8 → UInt8 :=
  let r := Function.update regs 0x25 (toByte (sirbase.sshiftRight 2))
  let r := Function.update r 0x2b (toByte (firbase.sshiftRight 3))
  let r := Function.update r 0x2c (toByte (dma &&& 0x0f))
  let r := Function.update r 0x28 (r 0x28 &&& 0xf0 ||| toByte (irq &&& 0x0f))
  let r := Function.update r 0x0c (r 0x0c &&& (~~~0x38 ||| 0x08))
  let r := Function.update r 0x07 (r 0x07 ||| 0x20)
  let r := Function.update r 0x02 (r 0x02 ||| 0x80)
  Function.update r 0x00 (r 0x00 ||| 0x80)

theorem configure_run (cfgbase : UInt16) (sirbase firbase dma irq : BitVec 32) (c : IndexChip) :
    (lpc47N227 cfgbase).device.Run (configure47N227SmcIrcc true cfgbase sirbase firbase dma irq) c 1
      ⟨false, 0x00, configuredRegs c.regs sirbase firbase dma irq⟩ := by
  have hreg : ∀ r : UInt8, r ≠ 0xaa → r ≠ (lpc47N227 cfgbase).exitKey := fun r h => h
  have hkeys : cfgAccessKey ≠ cfgExitKey := by decide
  obtain ⟨i, henter⟩ := IndexPort.run_enter (p := lpc47N227 cfgbase) c hkeys
  exact .bind henter <|
    .bind (IndexPort.run_writeReg (hreg 0x25 (by decide)) _ _ _) <|
    .bind (IndexPort.run_writeReg (hreg 0x2b (by decide)) _ _ _) <|
    .bind (IndexPort.run_writeReg (hreg 0x2c (by decide)) _ _ _) <|
    .bind (IndexPort.run_modifyReg (hreg 0x28 (by decide)) _ _ _) <|
    .bind (IndexPort.run_modifyReg (hreg 0x0c (by decide)) _ _ _) <|
    .bind (IndexPort.run_modifyReg (hreg 0x07 (by decide)) _ _ _) <|
    .bind (IndexPort.run_modifyReg (hreg 0x02 (by decide)) _ _ _) <|
    .bind (IndexPort.run_modifyReg (hreg 0x00 (by decide)) _ _ _) <|
    .bind (IndexPort.run_exit _ _) (.pure 1 _)

/-! ### Bits -/

theorem toByte_eq_mod (z : BitVec 32) : ((toByte z).toNat : ℤ) = z.toInt % 256 := by
  have h : (toByte z).toNat = z.toNat % 256 := by
    rw [toByte, UInt8.toNat_ofBitVec, BitVec.toNat_setWidth]
  rw [h, BitVec.toInt_eq_toNat_bmod, Int.bmod_def]
  split_ifs <;> push_cast <;> omega

theorem toByte_nibble (z : BitVec 32) : (toByte (z &&& 0x0f)).toNat = (z &&& 0x0f).toNat := by
  have h : (z &&& 0x0f).toNat ≤ 15 := by
    rw [BitVec.toNat_and]
    exact Nat.and_le_right
  rw [toByte, UInt8.toNat_ofBitVec, BitVec.toNat_setWidth, Nat.mod_eq_of_lt (by omega)]

theorem nibble_and (z : BitVec 32) : toByte (z &&& 0x0f) &&& 0x0f = toByte (z &&& 0x0f) := by
  have h : (z &&& 0x0f).toNat < 16 := by
    rw [BitVec.toNat_and]
    exact Nat.lt_succ_of_le Nat.and_le_right
  apply UInt8.toNat_inj.1
  rw [UInt8.toNat_and, toByte_nibble]
  exact (Nat.and_two_pow_sub_one_eq_mod _ 4).trans (Nat.mod_eq_of_lt h)

theorem irq_low (b : UInt8) (irq : BitVec 32) :
    (b &&& 0xf0 ||| toByte (irq &&& 0x0f)) &&& 0x0f = toByte (irq &&& 0x0f) := by
  have hb : b &&& 0xf0 &&& 0x0f = 0 := by
    rw [UInt8.and_assoc]
    exact UInt8.and_zero
  rw [mask_or, hb, UInt8.zero_or, nibble_and]

theorem irq_high (b : UInt8) (irq : BitVec 32) :
    (b &&& 0xf0 ||| toByte (irq &&& 0x0f)) &&& 0xf0 = b &&& 0xf0 := by
  have hz : 0xf0 &&& toByte (irq &&& 0x0f) = 0 := by
    rw [← nibble_and, UInt8.and_comm, UInt8.and_assoc]
    exact UInt8.and_zero
  rw [or_keeps_others hz, UInt8.and_assoc, UInt8.and_self]

/-- The joined operand keeps the bit of the IrDA mode and never sets it. -/
theorem mode_field (b : UInt8) : b &&& (~~~0x38 ||| 0x08) &&& 0x38 = b &&& 0x08 := by
  rw [UInt8.and_assoc]
  rfl

theorem mode_rest (b : UInt8) : b &&& (~~~0x38 ||| 0x08) &&& ~~~0x38 = b &&& ~~~0x38 := by
  rw [UInt8.and_assoc]
  rfl

/-! ### The registers -/

theorem configuredRegs_other {r : UInt8} (h : r ∉ [0x25, 0x2b, 0x2c, 0x28, 0x0c, 0x07, 0x02, 0x00])
    (regs : UInt8 → UInt8) (sirbase firbase dma irq : BitVec 32) :
    configuredRegs regs sirbase firbase dma irq r = regs r := by
  simp only [List.mem_cons, List.not_mem_nil, or_false, not_or] at h
  obtain ⟨h25, h2b, h2c, h28, h0c, h07, h02, h00⟩ := h
  simp only [configuredRegs]
  rw [Function.update_of_ne h00, Function.update_of_ne h02, Function.update_of_ne h07,
    Function.update_of_ne h0c, Function.update_of_ne h28, Function.update_of_ne h2c,
    Function.update_of_ne h2b, Function.update_of_ne h25]

theorem configured_iff (regs : UInt8 → UInt8) (sirbase firbase dma irq : BitVec 32) :
    Configured regs (configuredRegs regs sirbase firbase dma irq) sirbase firbase dma irq ↔
      regs 0x0c &&& 0x08 = 0x08 := by
  have hmode : configuredRegs regs sirbase firbase dma irq 0x0c = regs 0x0c &&& (~~~0x38 ||| 0x08) := rfl
  have hirq : configuredRegs regs sirbase firbase dma irq 0x28 =
      regs 0x28 &&& 0xf0 ||| toByte (irq &&& 0x0f) := rfl
  constructor
  · intro h
    have hm := h.uart2Mode
    rwa [hmode, mode_field] at hm
  · intro hm
    refine ⟨?_, ?_, toByte_nibble dma, ?_, ?_, ?_, ?_, rfl, rfl, rfl, fun r hr => configuredRegs_other hr _ _ _ _ _⟩
    · rw [← BitVec.toInt_sshiftRight, ← toByte_eq_mod]
      rfl
    · rw [← BitVec.toInt_sshiftRight, ← toByte_eq_mod]
      rfl
    · rw [hirq, irq_low, toByte_nibble]
    · rw [hirq, irq_high]
    · rw [hmode, mode_field, hm]
    · rw [hmode, mode_rest]

/-- Returning 1, the function leaves the chip closed, and configured as meant exactly when the
bit of the IrDA mode was already set. -/
theorem smc_ircc_configured_iff (granted : Bool) (cfgbase : UInt16)
    (sirbase firbase dma irq : BitVec 32) (c : IndexChip) :
    let d := (lpc47N227 cfgbase).device
    let r := configure47N227SmcIrcc granted cfgbase sirbase firbase dma irq (d.hardware c) []
    (r.1 = 1 → (d.state c r.2).config = false ∧
        Configured c.regs (d.state c r.2).regs sirbase firbase dma irq) ↔
      (granted = true → c.regs 0x0c &&& 0x08 = 0x08) := by
  cases granted with
  | false => exact iff_of_true (fun h => absurd h Nat.zero_ne_one) (fun h => absurd h (by decide))
  | true =>
    obtain ⟨hret, hstate⟩ := configure_run cfgbase sirbase firbase dma irq c c [] rfl
    simp only [hret, hstate, true_implies, true_and]
    exact configured_iff c.regs sirbase firbase dma irq

/-- A chip with cleared registers. -/
def clearedChip : IndexChip := ⟨false, 0, fun _ => 0⟩

/-- With the default values it stays in the mode of a serial port. -/
theorem smc_ircc_mode_not_set :
    let d := (lpc47N227 0x2e).device
    let r := configure47N227SmcIrcc true 0x2e 0x2e8 0x2f8 3 7 (d.hardware clearedChip) []
    r.1 = 1 ∧ ¬ Configured clearedChip.regs (d.state clearedChip r.2).regs 0x2e8 0x2f8 3 7 := by
  obtain ⟨hret, hstate⟩ := configure_run 0x2e 0x2e8 0x2f8 3 7 clearedChip clearedChip [] rfl
  refine ⟨hret, ?_⟩
  rw [hstate]
  intro h
  exact absurd h.uart2Mode (by decide)

end ToshSmcinit
