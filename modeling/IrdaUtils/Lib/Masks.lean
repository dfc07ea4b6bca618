import Mathlib.Tactic

/-! Masks of bytes: what setting the bits of a mask does to the bits of another one. -/

namespace Masks

theorem byte_ext {a b : UInt8} (h : ∀ (i : ℕ) (hi : i < 8), a.toBitVec[i] = b.toBitVec[i]) : a = b := by
  apply UInt8.toBitVec_inj.1
  ext i hi
  exact h i hi

theorem mask_or (a b c : UInt8) : (a ||| b) &&& c = a &&& c ||| b &&& c := by
  apply UInt8.toBitVec_inj.1
  exact BitVec.and_or_distrib_right

/-- Clearing the bits of a mask first makes no difference to setting them. -/
theorem set_bits (b m : UInt8) : b &&& ~~~m ||| m = b ||| m := by
  apply byte_ext
  intro i hi
  simp only [UInt8.toBitVec_or, UInt8.toBitVec_and, UInt8.toBitVec_not, BitVec.getElem_or,
    BitVec.getElem_and, BitVec.getElem_not]
  cases m.toBitVec[i] <;> simp

theorem clear_mask (v m : UInt8) : (v &&& ~~~m) &&& m = 0 := by
  apply byte_ext
  intro i hi
  simp only [UInt8.toBitVec_and, UInt8.toBitVec_not, BitVec.getElem_and, BitVec.getElem_not]
  cases m.toBitVec[i] <;> simp

theorem mask_or_self (b m : UInt8) : (b ||| m) &&& m = m := by
  apply byte_ext
  intro i hi
  simp only [UInt8.toBitVec_or, UInt8.toBitVec_and, BitVec.getElem_or, BitVec.getElem_and]
  cases m.toBitVec[i] <;> simp

/-- Bits that were set stay so. -/
theorem or_keeps_set {b k : UInt8} (h : b &&& k = k) (m : UInt8) : (b ||| m) &&& k = k := by
  rw [mask_or, h, UInt8.or_comm]
  conv_rhs => rw [← mask_or_self m k]
  rw [mask_or, UInt8.and_self]

/-- Bits outside the mask keep their values. -/
theorem or_keeps_others {m k : UInt8} (h : k &&& m = 0) (b : UInt8) : (b ||| m) &&& k = b &&& k := by
  rw [mask_or, UInt8.and_comm m, h, UInt8.or_zero]

/-- Bytes one by one. -/
theorem forall_byte {p : UInt8 → Prop} (h : ∀ n < 256, p (UInt8.ofNat n)) (b : UInt8) : p b := by
  have hb := h b.toNat b.toNat_lt
  rwa [UInt8.ofNat_toNat] at hb

end Masks
