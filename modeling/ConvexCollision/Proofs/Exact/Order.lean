import Mathlib.Algebra.Order.Floor.Semiring
import ConvexCollision.Proofs.Exact.Scalar
import ConvexCollision.Proofs.Grid

/-!
# ConvexCollision.Proofs.Exact.Order -- the real numbers keep the laws of comparison

Every real number is defined, and the rounding of the grids keeps the order of the real numbers. What
was proved of trees and their grids from these laws therefore holds of exact arithmetic as well. The one
law that the real numbers do not have is an end to the finite numbers.
-/

namespace ConvexCollision

namespace Scalar

/-- The smaller of two real numbers is their minimum. -/
@[simp] theorem minNum_real (x y : ℝ) : Scalar.minNum x y = min x y := by
  have hdef (t : ℝ) : Scalar.isUndefined t = false := by simp [Scalar.isUndefined]
  simp only [Scalar.minNum, hdef, Bool.false_eq_true, if_false]
  split
  · exact (min_eq_left (le_of_lt ‹_›)).symm
  · exact (min_eq_right (le_of_not_gt ‹_›)).symm

instance : Ordered ℝ where
  le_trans := le_trans
  defined_left _ := le_refl _
  defined_right _ := le_refl _
  le_total _ _ := le_total _ _
  lt_iff := lt_iff_le_not_ge

instance : WholeParts ℝ where
  floor_mono h := Int.cast_le.mpr (Int.floor_mono h)
  ceil_mono h := Int.cast_le.mpr (Int.ceil_mono h)
  floor_le_ceil {a} _ := (Int.floor_le a).trans (Int.le_ceil a)

instance : FiniteEnds ℝ where
  isFinite_maxFinite := rfl
  isFinite_neg_maxFinite := rfl
  defined _ := le_refl _

end Scalar

/-- Truncation to 16 bits goes to the nearer end of the range, which keeps the order. -/
theorem Grid.toUInt16_mono_real {a b : ℝ} (h : a ≤ b) : Scalar.toUInt16 a ≤ Scalar.toUInt16 b := by
  have hfits (x : ℝ) : min 65535 ⌊x⌋₊ < UInt16.size :=
    (min_le_left 65535 ⌊x⌋₊).trans_lt (by decide)
  show UInt16.ofNat (min 65535 ⌊a⌋₊) ≤ UInt16.ofNat (min 65535 ⌊b⌋₊)
  rw [UInt16.le_iff_toNat_le, UInt16.toNat_ofNat_of_lt' (hfits a), UInt16.toNat_ofNat_of_lt' (hfits b)]
  exact min_le_min_left 65535 (Nat.floor_mono h)

instance : Grid.Lawful ℝ where
  sub_mono _ h := sub_le_sub_right h _
  mul_mono hc h _ _ := by
    rw [Scalar.zero_real] at hc
    exact mul_le_mul_of_nonneg_right h hc
  mul_le_zero _ _ _ hundefined := absurd (le_refl _) hundefined
  toUInt16_mono := Grid.toUInt16_mono_real
  zero_le_lastCell := by
    simp only [Grid.lastCell, Scalar.zero_real, Scalar.ofNat_real]
    norm_num
  zero_le_lastCell_div {a} h := by
    have hepsilon : (0 : ℝ) ≤ Scalar.epsilon := by
      simp only [Scalar.epsilon]
      norm_num
    simp only [Grid.lastCell, Scalar.zero_real, Scalar.ofNat_real]
    exact div_nonneg (by norm_num) (hepsilon.trans h.le)

end ConvexCollision
