import ConvexCollision.Proofs.Exact.Order
import ConvexCollision.Proofs.Exact.Triangle
import ConvexCollision.Proofs.Signs

/-!
# ConvexCollision.Proofs.Exact.Signs -- the real numbers keep the laws of signs

Every real number is defined and finite, so the conditions under which the laws of signs hold are met
without being asked for. What was proved from these laws of contacts and of objects that stand holds of
exact arithmetic as well.
-/

namespace ConvexCollision

instance : Scalar.Strict ℝ where
  defined_add _ := ⟨le_refl _, le_refl _⟩
  defined_sub _ := ⟨le_refl _, le_refl _⟩
  defined_mul _ := ⟨le_refl _, le_refl _⟩
  defined_div _ := ⟨le_refl _, le_refl _⟩
  defined_neg _ := le_refl _
  defined_sqrt _ := le_refl _
  defined_of_isFinite _ := le_refl _

instance : Scalar.Signed ℝ where
  zero_le_one := by simp only [Scalar.zero_real, Scalar.one_real, zero_le_one]
  isFinite_one_sub _ _ := rfl
  add_nonneg := by
    rw [Scalar.zero_real]
    exact add_nonneg
  sub_nonneg _ h := by
    rw [Scalar.zero_real]
    exact sub_nonneg.mpr h
  mul_self_nonneg {a} _ := by
    rw [Scalar.zero_real]
    exact mul_self_nonneg a
  mul_nonneg ha hb _ := by
    rw [Scalar.zero_real] at *
    exact mul_nonneg ha hb.le
  div_nonneg ha hb _ := by
    rw [Scalar.zero_real] at *
    exact div_nonneg ha hb.le
  sqrt_nonneg {a} _ := by
    rw [Scalar.zero_real]
    exact Real.sqrt_nonneg a
  sub_same _ hsame := by
    rw [Scalar.same_real] at *
    rw [Scalar.zero_real, hsame, sub_self]
  neg_same_zero hzero := by
    rw [Scalar.same_real, Scalar.zero_real] at *
    rw [hzero, neg_zero]
  mul_same_zero hzero _ := by
    rw [Scalar.same_real, Scalar.zero_real] at *
    rw [hzero, zero_mul]
  add_same _ hzero := by
    rw [Scalar.same_real, Scalar.zero_real] at *
    rw [hzero, add_zero]

instance : Approach.Tuned ℝ where
  grazing_pos := by
    rw [Scalar.zero_real]
    unfold Approach.grazing
    norm_num
  isFinite_grazing := rfl
  isFinite_skin := rfl
  skin_le_touching := by
    unfold Approach.skin Approach.touching
    norm_num
  nowhere := by rw [Vec3.zero_eq, sub_self, Vec3.normalizeOrZero_zero]

end ConvexCollision
