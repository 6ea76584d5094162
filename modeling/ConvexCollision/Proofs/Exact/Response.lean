import ConvexCollision.Proofs.Exact.Triangle
import ConvexCollision.Proofs.Pair.Shares

/-!
# ConvexCollision.Proofs.Exact.Response -- what a contact does to a velocity

A velocity is the sum of a part along the surface and a part along its normal. A contact scales the former by
what friction leaves and turns the latter round, scaled by the bounce (`correctVelocity_of_into`). The two parts
stay perpendicular, so with a bounce of one at most and a friction of two at most nothing gets longer
(`length_correctVelocity_le`), and since the velocity then leads out of the surface, a second contact with it
changes nothing (`correctVelocity_again`). The correction along the normal alone, which sweeps use, is the same
contact without friction (`bounceVelocity_eq`).
-/

namespace ConvexCollision

variable {velocity normal : Vec3 ℝ} {bounce friction : ℝ}

theorem correctVelocity_of_leaving (bounce friction : ℝ) (h : 0 ≤ velocity.dot normal) :
    correctVelocity velocity normal bounce friction = velocity := by
  refine if_pos ?_
  rwa [Scalar.zero_real]

/-- The part along the surface, and the part along the normal. -/
theorem correctVelocity_of_into (bounce friction : ℝ) (h : velocity.dot normal < 0) :
    correctVelocity velocity normal bounce friction =
      (1 - friction) • (velocity - velocity.dot normal • normal) -
        (velocity.dot normal * bounce) • normal := by
  refine (if_neg ?_).trans ?_
  · rw [Scalar.zero_real]
    exact not_le.mpr h
  · rw [Scalar.one_real, Vec3.mul_eq_smul, Vec3.mul_eq_smul, Vec3.mul_eq_smul]

section Unit

variable (hunit : normal.dot normal = 1)

include hunit

/-- What is left of a vector without its part along the normal is perpendicular to it. -/
theorem along_dot (velocity : Vec3 ℝ) : (velocity - velocity.dot normal • normal).dot normal = 0 := by
  rw [Vec3.sub_dot, Vec3.smul_dot, hunit, mul_one, sub_self]

/-- Its square and that of the part along the normal add up. -/
theorem along_dot_self (velocity : Vec3 ℝ) : (velocity - velocity.dot normal • normal).dot
    (velocity - velocity.dot normal • normal) = velocity.dot velocity - velocity.dot normal ^ 2 := by
  rw [Vec3.dot_sub, Vec3.dot_smul, along_dot hunit, Vec3.sub_dot, Vec3.smul_dot, Vec3.dot_comm normal velocity]
  ring

/-- **The part into the surface is thrown back, scaled by the bounce.** -/
theorem correctVelocity_dot (bounce friction : ℝ) (h : velocity.dot normal < 0) :
    (correctVelocity velocity normal bounce friction).dot normal = -bounce * velocity.dot normal := by
  rw [correctVelocity_of_into bounce friction h, Vec3.sub_dot, Vec3.smul_dot, Vec3.smul_dot,
    along_dot hunit, hunit]
  ring

theorem correctVelocity_dot_self (bounce friction : ℝ) (h : velocity.dot normal < 0) :
    (correctVelocity velocity normal bounce friction).dot (correctVelocity velocity normal bounce friction) =
      (1 - friction) ^ 2 * (velocity.dot velocity - velocity.dot normal ^ 2) +
        bounce ^ 2 * velocity.dot normal ^ 2 := by
  have halong := along_dot hunit velocity
  rw [correctVelocity_of_into bounce friction h, ← along_dot_self hunit velocity]
  generalize velocity - velocity.dot normal • normal = along at halong ⊢
  simp only [Vec3.sub_dot, Vec3.dot_sub, Vec3.smul_dot, Vec3.dot_smul, halong, hunit,
    Vec3.dot_comm normal along]
  ring

/-- **A contact makes no velocity longer.** -/
theorem length_correctVelocity_le (hbounce : 0 ≤ bounce) (hbounce1 : bounce ≤ 1) (hfriction : 0 ≤ friction)
    (hfriction2 : friction ≤ 2) : (correctVelocity velocity normal bounce friction).length ≤ velocity.length := by
  rcases le_or_gt 0 (velocity.dot normal) with hleaving | hinto
  · rw [correctVelocity_of_leaving bounce friction hleaving]
  · refine Real.sqrt_le_sqrt ?_
    rw [Vec3.lengthSq_eq, Vec3.lengthSq_eq, correctVelocity_dot_self hunit bounce friction hinto]
    have halong : 0 ≤ velocity.dot velocity - velocity.dot normal ^ 2 := by
      rw [← along_dot_self hunit velocity]
      exact Vec3.dot_self_nonneg _
    have hslide : (1 - friction) ^ 2 ≤ 1 := by
      rw [sq_le_one_iff_abs_le_one, abs_le]
      constructor <;> linarith
    have hthrow : bounce ^ 2 ≤ 1 := pow_le_one₀ hbounce hbounce1
    calc (1 - friction) ^ 2 * (velocity.dot velocity - velocity.dot normal ^ 2) +
          bounce ^ 2 * velocity.dot normal ^ 2
        ≤ 1 * (velocity.dot velocity - velocity.dot normal ^ 2) + 1 * velocity.dot normal ^ 2 :=
          add_le_add (mul_le_mul_of_nonneg_right hslide halong)
            (mul_le_mul_of_nonneg_right hthrow (sq_nonneg _))
      _ = velocity.dot velocity := by ring

/-- A second contact with the same surface changes nothing, whatever its bounce and friction. -/
theorem correctVelocity_again (hbounce : 0 ≤ bounce) (friction bounce' friction' : ℝ) :
    correctVelocity (correctVelocity velocity normal bounce friction) normal bounce' friction' =
      correctVelocity velocity normal bounce friction :=
  correctVelocity_of_leaving bounce' friction' (dot_correctVelocity_nonneg hunit hbounce friction)

end Unit

/-- The correction along the normal alone is a contact without friction. -/
theorem bounceVelocity_eq (velocity normal : Vec3 ℝ) (bounce : ℝ) :
    bounceVelocity velocity normal bounce = correctVelocity velocity normal bounce 0 := by
  unfold bounceVelocity
  simp only [Scalar.zero_real, Scalar.one_real, Vec3.mul_eq_smul]
  rcases le_or_gt 0 (velocity.dot normal) with hleaving | hinto
  · rw [if_neg (not_lt.mpr hleaving), correctVelocity_of_leaving bounce 0 hleaving]
  · rw [if_pos hinto, correctVelocity_of_into bounce 0 hinto]
    module

end ConvexCollision
