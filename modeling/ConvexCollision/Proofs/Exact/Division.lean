import ConvexCollision.Proofs.Exact.Vector

/-!
# ConvexCollision.Proofs.Exact.Division -- what a division by zero would give

Among the real numbers a division by zero gives zero, so nothing tells that one took place. To say that none
does, the division is replaced by any other one that is the same where the divisor is not zero
(`Scalar.withDiv`). What comes out the same with every such division never divided by zero on its way.
-/

namespace ConvexCollision

/-- The real numbers with another division. -/
@[reducible] noncomputable def Scalar.withDiv (div : ℝ → ℝ → ℝ) : Scalar ℝ :=
  { (inferInstance : Scalar ℝ) with div }

variable {div : ℝ → ℝ → ℝ} (hdiv : ∀ a b, b ≠ 0 → div a b = a / b)

include hdiv

/-- A quotient by a number other than zero. -/
theorem Scalar.div_withDiv (a : ℝ) {b : ℝ} (hb : b ≠ 0) :
    @HDiv.hDiv ℝ ℝ ℝ (@instHDiv ℝ (Scalar.withDiv div).toDiv) a b = a / b := hdiv a b hb

/-- The quotient of a vector by a number other than zero. -/
theorem Vec3.div_withDiv (v : Vec3 ℝ) {s : ℝ} (hs : s ≠ 0) :
    @HDiv.hDiv (Vec3 ℝ) ℝ (Vec3 ℝ) (@Vec3.instHDiv ℝ (Scalar.withDiv div)) v s = v / s := by
  ext
  · exact hdiv _ _ hs
  · exact hdiv _ _ hs
  · exact hdiv _ _ hs

end ConvexCollision
