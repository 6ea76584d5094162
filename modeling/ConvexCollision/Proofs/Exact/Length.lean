import Mathlib.Analysis.SpecialFunctions.Trigonometric.Basic
import ConvexCollision.Proofs.Exact.Shape

/-!
# ConvexCollision.Proofs.Exact.Length -- lengths of sums and products

The length of a vector is a norm. It bounds each coordinate and the products with other vectors, and is
bounded in turn by what bounds the coordinates.
-/

namespace ConvexCollision.Vec3

variable (v w : Vec3 ℝ) (s : ℝ) {p q : ℝ}

/-! ## §A Sums and products -/

theorem length_smul_abs : (s • v).length = |s| * v.length := by
  refine (mul_self_inj (length_nonneg _) (mul_nonneg (abs_nonneg s) (length_nonneg _))).mp ?_
  rw [length_mul_self, dot_smul, smul_dot, mul_mul_mul_comm, length_mul_self, abs_mul_abs_self, mul_assoc]

@[simp] theorem length_neg : (-v).length = v.length := by
  unfold length
  rw [lengthSq_neg]

theorem abs_dot_le : |v.dot w| ≤ v.length * w.length := by
  refine abs_le'.mpr ⟨dot_le_length_mul_length v w, ?_⟩
  have hneg := dot_le_length_mul_length (-v) w
  rwa [neg_dot, length_neg] at hneg

theorem length_add_le : (v + w).length ≤ v.length + w.length := by
  refine nonneg_le_nonneg_of_sq_le_sq (add_nonneg v.length_nonneg w.length_nonneg) ?_
  have hdot := dot_le_length_mul_length v w
  have hv := length_mul_self v
  have hw := length_mul_self w
  rw [length_mul_self]
  simp only [dot_add, add_dot, dot_comm w v]
  linarith

theorem length_sub_le : (v - w).length ≤ v.length + w.length := by
  have h := length_add_le v (-w)
  rwa [length_neg, ← sub_eq_add_neg] at h

theorem length_cross_le : (v.cross w).length ≤ v.length * w.length := by
  refine nonneg_le_nonneg_of_sq_le_sq (mul_nonneg v.length_nonneg w.length_nonneg) ?_
  -- what is missing is the square of the inner product
  have hmissing : (v.cross w).dot (v.cross w) = v.dot v * w.dot w - v.dot w * v.dot w := by
    simp only [dot_def, cross_x, cross_y, cross_z]
    ring
  rw [length_mul_self, mul_mul_mul_comm, length_mul_self, length_mul_self, hmissing]
  exact sub_le_self _ (mul_self_nonneg _)

/-! ## §B Lengths and coordinates -/

/-- No part of a vector on an axis is longer than the vector. -/
theorem abs_coord_le (axis : Axis) : |v.coord axis| ≤ v.length := by
  refine Real.abs_le_sqrt ?_
  rw [lengthSq_eq, dot_def]
  have hx := mul_self_nonneg v.x
  have hy := mul_self_nonneg v.y
  have hz := mul_self_nonneg v.z
  cases axis <;> simp only [coord] <;> linarith

variable {v w}

/-- A vector with shorter parts is shorter. -/
theorem length_le_length (h : ∀ axis, |v.coord axis| ≤ |w.coord axis|) : v.length ≤ w.length := by
  refine Real.sqrt_le_sqrt ?_
  have hx := sq_le_sq.mpr (h .x)
  have hy := sq_le_sq.mpr (h .y)
  have hz := sq_le_sq.mpr (h .z)
  simp only [lengthSq_eq, dot_def, coord, ← pow_two] at hx hy hz ⊢
  linarith

/-- A vector with three short parts is at most twice as long. -/
theorem length_le_two_mul (h : ∀ axis, |v.coord axis| ≤ p) : v.length ≤ 2 * p := by
  have hp : 0 ≤ p := (abs_nonneg _).trans (h .x)
  refine Real.sqrt_le_iff.mpr ⟨by linarith, ?_⟩
  have hx := sq_le_sq' (abs_le.mp (h .x)).1 (abs_le.mp (h .x)).2
  have hy := sq_le_sq' (abs_le.mp (h .y)).1 (abs_le.mp (h .y)).2
  have hz := sq_le_sq' (abs_le.mp (h .z)).1 (abs_le.mp (h .z)).2
  simp only [lengthSq_eq, dot_def, coord, ← pow_two] at hx hy hz ⊢
  nlinarith [sq_nonneg p]

@[simp] theorem length_abs : v.abs.length = v.length := by
  refine le_antisymm (length_le_length ?_) (length_le_length ?_) <;>
    intro axis <;> cases axis <;> simp [coord, abs]

/-- Parts that are short beside those of another vector, up to a constant. -/
theorem length_le_of_abs_le (hp : 0 ≤ p) (h : ∀ axis, |v.coord axis| ≤ p * |w.coord axis| + q)
    (hq : 0 ≤ q) : v.length ≤ p * w.length + 2 * q := by
  let sum : Vec3 ℝ := ofCoords fun axis => p * |w.coord axis| + q
  have hsum : sum = p • w.abs + splat q := by
    ext <;> simp [sum, ofCoords, coord, abs, splat]
  calc v.length ≤ sum.length := length_le_length fun axis => by
        refine (h axis).trans ?_
        cases axis <;> exact le_abs_self _
    _ ≤ (p • w.abs).length + (splat q).length := hsum ▸ length_add_le _ _
    _ ≤ p * w.length + 2 * q := by
        rw [length_smul _ hp, length_abs]
        refine add_le_add_right (length_le_two_mul fun axis => ?_) _
        cases axis <;> exact (abs_of_nonneg hq).le

/-! ## §C The terms of products -/

/-- The terms of the inner product, whatever their signs. -/
theorem abs_dot_terms_le (v w : Vec3 ℝ) :
    |v.x * w.x| + |v.y * w.y| + |v.z * w.z| ≤ v.length * w.length := by
  have h := dot_le_length_mul_length v.abs w.abs
  rw [length_abs, length_abs] at h
  simpa only [dot_def, abs, Scalar.abs_real, abs_mul] using h

/-- The two terms of a coordinate of the vector product, whatever their signs. -/
theorem abs_cross_terms_le (v w : Vec3 ℝ) (axis : Axis) :
    |v.coord axis.next * w.coord axis.next.next| + |w.coord axis.next * v.coord axis.next.next| ≤
      v.length * w.length := by
  -- the inner product of two vectors in the plane square to the axis
  let v' : Vec3 ℝ := ⟨v.coord axis.next, v.coord axis.next.next, 0⟩
  let w' : Vec3 ℝ := ⟨w.coord axis.next.next, w.coord axis.next, 0⟩
  have hv : v'.length ≤ v.length := Real.sqrt_le_sqrt (by
    simp only [lengthSq_eq, dot_def, v', mul_zero, add_zero]
    have := mul_self_nonneg (v.coord axis)
    cases axis <;> simp only [coord, Axis.next] at this ⊢ <;> linarith)
  have hw : w'.length ≤ w.length := Real.sqrt_le_sqrt (by
    simp only [lengthSq_eq, dot_def, w', mul_zero, add_zero]
    have := mul_self_nonneg (w.coord axis)
    cases axis <;> simp only [coord, Axis.next] at this ⊢ <;> linarith)
  have hterms := abs_dot_terms_le v' w'
  simp only [v', w', mul_zero, abs_zero, add_zero] at hterms
  rw [mul_comm (w.coord axis.next)]
  exact hterms.trans (mul_le_mul hv hw (length_nonneg _) (length_nonneg _))

end ConvexCollision.Vec3
