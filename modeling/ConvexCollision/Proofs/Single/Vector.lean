import Mathlib.Analysis.SpecialFunctions.Trigonometric.Basic
import ConvexCollision.Proofs.Exact.Length
import ConvexCollision.Proofs.Single.Inexact

/-!
# ConvexCollision.Proofs.Single.Vector -- how far a vector is from the exact one

What holds of one operation is carried over to the operations on vectors. The error of a product is told by
the lengths of its factors: where its terms cancel, the error does not shrink with the result.
-/

namespace ConvexCollision

open Single

namespace Single

variable {x y z w : Float32} {r p m : ℝ}

/-! ## §A Sums of products -/

theorem Near.abs_le (h : Near x r p) : |toReal x| ≤ |r| + p := by
  have htriangle := abs_sub_abs_le_abs_sub (toReal x) r
  linarith [h.error_le]

theorem Near.mono (h : Near x r p) {q : ℝ} (hpq : p ≤ q) : Near x r q := ⟨h.finite, h.error_le.trans hpq⟩

/-- The difference of two products. -/
theorem near_mul_sub_mul (hx : x.isFinite = true) (hy : y.isFinite = true) (hz : z.isFinite = true)
    (hw : w.isFinite = true) (h : |toReal x * toReal y| + |toReal z * toReal w| ≤ m) (hm : m ≤ 2 ^ 90) :
    Near (x * y - z * w) (toReal x * toReal y - toReal z * toReal w) (3 * (relative * m + absolute)) := by
  have hfirst := abs_nonneg (toReal x * toReal y)
  have hsecond := abs_nonneg (toReal z * toReal w)
  have hone := absolute_lt_one
  have hpos := absolute_pos
  have hxy := near_mul hx hy (by linarith)
  have hzw := near_mul hz hw (by linarith)
  have hsub := abs_sub (toReal (x * y)) (toReal (z * w))
  have hxy_le := hxy.abs_le
  have hzw_le := hzw.abs_le
  rw [relative_eq] at hxy hzw hxy_le hzw_le
  have hnear := near_sub hxy.finite hzw.finite (by linarith)
  refine ⟨hnear.finite, ?_⟩
  have herror := hnear.error_le
  have hxy_error := hxy.error_le
  have hzw_error := hzw.error_le
  rw [relative_eq] at herror ⊢
  rw [abs_le] at herror hxy_error hzw_error ⊢
  constructor <;> linarith

/-- The sum of three products. -/
theorem near_mul_add_mul_add_mul {x' y' z' : Float32} (hx : x.isFinite = true) (hx' : x'.isFinite = true)
    (hy : y.isFinite = true) (hy' : y'.isFinite = true) (hz : z.isFinite = true) (hz' : z'.isFinite = true)
    (h : |toReal x * toReal x'| + |toReal y * toReal y'| + |toReal z * toReal z'| ≤ m) (hm : m ≤ 2 ^ 90) :
    Near (x * x' + y * y' + z * z') (toReal x * toReal x' + toReal y * toReal y' + toReal z * toReal z')
      (4 * (relative * m + absolute)) := by
  have hfirst := abs_nonneg (toReal x * toReal x')
  have hsecond := abs_nonneg (toReal y * toReal y')
  have hthird := abs_nonneg (toReal z * toReal z')
  have hone := absolute_lt_one
  have hpos := absolute_pos
  have hxx := near_mul hx hx' (by linarith)
  have hyy := near_mul hy hy' (by linarith)
  have hzz := near_mul hz hz' (by linarith)
  have hxx_le := hxx.abs_le
  have hyy_le := hyy.abs_le
  have hzz_le := hzz.abs_le
  rw [relative_eq] at hxx hyy hzz hxx_le hyy_le hzz_le
  have hplane := abs_add_le (toReal (x * x')) (toReal (y * y'))
  have hsum := near_add hxx.finite hyy.finite (by linarith)
  have hsum_le := hsum.abs_le
  rw [relative_eq] at hsum hsum_le
  have hspace := abs_add_le (toReal (x * x' + y * y')) (toReal (z * z'))
  have hnear := near_add hsum.finite hzz.finite (by linarith)
  refine ⟨hnear.finite, ?_⟩
  have herror := hnear.error_le
  have hsum_error := hsum.error_le
  have hxx_error := hxx.error_le
  have hyy_error := hyy.error_le
  have hzz_error := hzz.error_le
  rw [relative_eq] at herror ⊢
  rw [abs_le] at herror hsum_error hxx_error hyy_error hzz_error ⊢
  constructor <;> linarith

end Single

namespace Vec3

/-! ## §B Vectors near an exact one -/

/-- The vector that a vector of finite numbers stands for. -/
noncomputable def exact (v : Vec3 Float32) : Vec3 ℝ := ⟨toReal v.x, toReal v.y, toReal v.z⟩

/-- A vector of finite numbers that ends not farther from an exact one than some error. -/
structure Near (v : Vec3 Float32) (r : Vec3 ℝ) (error : ℝ) : Prop where
  /-- Every coordinate is finite. -/
  finite : v.IsFinite
  /-- How far it is. -/
  error_le : (v.exact - r).length ≤ error

theorem coord_exact (v : Vec3 Float32) (axis : Axis) : v.exact.coord axis = toReal (v.coord axis) := by
  cases axis <;> rfl

variable {v w : Vec3 Float32} {r : Vec3 ℝ} {p q m : ℝ} {s : Float32}

theorem Near.length_le (h : v.Near r p) : v.exact.length ≤ r.length + p := by
  have htriangle := length_add_le r (v.exact - r)
  rw [add_sub_cancel] at htriangle
  linarith [h.error_le]

theorem Near.le_length (h : v.Near r p) : r.length ≤ v.exact.length + p := by
  have htriangle := length_sub_le v.exact (v.exact - r)
  rw [sub_sub_cancel] at htriangle
  linarith [h.error_le]

theorem Near.mono (h : v.Near r p) (hpq : p ≤ q) : v.Near r q := ⟨h.finite, h.error_le.trans hpq⟩

/-- What is near a vector is near one that is near that. -/
theorem Near.trans (h : v.Near r p) {r' : Vec3 ℝ} (hr : (r - r').length ≤ q) : v.Near r' (p + q) := by
  refine ⟨h.finite, ?_⟩
  have htriangle := length_add_le (v.exact - r) (r - r')
  rw [sub_add_sub_cancel] at htriangle
  linarith [h.error_le]

/-- Coordinates with errors that are short beside the exact ones, up to a constant. -/
theorem near_of_coord (hp : 0 ≤ p) (hq : 0 ≤ q)
    (h : ∀ axis, Single.Near (v.coord axis) (r.coord axis) (p * |r.coord axis| + q)) :
    v.Near r (p * r.length + 2 * q) := by
  refine ⟨fun axis => (h axis).finite, length_le_of_abs_le hp (fun axis => ?_) hq⟩
  rw [coord_sub, coord_exact]
  exact (h axis).error_le

theorem near_sub (hv : v.IsFinite) (hw : w.IsFinite) (h : (v.exact - w.exact).length ≤ 2 ^ 100) :
    (v - w).Near (v.exact - w.exact) (relative * (v.exact - w.exact).length) := by
  have hnear := near_of_coord (v := v - w) (r := v.exact - w.exact) relative_nonneg le_rfl fun axis => by
    have hcoord := (abs_coord_le (v.exact - w.exact) axis).trans h
    rw [coord_sub, coord_exact, coord_exact] at hcoord
    rw [coord_sub, coord_sub, coord_exact, coord_exact, add_zero]
    exact Single.near_sub (hv axis) (hw axis) hcoord
  rwa [mul_zero, add_zero] at hnear

theorem near_scale (hv : v.IsFinite) (hs : s.isFinite = true) (h : |toReal s| * v.exact.length ≤ 2 ^ 100) :
    (v * s).Near (toReal s • v.exact) (relative * (|toReal s| * v.exact.length) + 2 * absolute) := by
  rw [← length_smul_abs] at h ⊢
  refine near_of_coord relative_nonneg absolute_pos.le fun axis => ?_
  have hcoord := (abs_coord_le (toReal s • v.exact) axis).trans h
  simp only [← mul_eq_smul, coord_scale, coord_exact] at hcoord ⊢
  exact near_mul (hv axis) hs hcoord

theorem near_dot (hv : v.IsFinite) (hw : w.IsFinite) (h : v.exact.length * w.exact.length ≤ 2 ^ 90) :
    Single.Near (v.dot w) (v.exact.dot w.exact)
      (4 * (relative * (v.exact.length * w.exact.length) + absolute)) :=
  near_mul_add_mul_add_mul (hv .x) (hw .x) (hv .y) (hw .y) (hv .z) (hw .z)
    (abs_dot_terms_le v.exact w.exact) h

theorem near_cross (hv : v.IsFinite) (hw : w.IsFinite) (h : v.exact.length * w.exact.length ≤ 2 ^ 90) :
    (v.cross w).Near (v.exact.cross w.exact)
      (6 * (relative * (v.exact.length * w.exact.length) + absolute)) := by
  have hcoord (axis : Axis) : Single.Near ((v.cross w).coord axis) ((v.exact.cross w.exact).coord axis)
      (3 * (relative * (v.exact.length * w.exact.length) + absolute)) := by
    have hterms := abs_cross_terms_le v.exact w.exact axis
    rw [coord_cross, coord_cross]
    simp only [coord_exact] at hterms ⊢
    exact near_mul_sub_mul (hv _) (hw _) (hw _) (hv _) hterms h
  refine ⟨fun axis => (hcoord axis).finite, ?_⟩
  have hlength : ((v.cross w).exact - v.exact.cross w.exact).length ≤
      2 * (3 * (relative * (v.exact.length * w.exact.length) + absolute)) := length_le_two_mul fun axis => by
    rw [coord_sub, coord_exact]
    exact (hcoord axis).error_le
  linarith

/-! ## §C Errors carried on -/

section Carried

variable {r' : Vec3 ℝ}

/-- A difference has the errors of both vectors besides its own. -/
theorem Near.sub (hv : v.Near r p) (hw : w.Near r' q) (h : (v.exact - w.exact).length ≤ 2 ^ 100) :
    (v - w).Near (r - r') (relative * (v.exact - w.exact).length + (p + q)) := by
  refine (near_sub hv.finite hw.finite h).trans ?_
  have hsplit : v.exact - w.exact - (r - r') = (v.exact - r) - (w.exact - r') := by abel
  rw [hsplit]
  exact (length_sub_le _ _).trans (add_le_add hv.error_le hw.error_le)

/-- A multiple has the multiple of the error. -/
theorem Near.scale (hv : v.Near r p) (hs : s.isFinite = true) (h : |toReal s| * v.exact.length ≤ 2 ^ 100) :
    (v * s).Near (toReal s • r)
      (relative * (|toReal s| * v.exact.length) + 2 * absolute + |toReal s| * p) := by
  refine (near_scale hv.finite hs h).trans ?_
  rw [← smul_sub, length_smul_abs]
  exact mul_le_mul_of_nonneg_left hv.error_le (abs_nonneg _)

/-- In a vector product the error of each factor is multiplied with the other one. -/
theorem Near.cross (hv : v.Near r p) (hw : w.Near r' q) (h : v.exact.length * w.exact.length ≤ 2 ^ 90) :
    (v.cross w).Near (r.cross r')
      (6 * (relative * (v.exact.length * w.exact.length) + absolute) +
        (p * w.exact.length + r.length * q)) := by
  refine (near_cross hv.finite hw.finite h).trans ?_
  have hsplit : v.exact.cross w.exact - r.cross r' =
      (v.exact - r).cross w.exact + r.cross (w.exact - r') := by
    rw [sub_cross, cross_sub]
    abel
  rw [hsplit]
  refine (length_add_le _ _).trans (add_le_add ?_ ?_)
  · exact (length_cross_le _ _).trans (mul_le_mul_of_nonneg_right hv.error_le (length_nonneg _))
  · exact (length_cross_le _ _).trans (mul_le_mul_of_nonneg_left hw.error_le (length_nonneg _))

theorem Near.dot (hv : v.Near r p) (hw : w.Near r' q) (h : v.exact.length * w.exact.length ≤ 2 ^ 90) :
    Single.Near (v.dot w) (r.dot r')
      (4 * (relative * (v.exact.length * w.exact.length) + absolute) +
        (p * w.exact.length + r.length * q)) := by
  have hdot := near_dot hv.finite hw.finite h
  have hsplit : v.exact.dot w.exact - r.dot r' = (v.exact - r).dot w.exact + r.dot (w.exact - r') := by
    rw [sub_dot, dot_sub]
    ring
  have hfirst := (abs_dot_le (v.exact - r) w.exact).trans
    (mul_le_mul_of_nonneg_right hv.error_le (length_nonneg _))
  have hsecond := (abs_dot_le r (w.exact - r')).trans
    (mul_le_mul_of_nonneg_left hw.error_le (length_nonneg _))
  refine ⟨hdot.finite, (abs_sub_le _ (v.exact.dot w.exact) _).trans (add_le_add hdot.error_le ?_)⟩
  rw [hsplit]
  exact (abs_add_le _ _).trans (add_le_add hfirst hsecond)

end Carried

/-! ## §D Quotients of lengths -/

/-- A vector of finite numbers that is neither so short nor so long that its square leaves their range. -/
structure Moderate (v : Vec3 Float32) : Prop where
  /-- Every coordinate is finite. -/
  finite : v.IsFinite
  /-- Not short. -/
  low : 2⁻¹ ^ 40 ≤ v.exact.length
  /-- Not long. -/
  high : v.exact.length ≤ 2 ^ 40

theorem Moderate.le_lengthSq (hv : v.Moderate) :
    v.lengthSq.isFinite = true ∧ 0.99 * (v.exact.length * v.exact.length) ≤ toReal v.lengthSq := by
  have hlow := mul_le_mul hv.low hv.low (by positivity) v.exact.length_nonneg
  have hhigh := mul_le_mul hv.high hv.high v.exact.length_nonneg (by positivity)
  have hsq : Single.Near v.lengthSq _ _ := near_dot hv.finite hv.finite (hhigh.trans (by norm_num))
  refine ⟨hsq.finite, ?_⟩
  have herror := (abs_le.mp hsq.error_le).1
  rw [← length_mul_self] at herror
  norm_num [relative_eq, absolute_eq] at hlow herror ⊢
  linarith

theorem Moderate.le_length (hv : v.Moderate) :
    v.length.isFinite = true ∧ 0.98 * v.exact.length ≤ toReal v.length := by
  obtain ⟨hfinite, hsq⟩ := hv.le_lengthSq
  have hlow := hv.low
  have hsq : (0.99 * v.exact.length) ^ 2 ≤ toReal v.lengthSq := by
    norm_num at hlow hsq ⊢
    nlinarith
  have hroot : 0.99 * v.exact.length ≤ Real.sqrt (toReal v.lengthSq) := Real.le_sqrt_of_sq_le hsq
  have hpos : 0 < toReal v.lengthSq := lt_of_lt_of_le (by norm_num at hlow ⊢; nlinarith) hsq
  have hlength : Single.Near v.length _ _ := near_sqrt hfinite hpos
  refine ⟨hlength.finite, ?_⟩
  have herror := (abs_le.mp hlength.error_le).1
  norm_num [relative_eq, absolute_eq] at hlow herror hroot ⊢
  linarith

/-- What a vector is scaled with to make a unit of it is not much too large. -/
theorem Moderate.one_div_length_le (hv : v.Moderate) :
    toReal (1 / v.length) * v.exact.length ≤ 1.04 := by
  obtain ⟨hfinite, hlength⟩ := hv.le_length
  have hlow := hv.low
  have hlong : 2⁻¹ ^ 41 ≤ toReal v.length := by
    norm_num at hlow hlength ⊢
    linarith
  have hpos : 0 < toReal v.length := lt_of_lt_of_le (by positivity) hlong
  have hinverse_pos : 0 ≤ 1 / toReal v.length := by positivity
  have hinverse : 1 / toReal v.length ≤ 2 ^ 41 := by
    rw [div_le_iff₀ hpos]
    norm_num at hlong ⊢
    linarith
  have hproduct : 1 / toReal v.length * v.exact.length ≤ 1.03 := by
    rw [one_div_mul_eq_div, div_le_iff₀ hpos]
    norm_num at hlength ⊢
    linarith
  have hnear := near_div (x := 1) rfl hfinite hpos.ne' (by
    rw [toReal_one, abs_of_nonneg hinverse_pos]
    exact hinverse.trans (by norm_num))
  have herror := (abs_le.mp hnear.error_le).2
  rw [toReal_one, abs_of_nonneg hinverse_pos, relative_eq] at herror
  have hscaled := mul_le_mul_of_nonneg_right herror v.exact.length_nonneg
  have htiny : absolute * v.exact.length ≤ 0.001 := by
    refine (mul_le_mul_of_nonneg_left hv.high absolute_pos.le).trans ?_
    norm_num [absolute_eq]
  norm_num at hscaled hproduct htiny ⊢
  linarith

theorem exact_zero : (zero : Vec3 Float32).exact = 0 := by
  ext <;> simp only [zero_x, zero_y, zero_z] <;> exact toReal_zero

/-- **The unit vector along a vector** is near a multiple of it that is not much longer than a unit. -/
theorem Moderate.near_normalizeOrZero (hv : v.Moderate) : ∃ k : ℝ, 0 ≤ k ∧ k * v.exact.length ≤ 1.04 ∧
    v.normalizeOrZero.Near (k • v.exact) (2 * relative) := by
  have hcases : v.normalizeOrZero =
    if Scalar.isFinite (1 / v.length) = true ∧ 0 < 1 / v.length then v * (1 / v.length) else zero := rfl
  rw [hcases]
  split
  · next h =>
    have hunit := hv.one_div_length_le
    have hk : 0 ≤ toReal (1 / v.length) := (toReal_zero ▸ toReal_lt_toReal h.2).le
    have hscale := near_scale hv.finite h.1 (by
      rw [abs_of_nonneg hk]
      exact hunit.trans (by norm_num))
    refine ⟨_, hk, hunit, hscale.finite, hscale.error_le.trans ?_⟩
    rw [abs_of_nonneg hk]
    norm_num [relative_eq, absolute_eq] at hunit ⊢
    linarith
  · refine ⟨0, le_refl _, by norm_num, fun axis => by cases axis <;> rfl, ?_⟩
    rw [exact_zero, zero_smul, sub_zero, length_zero]
    norm_num [relative_eq]

/-- How far along a vector another one reaches: not much farther than it is long. -/
theorem Moderate.dot_div_lengthSq (hv : v.Moderate) (hw : w.Moderate) :
    (w.dot v / v.lengthSq).isFinite = true ∧
      |toReal (w.dot v / v.lengthSq)| * v.exact.length ≤ 1.04 * w.exact.length := by
  obtain ⟨hfinite, hsq⟩ := hv.le_lengthSq
  have hproduct := mul_le_mul hw.high hv.high v.exact.length_nonneg (by positivity)
  have hdot := near_dot hw.finite hv.finite (hproduct.trans (by norm_num))
  have hlow := mul_le_mul hw.low hv.low (by positivity) w.exact.length_nonneg
  have hdot_le : |toReal (w.dot v)| ≤ 1.01 * (w.exact.length * v.exact.length) := by
    have habs := hdot.abs_le
    have hterms := abs_dot_le w.exact v.exact
    norm_num [relative_eq, absolute_eq] at hlow habs ⊢
    linarith
  have hlength : 0 < v.exact.length := lt_of_lt_of_le (by positivity) hv.low
  have hpos : 0 < toReal v.lengthSq := lt_of_lt_of_le (by positivity) hsq
  -- the exact quotient, times the length
  have hquotient : |toReal (w.dot v) / toReal v.lengthSq| * v.exact.length ≤ 1.03 * w.exact.length := by
    rw [abs_div, abs_of_pos hpos, div_mul_eq_mul_div, div_le_iff₀ hpos]
    have hnum := mul_le_mul_of_nonneg_right hdot_le hlength.le
    have hden := mul_le_mul_of_nonneg_left hsq w.exact.length_nonneg
    norm_num at hnum hden ⊢
    nlinarith
  have hle : |toReal (w.dot v) / toReal v.lengthSq| ≤ 2 ^ 99 := by
    by_contra hlarge
    have hlarge := mul_lt_mul_of_pos_right (not_le.mp hlarge) hlength
    have hv_low := mul_le_mul_of_nonneg_left hv.low (by positivity : (0 : ℝ) ≤ 2 ^ 99)
    have hw_high := hw.high
    norm_num at hlarge hv_low hw_high hquotient
    linarith
  have hnear := near_div hdot.finite hfinite hpos.ne' hle
  refine ⟨hnear.finite, ?_⟩
  have habs := mul_le_mul_of_nonneg_right hnear.abs_le hlength.le
  have htiny : absolute * v.exact.length ≤ 0.001 * w.exact.length := by
    have hv_high := mul_le_mul_of_nonneg_left hv.high absolute_pos.le
    have hw_low := hw.low
    norm_num [absolute_eq] at hv_high hw_low ⊢
    linarith
  have hnonneg := w.exact.length_nonneg
  rw [relative_eq] at habs
  norm_num at habs hquotient htiny ⊢
  linarith

end Vec3

end ConvexCollision
