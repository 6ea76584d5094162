import Mathlib.Analysis.SpecialFunctions.Trigonometric.Basic
import ConvexCollision.Mesh.Triangle
import ConvexCollision.Proofs.Exact.Triangle
import ConvexCollision.Proofs.Single.Vector

/-!
# ConvexCollision.Proofs.Mesh.Rounded -- how far a rounded normal leans out of its triangle

In exact numbers what leads out across an edge of a triangle lies in its plane (`Triangle.smul_sub_dot_area`),
and the normal leans across no edge. Rounded, the two are off by the rounding of the sides and of their
products. What leads out is off by as much as the sides are (`Moderate.near_outward`). The normal is off by
more the thinner the triangle is, because the error of its vector product goes with the sides and not with the
area (`Moderate.near_normal`). How far it leans is the error of either times the length of the other, and so
it grows with the cube of the sides over the area. A triangle of moderate size is one for which that is
bounded.
-/

namespace ConvexCollision

open Single (toReal relative relative_eq relative_nonneg absolute_eq)

/-! ## §A Exact numbers -/

namespace Triangle

/-- The normal with the length of twice the area. -/
noncomputable def area (t : Triangle ℝ) : Vec3 ℝ := (t.b - t.a).cross (t.c - t.a)

/-- It is the same at each corner. -/
theorem side_cross_side (t : Triangle ℝ) (c : Corner) :
    (t.corner c.next - t.corner c).cross (t.corner c.next.next - t.corner c) = t.area := by
  cases c
  · rfl
  · exact (Vec3.sides_cross_rotate _ _ _).symm
  · exact Vec3.sides_cross_rotate _ _ _

theorem area_le (t : Triangle ℝ) (c : Corner) : t.area.length ≤
    (t.corner c.next - t.corner c).length * (t.corner c.next.next - t.corner c).length := by
  rw [← side_cross_side t c]
  exact Vec3.length_cross_le _ _

/-- What leads across an edge lies in the plane of the triangle. -/
theorem smul_sub_dot_area (t : Triangle ℝ) (c : Corner) (s : ℝ) :
    (s • (t.corner c.next - t.corner c) - (t.corner c.next.next - t.corner c)).dot t.area = 0 := by
  rw [← side_cross_side t c, Vec3.sub_dot, Vec3.smul_dot, Vec3.dot_cross_self_left,
    Vec3.dot_cross_self_right, mul_zero, sub_zero]

/-! ## §B Triangles of moderate size -/

/-- The sides are no longer than a bound, and the triangle is broad enough for sides as long as that. -/
structure Moderate (t : Triangle ℝ) (l : ℝ) : Prop where
  /-- The bound is well above what is lost to rounding near zero. -/
  low : 2⁻¹ ^ 10 ≤ l
  /-- No side is longer. -/
  side_le : ∀ c d, (t.corner c - t.corner d).length ≤ l
  /-- The area is not small beside the sides. It follows that the sides are not long. -/
  broad : l ^ 3 ≤ 32 * t.area.length

namespace Moderate

variable {t : Triangle ℝ} {l : ℝ}

theorem pos (h : t.Moderate l) : 0 < l := (by positivity : (0 : ℝ) < 2⁻¹ ^ 10).trans_le h.low

theorem area_le_square (h : t.Moderate l) : t.area.length ≤ l * l :=
  (area_le t .first).trans (mul_le_mul (h.side_le _ _) (h.side_le _ _) (Vec3.length_nonneg _) h.pos.le)

theorem high (h : t.Moderate l) : l ≤ 32 := by
  have harea := h.area_le_square
  have hbroad := h.broad
  have hpos := h.pos
  by_contra hlarge
  nlinarith [mul_pos hpos hpos]

theorem le_side (h : t.Moderate l) (c : Corner) : l ^ 2 ≤ 32 * (t.corner c.next - t.corner c).length ∧
    l ^ 2 ≤ 32 * (t.corner c.next.next - t.corner c).length := by
  have harea := area_le t c
  have hnext := h.side_le c.next c
  have hlast := h.side_le c.next.next c
  have hbroad := h.broad
  have hpos := h.pos
  generalize (t.corner c.next - t.corner c) = e at *
  generalize (t.corner c.next.next - t.corner c) = f at *
  have he := e.length_nonneg
  have hf := f.length_nonneg
  constructor
  · have hle := mul_le_mul_of_nonneg_left hlast he
    exact le_of_mul_le_mul_right (by linarith) hpos
  · have hle := mul_le_mul_of_nonneg_right hnext hf
    exact le_of_mul_le_mul_right (by linarith) hpos

end Moderate

/-! ## §C Rounding -/

/-- The triangle between the points that the corners stand for. -/
noncomputable def exact (t : Triangle Float32) : Triangle ℝ := ⟨t.a.exact, t.b.exact, t.c.exact⟩

variable {t : Triangle Float32} {l : ℝ}

theorem corner_exact (t : Triangle Float32) (c : Corner) : t.exact.corner c = (t.corner c).exact := by
  cases c <;> rfl

/-- A side is rounded by a small part of its length. -/
theorem Moderate.near_side (h : t.exact.Moderate l) (hfinite : ∀ c, (t.corner c).IsFinite) (c d : Corner) :
    (t.corner c - t.corner d).Near (t.exact.corner c - t.exact.corner d)
      (relative * (t.exact.corner c - t.exact.corner d).length) := by
  have hle := (h.side_le c d).trans (h.high.trans (by norm_num : (32 : ℝ) ≤ 2 ^ 100))
  rw [corner_exact, corner_exact] at hle ⊢
  exact Vec3.near_sub (hfinite c) (hfinite d) hle

end Triangle

namespace Vec3

variable {v : Vec3 Float32} {r : Vec3 ℝ} {l : ℝ}

/-- What is only rounded a little has about the same length. -/
theorem Near.length_bounds (h : v.Near r (relative * r.length)) :
    v.exact.length ≤ 1.01 * r.length ∧ r.length ≤ 1.01 * v.exact.length := by
  have hle := h.length_le
  have hge := length_sub_le v.exact (v.exact - r)
  rw [sub_sub_cancel] at hge
  have herror := h.error_le
  have hnonneg := r.length_nonneg
  rw [relative_eq] at hle herror
  constructor <;> norm_num <;> linarith

/-- A rounded side of a triangle is neither short nor long. -/
theorem Near.moderate (h : v.Near r (relative * r.length)) (hlow : 2⁻¹ ^ 10 ≤ l) (hhigh : l ≤ 32)
    (hle : r.length ≤ l) (hge : l ^ 2 ≤ 32 * r.length) : v.Moderate := by
  obtain ⟨hshort, hlong⟩ := h.length_bounds
  refine ⟨h.finite, ?_, ?_⟩
  · have hsquare := mul_le_mul hlow hlow (by positivity) ((by positivity : (0 : ℝ) ≤ 2⁻¹ ^ 10).trans hlow)
    norm_num at hsquare hlong ⊢
    nlinarith
  · norm_num at hshort ⊢
    linarith

/-- A multiple of a rounded side that is no longer than another one, less that one. -/
theorem near_scale_sub {v w : Vec3 Float32} {e f : Vec3 ℝ} {s : Float32} (hv : v.Near e (relative * e.length))
    (hw : w.Near f (relative * f.length)) (hs : s.isFinite = true)
    (hscale : |toReal s| * v.exact.length ≤ 1.04 * w.exact.length) (hlow : 2⁻¹ ^ 10 ≤ l) (hhigh : l ≤ 32)
    (hf : f.length ≤ l) :
    (v * s - w).Near (toReal s • e - f) (6 * relative * l) ∧ (toReal s • e - f).length ≤ 2.2 * l := by
  obtain ⟨hw_le, -⟩ := hw.length_bounds
  obtain ⟨-, he_le⟩ := hv.length_bounds
  have hse : |toReal s| * e.length ≤ 1.1 * l := by
    have hle := mul_le_mul_of_nonneg_left he_le (abs_nonneg (toReal s))
    norm_num at hle hscale hw_le ⊢
    linarith
  have hscaled := hv.scale hs (hscale.trans (by norm_num at hw_le ⊢; linarith))
  have hscaled_le := hscaled.length_le
  rw [length_smul_abs] at hscaled_le
  have hdiff_le := length_sub_le (v * s).exact w.exact
  have hlength := length_sub_le (toReal s • e) f
  rw [length_smul_abs] at hlength
  have hdiff := hscaled.sub hw (by
    norm_num [relative_eq, absolute_eq] at hscaled_le hscale hw_le hse ⊢
    linarith)
  refine ⟨hdiff.mono ?_, by norm_num at hse ⊢; linarith⟩
  norm_num [relative_eq, absolute_eq] at hdiff_le hscaled_le hscale hw_le hse hlow ⊢
  linarith

/-- The vector product of two rounded sides. -/
theorem near_cross_of_sides {v w : Vec3 Float32} {e f : Vec3 ℝ} (hv : v.Near e (relative * e.length))
    (hw : w.Near f (relative * f.length)) (hlow : 2⁻¹ ^ 10 ≤ l) (hhigh : l ≤ 32) (he : e.length ≤ l)
    (hf : f.length ≤ l) : (v.cross w).Near (e.cross f) (9 * relative * l ^ 2) := by
  have hl : 0 ≤ l := (by positivity : (0 : ℝ) ≤ 2⁻¹ ^ 10).trans hlow
  have hv_le := hv.length_bounds.1.trans (mul_le_mul_of_nonneg_left he (by norm_num))
  have hw_le := hw.length_bounds.1.trans (mul_le_mul_of_nonneg_left hf (by norm_num))
  have hproduct := mul_le_mul hv_le hw_le w.exact.length_nonneg (by positivity)
  have hfirst := mul_le_mul he hw_le w.exact.length_nonneg hl
  have hsecond := mul_le_mul he hf f.length_nonneg hl
  have hsquare := mul_le_mul hlow hlow (by positivity) hl
  refine (hv.cross hw (hproduct.trans (by nlinarith))).mono ?_
  norm_num [relative_eq, absolute_eq] at hproduct hfirst hsecond hsquare ⊢
  linarith

end Vec3

namespace Triangle

variable {t : Triangle Float32} {l : ℝ}

/-- **What leads out across an edge** is near the plane of the triangle. -/
theorem Moderate.near_outward (h : t.exact.Moderate l) (hfinite : ∀ c, (t.corner c).IsFinite) (c : Corner) :
    ∃ s : ℝ, (t.outward c).Near
        (s • (t.exact.corner c.next - t.exact.corner c) - (t.exact.corner c.next.next - t.exact.corner c))
        (6 * relative * l) ∧
      (s • (t.exact.corner c.next - t.exact.corner c) -
        (t.exact.corner c.next.next - t.exact.corner c)).length ≤ 2.2 * l := by
  have hoffset := h.near_side hfinite c.next c
  have hopposite := h.near_side hfinite c.next.next c
  have hoffset_le := h.side_le c.next c
  have hopposite_le := h.side_le c.next.next c
  obtain ⟨hoffset_ge, hopposite_ge⟩ := h.le_side c
  have hv := hoffset.moderate h.low h.high hoffset_le hoffset_ge
  have hw := hopposite.moderate h.low h.high hopposite_le hopposite_ge
  obtain ⟨hs, hscale⟩ := hv.dot_div_lengthSq hw
  exact ⟨_, Vec3.near_scale_sub hoffset hopposite hs hscale h.low h.high hopposite_le⟩

/-- The vector product of the rounded sides. -/
theorem Moderate.near_cross (h : t.exact.Moderate l) (hfinite : ∀ c, (t.corner c).IsFinite) :
    ((t.b - t.a).cross (t.c - t.a)).Near t.exact.area (9 * relative * l ^ 2) :=
  Vec3.near_cross_of_sides (h.near_side hfinite .second .first) (h.near_side hfinite .third .first)
    h.low h.high (h.side_le .second .first) (h.side_le .third .first)

/-- That is off by a small part of the area. -/
theorem Moderate.rounding_le (h : t.exact.Moderate l) :
    9 * relative * l ^ 2 ≤ 0.02 * t.exact.area.length := by
  have hl := mul_le_mul_of_nonneg_right h.low (sq_nonneg l)
  have hbroad := h.broad
  have hsquare := sq_nonneg l
  norm_num [relative_eq] at hl ⊢
  linarith

theorem Moderate.cross (h : t.exact.Moderate l) (hfinite : ∀ c, (t.corner c).IsFinite) :
    ((t.b - t.a).cross (t.c - t.a)).Moderate := by
  have hnear := h.near_cross hfinite
  have hle := hnear.length_le
  have hge := hnear.le_length
  have hrounding := h.rounding_le
  have hbroad := h.broad
  have harea := h.area_le_square
  have hcube := pow_le_pow_left₀ (by positivity) h.low 3
  have hsquare := mul_le_mul h.high h.high h.pos.le (by norm_num)
  refine ⟨hnear.finite, ?_, ?_⟩
  · norm_num at hcube hrounding ⊢
    linarith
  · norm_num at hsquare hrounding ⊢
    linarith

/-- **The normal** is near a multiple of the exact one. The broader the triangle the nearer it is. -/
theorem Moderate.near_normal (h : t.exact.Moderate l) (hfinite : ∀ c, (t.corner c).IsFinite) :
    ∃ k error : ℝ, t.normal.Near (k • t.exact.area) error ∧ error * l ≤ 380 * relative ∧
      t.normal.exact.length ≤ 1.05 := by
  have hcross := h.near_cross hfinite
  have hle_cross := hcross.le_length
  have hrounding := h.rounding_le
  have hhigh := h.high
  obtain ⟨k, hk, hunit, hnormal⟩ := (h.cross hfinite).near_normalizeOrZero
  have hnormal : t.normal.Near _ _ := hnormal
  generalize (t.b - t.a).cross (t.c - t.a) = cross at *
  refine ⟨k, 2 * relative + k * (9 * relative * l ^ 2), hnormal.trans ?_, ?_, ?_⟩
  · rw [← smul_sub, Vec3.length_smul _ hk]
    exact mul_le_mul_of_nonneg_left hcross.error_le hk
  · have hcube := mul_le_mul_of_nonneg_left h.broad hk
    have harea := mul_le_mul_of_nonneg_left hle_cross hk
    have hrounded := mul_le_mul_of_nonneg_left hrounding hk
    norm_num [relative_eq] at hcube harea hrounded hunit ⊢
    linarith
  · have hlength := hnormal.length_le
    rw [Vec3.length_smul _ hk] at hlength
    norm_num [relative_eq] at hlength hunit ⊢
    linarith

/-- **The normal leans across no edge** by more than rounding accounts for. -/
theorem Moderate.near_outward_dot_normal (h : t.exact.Moderate l) (hfinite : ∀ c, (t.corner c).IsFinite)
    (c : Corner) : Single.Near ((t.outward c).dot t.normal) 0 (1400 * relative) := by
  obtain ⟨s, houtward, hflat_le⟩ := h.near_outward hfinite c
  obtain ⟨k, error, hnormal, herror, hunit⟩ := h.near_normal hfinite
  have hhigh := h.high
  have hflat := smul_sub_dot_area t.exact c s
  generalize s • (t.exact.corner c.next - t.exact.corner c) -
    (t.exact.corner c.next.next - t.exact.corner c) = flat at *
  have houtward_le : (t.outward c).exact.length ≤ 75 := by
    have hle := houtward.length_le
    norm_num [relative_eq] at hle hflat_le ⊢
    linarith
  have hlengths := mul_le_mul houtward_le hunit t.normal.exact.length_nonneg (by norm_num)
  -- the two errors, each times the length of the other vector
  have hfirst : 6 * relative * l * t.normal.exact.length ≤ 6 * relative * 32 * 1.05 := by
    have hrelative := relative_nonneg
    exact mul_le_mul (by gcongr) hunit (Vec3.length_nonneg _) (by positivity)
  have hsecond : flat.length * error ≤ 2.2 * (380 * relative) := by
    have herror_nonneg := (Vec3.length_nonneg _).trans hnormal.error_le
    refine (mul_le_mul_of_nonneg_right hflat_le herror_nonneg).trans ?_
    norm_num
    linarith
  have hdot := houtward.dot hnormal (hlengths.trans (by norm_num))
  rw [Vec3.dot_smul, hflat, mul_zero] at hdot
  refine hdot.mono ?_
  norm_num [relative_eq, absolute_eq] at hlengths hfirst hsecond ⊢
  linarith

end Triangle

end ConvexCollision
