import ConvexCollision.Proofs.Except
import ConvexCollision.Proofs.Exact.Solid

/-!
# ConvexCollision.Proofs.Exact.Shape -- the points of each solid

`Shape.points` says which points make up a solid: a box, a ball, a capsule, an upright and a lying
cylinder, a pyramid, a flat kite, the hull of the corners of a swing. For each of them the support function
gives, along every direction, a point of the solid beyond which no point of the solid lies
(`Shape.furthest_support`).

The one exception is the swing. Its search begins with the origin at a mark of minus the largest finite
number, so a corner whose mark is no higher is passed over. When that happens to all corners the answer is
the origin, which lies beyond every point of the hull (`Swing.overshoots_support`). So the support function
of a solid is exact along a direction just when the solid `Resolves` it.
-/

namespace ConvexCollision

/-! ## §A Furthest points -/

/-- The function gives, for this direction, a point of the set that lies furthest along it. -/
structure Furthest (a : Support ℝ) (A : Set (Vec3 ℝ)) (d : Vec3 ℝ) : Prop where
  /-- The point belongs to the set. -/
  mem : a d ∈ A
  /-- No point of the set lies further along the direction. -/
  le : ∀ x ∈ A, d.dot x ≤ d.dot (a d)

/-- The point that the function gives for this direction lies beyond the whole set. -/
def Overshoots (a : Support ℝ) (A : Set (Vec3 ℝ)) (d : Vec3 ℝ) : Prop :=
  ∀ x ∈ A, d.dot x < d.dot (a d)

variable {a : Support ℝ} {A : Set (Vec3 ℝ)} {d : Vec3 ℝ}

theorem IsSupport.furthest (h : IsSupport a A) (d : Vec3 ℝ) : Furthest a A d := ⟨h.mem d, h.le d⟩

/-- A point beyond a set is not one of its points. -/
theorem Overshoots.not_furthest (h : Overshoots a A d) : ¬ Furthest a A d :=
  fun hfurthest => lt_irrefl _ (h _ hfurthest.mem)

/-! ## §B Unit vectors -/

namespace Vec3

variable (v w : Vec3 ℝ)

theorem length_smul {s : ℝ} (hs : 0 ≤ s) : (s • v).length = s * v.length := by
  refine (mul_self_inj (length_nonneg _) (mul_nonneg hs (length_nonneg _))).mp ?_
  rw [length_mul_self, dot_smul, smul_dot, mul_mul_mul_comm, length_mul_self, mul_assoc]

/-- The inequality of Cauchy and Schwarz: what is missing is the square of the vector product. -/
theorem dot_le_length_mul_length : v.dot w ≤ v.length * w.length := by
  have hcross := dot_self_nonneg (v.cross w)
  have hmissing : (v.cross w).dot (v.cross w) = v.dot v * w.dot w - v.dot w * v.dot w := by
    simp only [dot_def, cross_x, cross_y, cross_z]
    ring
  refine nonneg_le_nonneg_of_sq_le_sq (mul_nonneg v.length_nonneg w.length_nonneg) ?_
  rw [mul_mul_mul_comm, length_mul_self, length_mul_self]
  linarith

theorem dot_normalizeOrZero : v.dot v.normalizeOrZero = v.length := by
  by_cases h : v = 0
  · subst h
    rw [zero_dot, length_zero]
  · rw [normalizeOrZero_of_ne_zero h, dot_smul, ← length_mul_self,
      inv_mul_cancel_left₀ (length_pos h).ne']

theorem length_normalizeOrZero_le : v.normalizeOrZero.length ≤ 1 := by
  by_cases h : v = 0
  · subst h
    rw [normalizeOrZero_zero, length_zero]
    exact zero_le_one
  · rw [normalizeOrZero_of_ne_zero h, length_smul _ (inv_nonneg.mpr v.length_nonneg),
      inv_mul_cancel₀ (length_pos h).ne']

variable {v w} {radius : ℝ}

theorem length_unit_mul_le (hradius : 0 ≤ radius) : (radius • v.normalizeOrZero).length ≤ radius := by
  rw [length_smul _ hradius]
  exact mul_le_of_le_one_right hradius v.length_normalizeOrZero_le

/-- No vector of a given length reaches further along another one than the one that points along it. -/
theorem dot_le_dot_unit_mul (hw : w.length ≤ radius) :
    v.dot w ≤ v.dot (radius • v.normalizeOrZero) := by
  rw [dot_smul, dot_normalizeOrZero, mul_comm]
  exact (v.dot_le_length_mul_length w).trans (mul_le_mul_of_nonneg_left hw v.length_nonneg)

end Vec3

namespace Vec2

/-- The vector of the plane as one of space that lies flat. -/
def flat (v : Vec2 ℝ) : Vec3 ℝ := ⟨v.x, 0, v.y⟩

variable (v w : Vec2 ℝ)

theorem flat_dot_flat : v.flat.dot w.flat = v.dot w := by
  simp only [flat, Vec3.dot_def, mul_zero, add_zero]
  rfl

theorem length_flat : v.flat.length = v.length := congrArg Real.sqrt (v.flat_dot_flat v)

theorem flat_mul (s : ℝ) : (v * s).flat = s • v.flat := by
  ext
  · rfl
  · exact (zero_mul s).symm
  · rfl

theorem flat_normalizeOrZero : v.normalizeOrZero.flat = v.flat.normalizeOrZero := by
  simp only [normalizeOrZero, Vec3.normalizeOrZero, length_flat]
  split
  · exact v.flat_mul _
  · simp only [flat, Vec3.zero, Scalar.zero_real]

variable {v w} {radius : ℝ}

theorem length_unit_mul_le (hradius : 0 ≤ radius) : (v.normalizeOrZero * radius).length ≤ radius := by
  rw [← length_flat, flat_mul, flat_normalizeOrZero]
  exact Vec3.length_unit_mul_le hradius

theorem dot_le_dot_unit_mul (hw : w.length ≤ radius) :
    v.dot w ≤ v.dot (v.normalizeOrZero * radius) := by
  rw [← flat_dot_flat, ← flat_dot_flat, flat_mul, flat_normalizeOrZero]
  exact Vec3.dot_le_dot_unit_mul (by rwa [length_flat])

end Vec2

/-! ## §C Round solids -/

/-- The points no further from the origin than the radius. -/
def ballPoints (radius : ℝ) : Set (Vec3 ℝ) := {x | x.length ≤ radius}

/-- The points no further than the radius from the upright segment through the origin. -/
def capsulePoints (radius innerHalfHeight : ℝ) : Set (Vec3 ℝ) :=
  {x | ∃ height : ℝ, |height| ≤ innerHalfHeight ∧ (x - ⟨0, height, 0⟩).length ≤ radius}

/-- The points over and under a disc. -/
def cylinderPoints (radius halfHeight : ℝ) : Set (Vec3 ℝ) :=
  {x | (⟨x.x, x.z⟩ : Vec2 ℝ).length ≤ radius ∧ |x.y| ≤ halfHeight}

/-- The points before and behind an upright disc. -/
def cylinderHorzPoints (radius halfHeight : ℝ) : Set (Vec3 ℝ) :=
  {x | (⟨x.x, x.y⟩ : Vec2 ℝ).length ≤ radius ∧ |x.z| ≤ halfHeight}

variable {radius height : ℝ}

theorem isSupport_sphere (hradius : 0 ≤ radius) :
    IsSupport (Shape.sphere radius).support (ballPoints radius) where
  mem _ := Vec3.length_unit_mul_le hradius
  le _ _ hx := Vec3.dot_le_dot_unit_mul hx

theorem isSupport_capsule (hradius : 0 ≤ radius) (hheight : 0 ≤ height) :
    IsSupport (Shape.capsule radius height).support (capsulePoints radius height) := by
  have hsplit (d : Vec3 ℝ) : (Shape.capsule radius height).support d =
      radius • d.normalizeOrZero + ⟨0, signSelect d.y height, 0⟩ := by
    ext
    · exact (add_zero _).symm
    · rfl
    · exact (add_zero _).symm
  constructor
  · intro d
    refine ⟨signSelect d.y height, abs_signSelect_le hheight, ?_⟩
    rw [hsplit, add_sub_cancel_right]
    exact Vec3.length_unit_mul_le hradius
  · rintro d x ⟨h, hh, hx⟩
    have hball : d.dot (x - ⟨0, h, 0⟩) ≤ d.dot (radius • d.normalizeOrZero) :=
      Vec3.dot_le_dot_unit_mul hx
    have hsegment (t : ℝ) : d.dot ⟨0, t, 0⟩ = d.y * t := by
      rw [Vec3.dot_def, mul_zero, mul_zero, zero_add, add_zero]
    rw [Vec3.dot_sub, hsegment, sub_le_iff_le_add] at hball
    rw [hsplit, Vec3.dot_add, hsegment]
    exact hball.trans (add_le_add_right (mul_le_mul_signSelect hh) _)

theorem isSupport_cylinder (hradius : 0 ≤ radius) (hheight : 0 ≤ height) :
    IsSupport (Shape.cylinder radius height).support (cylinderPoints radius height) where
  mem _ := ⟨Vec2.length_unit_mul_le hradius, abs_signSelect_le hheight⟩
  le d := by
    rintro x ⟨hflat, hupright⟩
    have hdisc : (⟨d.x, d.z⟩ : Vec2 ℝ).dot ⟨x.x, x.z⟩ ≤ _ := Vec2.dot_le_dot_unit_mul hflat
    have hside : d.y * x.y ≤ _ := mul_le_mul_signSelect hupright
    have hsum := add_le_add hdisc hside
    simp only [Vec2.dot, add_right_comm _ (d.z * _)] at hsum
    exact hsum

theorem isSupport_cylinderHorz (hradius : 0 ≤ radius) (hheight : 0 ≤ height) :
    IsSupport (Shape.cylinderHorz radius height).support (cylinderHorzPoints radius height) where
  mem _ := ⟨Vec2.length_unit_mul_le hradius, abs_signSelect_le hheight⟩
  le d := by
    rintro x ⟨hflat, hlong⟩
    have hdisc : (⟨d.x, d.y⟩ : Vec2 ℝ).dot ⟨x.x, x.y⟩ ≤ _ := Vec2.dot_le_dot_unit_mul hflat
    exact add_le_add hdisc (mul_le_mul_signSelect hlong)

/-! ## §D Solids with corners -/

/-- The hull of the origin and of a rectangle before it. -/
def conePoints (size : Vec3 ℝ) : Set (Vec3 ℝ) :=
  convexHull ℝ (insert 0 {x | |x.x| ≤ size.x ∧ |x.y| ≤ size.y ∧ x.z = size.z})

/-- The corners of a kite of radius one: the origin, the two arms and the tip. -/
def kiteCorners (range : Vec2 ℝ) : Set (Vec2 ℝ) := {⟨0, 0⟩, ⟨-range.x, range.y⟩, range, ⟨0, 1⟩}

/-- The points over and under a kite. -/
def kitePoints (range : Vec2 ℝ) (radius halfHeight : ℝ) : Set (Vec3 ℝ) :=
  {x | |x.y| ≤ halfHeight ∧
    ∃ p ∈ convexHull ℝ (Vec2.flat '' kiteCorners range), x.x = p.x * radius ∧ x.z = p.z * radius}

theorem isSupport_cone {size : Vec3 ℝ} (hx : 0 ≤ size.x) (hy : 0 ≤ size.y) :
    IsSupport (Shape.cone size).support (conePoints size) := by
  let corner (d : Vec3 ℝ) : Vec3 ℝ := ⟨signSelect d.x size.x, signSelect d.y size.y, size.z⟩
  have hsupport (d : Vec3 ℝ) :
      (Shape.cone size).support d = if (corner d).dot d < 0 then 0 else corner d := by
    simp only [Shape.support, Scalar.zero_real, Vec3.zero_eq, corner]
  constructor
  · intro d
    apply subset_convexHull
    rw [hsupport]
    split
    · exact Set.mem_insert _ _
    · exact Set.mem_insert_of_mem _ ⟨abs_signSelect_le hx, abs_signSelect_le hy, rfl⟩
  · intro d x hx
    -- the larger of what the apex and the best corner of the base reach
    have hreach : d.dot ((Shape.cone size).support d) = max 0 (d.dot (corner d)) := by
      rw [hsupport, Vec3.dot_comm (corner d)]
      split
      · rw [Vec3.dot_zero, max_eq_left (le_of_lt ‹_›)]
      · rw [max_eq_right (not_lt.mp ‹_›)]
    rw [hreach]
    apply Vec3.dot_le_of_mem_convexHull hx
    rintro y (rfl | ⟨hyx, hyy, hyz⟩)
    · rw [Vec3.dot_zero]
      exact le_max_left _ _
    · refine le_trans ?_ (le_max_right _ _)
      rw [Vec3.dot_def, hyz]
      exact add_le_add (add_le_add (mul_le_mul_signSelect hyx) (mul_le_mul_signSelect hyy)) le_rfl

/-- The support point of a kite is a corner, and no corner lies further along the direction. -/
theorem kiteSupport_furthest {range : Vec2 ℝ} (hrange : 0 ≤ range.x) (d : Vec3 ℝ) :
    Shape.kiteSupport range d ∈ kiteCorners range ∧ ∀ v ∈ kiteCorners range,
      (⟨d.x, d.z⟩ : Vec2 ℝ).dot v ≤ (⟨d.x, d.z⟩ : Vec2 ℝ).dot (Shape.kiteSupport range d) := by
  let dir : Vec2 ℝ := ⟨d.x, d.z⟩
  let arm : Vec2 ℝ := if d.x < 0 then ⟨-range.x, range.y⟩ else range
  -- of the two arms, the one on the side of the direction lies further along it
  have harm : arm ∈ kiteCorners range ∧ ∀ x, |x| ≤ range.x → dir.dot ⟨x, range.y⟩ ≤ dir.dot arm := by
    by_cases hside : d.x < 0
    · refine ⟨by simp [arm, hside, kiteCorners], fun x hx => add_le_add ?_ ?_⟩
      · simp only [arm, if_pos hside]
        exact mul_le_mul_of_nonpos_left (abs_le.mp hx).1 hside.le
      · simp only [arm, if_pos hside, le_refl]
    · refine ⟨by simp [arm, hside, kiteCorners], fun x hx => add_le_add ?_ ?_⟩
      · simp only [arm, if_neg hside]
        exact mul_le_mul_of_nonneg_left (abs_le.mp hx).2 (not_lt.mp hside)
      · simp only [arm, if_neg hside, le_refl]
  have horigin : dir.dot ⟨0, 0⟩ = 0 := by simp [Vec2.dot]
  have htip : dir.dot ⟨0, 1⟩ = d.z := by simp [Vec2.dot, dir]
  let best : Vec2 ℝ × ℝ := if 0 < dir.dot arm then (arm, dir.dot arm) else (⟨0, 0⟩, 0)
  have hbest : best.1 ∈ kiteCorners range ∧ best.2 = dir.dot best.1 ∧ best.2 = max 0 (dir.dot arm) := by
    by_cases hreach : 0 < dir.dot arm
    · simp only [best, if_pos hreach]
      exact ⟨harm.1, trivial, (max_eq_right hreach.le).symm⟩
    · simp only [best, if_neg hreach]
      exact ⟨Set.mem_insert _ _, horigin.symm, (max_eq_left (not_lt.mp hreach)).symm⟩
  have hsupport : Shape.kiteSupport range d = if best.2 < d.z then ⟨0, 1⟩ else best.1 := by
    simp only [Shape.kiteSupport, Scalar.zero_real, Scalar.one_real, best, arm, dir]
  have hdot : dir.dot (Shape.kiteSupport range d) = max (max 0 (dir.dot arm)) d.z := by
    rw [hsupport, ← hbest.2.2]
    split
    · rw [htip, max_eq_right (le_of_lt ‹_›)]
    · rw [← hbest.2.1, max_eq_left (not_lt.mp ‹_›)]
  constructor
  · rw [hsupport]
    split
    · simp [kiteCorners]
    · exact hbest.1
  · show ∀ v ∈ kiteCorners range, dir.dot v ≤ dir.dot _
    rw [hdot]
    rintro v (rfl | rfl | rfl | rfl)
    · rw [horigin]
      exact (le_max_left _ _).trans (le_max_left _ _)
    · have hleft := harm.2 (-range.x) (by rw [abs_neg, abs_of_nonneg hrange])
      exact hleft.trans ((le_max_right _ _).trans (le_max_left _ _))
    · have hright := harm.2 v.x (abs_of_nonneg hrange).le
      exact hright.trans ((le_max_right _ _).trans (le_max_left _ _))
    · rw [htip]
      exact le_max_right _ _

theorem isSupport_sweep {range : Vec2 ℝ} (hrange : 0 ≤ range.x) (hradius : 0 ≤ radius)
    (hheight : 0 ≤ height) :
    IsSupport (Shape.sweep range radius height).support (kitePoints range radius height) where
  mem d := by
    have hcorner := Set.mem_image_of_mem Vec2.flat (kiteSupport_furthest hrange d).1
    exact ⟨abs_signSelect_le hheight, _, subset_convexHull ℝ _ hcorner, rfl, rfl⟩
  le d := by
    rintro x ⟨hy, p, hp, hx, hz⟩
    have hkite : (Vec2.flat ⟨d.x, d.z⟩).dot p ≤
        (⟨d.x, d.z⟩ : Vec2 ℝ).dot (Shape.kiteSupport range d) := by
      apply Vec3.dot_le_of_mem_convexHull hp
      rintro _ ⟨v, hv, rfl⟩
      rw [Vec2.flat_dot_flat]
      exact (kiteSupport_furthest hrange d).2 v hv
    have hupright : d.y * x.y ≤ d.y * signSelect d.y height := mul_le_mul_signSelect hy
    have hflat := mul_le_mul_of_nonneg_right hkite hradius
    rw [Vec3.dot_def, hx, hz]
    simp only [Vec2.flat, Vec2.dot, Vec3.dot_def, zero_mul, add_zero] at hflat
    show _ ≤ d.x * ((Shape.kiteSupport range d).x * radius) + d.y * signSelect d.y height +
      d.z * ((Shape.kiteSupport range d).y * radius)
    linarith

/-! ## §E Swings -/

theorem Scalar.maxFinite_pos : (0 : ℝ) < Scalar.maxFinite := by
  simp only [Scalar.maxFinite, Scalar.ofNat_real]
  norm_num

namespace Swing

/-- The hull of the corners in use; the origin when there is none. -/
def points (s : Swing ℝ) : Set (Vec3 ℝ) :=
  if s.held = [] then {0} else convexHull ℝ {corner | corner ∈ s.held}

/-- No corners are in use, or one of them has a mark above that of the origin at which the search
begins. -/
def Resolves (s : Swing ℝ) (d : Vec3 ℝ) : Prop :=
  s.held = [] ∨ ∃ corner ∈ s.held, -Scalar.maxFinite < corner.dot d

/-- What the search holds after some corners: nothing that was passed is marked higher, and what is held
was passed, or it is still the origin. -/
structure Searched (d : Vec3 ℝ) (passed : List (Vec3 ℝ)) (best : Vec3 ℝ × ℝ) : Prop where
  /-- The mark does not fall. -/
  le_mark : -Scalar.maxFinite ≤ best.2
  /-- No corner that was passed is marked higher. -/
  dot_le : ∀ corner ∈ passed, corner.dot d ≤ best.2
  /-- The corner that is held is one of them, with its own mark. -/
  found : -Scalar.maxFinite < best.2 → best.1 ∈ passed ∧ best.1.dot d = best.2
  /-- Otherwise none was taken up. -/
  origin : best.2 = -Scalar.maxFinite → best.1 = 0

variable {s : Swing ℝ} {d : Vec3 ℝ}

theorem exists_searched (s : Swing ℝ) (d : Vec3 ℝ) :
    ∃ mark : ℝ, Searched d s.held (s.support d, mark) := by
  refine ⟨_, inv_foldl_passed (Searched d) ?_ ?_⟩
  · rintro passed corner - best - h
    show Searched d _ (if best.2 < corner.dot d then (corner, corner.dot d) else best)
    split
    · rename_i hhigher
      have hlast : corner ∈ passed ++ [corner] := List.mem_append_right _ (List.mem_singleton_self _)
      refine ⟨h.le_mark.trans hhigher.le, fun other hother => ?_, fun _ => ⟨hlast, rfl⟩, ?_⟩
      · rcases List.mem_append.mp hother with hother | hother
        · exact (h.dot_le other hother).trans hhigher.le
        · rw [List.mem_singleton.mp hother]
      · intro hmark
        exact absurd hmark (h.le_mark.trans_lt hhigher).ne'
    · rename_i hlower
      refine ⟨h.le_mark, fun other hother => ?_, fun hmark => ?_, h.origin⟩
      · rcases List.mem_append.mp hother with hother | hother
        · exact h.dot_le other hother
        · rw [List.mem_singleton.mp hother]
          exact not_lt.mp hlower
      · exact ⟨List.mem_append_left _ (h.found hmark).1, (h.found hmark).2⟩
  · exact ⟨le_refl _, fun _ hnone => by simp at hnone, fun h => absurd h (lt_irrefl _), fun _ => rfl⟩

theorem furthest_support (h : s.Resolves d) : Furthest s.support s.points d := by
  obtain ⟨mark, hsearched⟩ := exists_searched s d
  rcases h with hnone | ⟨corner, hcorner, hmark⟩
  · have hzero : s.support d = 0 := by
      unfold support
      rw [hnone]
      rfl
    have hpoints : s.points = {0} := if_pos hnone
    refine ⟨?_, fun x hx => ?_⟩
    · rw [hzero, hpoints]
      rfl
    · rw [hpoints] at hx
      rw [hzero, Set.mem_singleton_iff.mp hx]
  · have hpoints : s.points = convexHull ℝ {corner | corner ∈ s.held} :=
      if_neg (List.ne_nil_of_mem hcorner)
    obtain ⟨hheld, hdot⟩ := hsearched.found (hmark.trans_le (hsearched.dot_le corner hcorner))
    refine ⟨?_, fun x hx => ?_⟩
    · rw [hpoints]
      exact subset_convexHull ℝ _ hheld
    · rw [hpoints] at hx
      apply Vec3.dot_le_of_mem_convexHull hx
      intro y hy
      rw [Vec3.dot_comm d, Vec3.dot_comm d, hdot]
      exact hsearched.dot_le y hy

/-- Where no corner has a mark above that of the origin, none has one above minus the largest finite
number. -/
theorem dot_le_of_not_resolves (h : ¬ s.Resolves d) : ∀ corner ∈ s.held, corner.dot d ≤ -Scalar.maxFinite := by
  intro corner hcorner
  exact not_lt.mp fun hmark => h (.inr ⟨corner, hcorner, hmark⟩)

/-- The search passes over all corners. -/
theorem support_of_not_resolves (h : ¬ s.Resolves d) : s.support d = 0 := by
  obtain ⟨mark, hsearched⟩ := exists_searched s d
  have hmark : mark = -Scalar.maxFinite := by
    refine le_antisymm (not_lt.mp fun hhigher => ?_) hsearched.le_mark
    obtain ⟨hheld, hdot⟩ := hsearched.found hhigher
    exact absurd (hdot.ge.trans (dot_le_of_not_resolves h _ hheld)) (not_le.mpr hhigher)
  exact hsearched.origin hmark

/-- Where the search passes over all corners the origin lies beyond the hull. -/
theorem overshoots_support (h : ¬ s.Resolves d) : Overshoots s.support s.points d := by
  have hpoints : s.points = convexHull ℝ {corner | corner ∈ s.held} := if_neg (not_or.mp h).1
  intro x hx
  rw [hpoints] at hx
  have hfar : d.dot x ≤ -Scalar.maxFinite := by
    apply Vec3.dot_le_of_mem_convexHull hx
    intro corner hcorner
    rw [Vec3.dot_comm]
    exact dot_le_of_not_resolves h corner hcorner
  rw [support_of_not_resolves h, Vec3.dot_zero]
  exact hfar.trans_lt (neg_neg_of_pos Scalar.maxFinite_pos)

end Swing

/-! ## §F All solids -/

namespace Shape

/-- The points of a solid. -/
def points : Shape ℝ → Set (Vec3 ℝ)
  | .box half => boxPoints half
  | .sphere radius => ballPoints radius
  | .capsule radius innerHalfHeight => capsulePoints radius innerHalfHeight
  | .cylinder radius halfHeight => cylinderPoints radius halfHeight
  | .cylinderHorz radius halfHeight => cylinderHorzPoints radius halfHeight
  | .cone size => conePoints size
  | .sweep range radius halfHeight => kitePoints range radius halfHeight
  | .swing s => s.points

/-- No dimension is negative, and a swing has no more corners than slots. -/
def WellFormed : Shape ℝ → Prop
  | .box half => 0 ≤ half.x ∧ 0 ≤ half.y ∧ 0 ≤ half.z
  | .sphere radius => 0 ≤ radius
  | .capsule radius innerHalfHeight => 0 ≤ radius ∧ 0 ≤ innerHalfHeight
  | .cylinder radius halfHeight => 0 ≤ radius ∧ 0 ≤ halfHeight
  | .cylinderHorz radius halfHeight => 0 ≤ radius ∧ 0 ≤ halfHeight
  | .cone size => 0 ≤ size.x ∧ 0 ≤ size.y ∧ 0 ≤ size.z
  | .sweep range radius halfHeight => 0 ≤ range.x ∧ 0 ≤ radius ∧ 0 ≤ halfHeight
  | .swing s => s.isInRange = true

/-- Every solid but a swing finds its furthest point along every direction. -/
def Resolves : Shape ℝ → Vec3 ℝ → Prop
  | .swing s, d => s.Resolves d
  | _, _ => True

variable {shape : Shape ℝ} {d : Vec3 ℝ}

theorem furthest_support (hwf : shape.WellFormed) (h : shape.Resolves d) :
    Furthest shape.support shape.points d := by
  cases shape with
  | box half => exact (isSupport_box hwf.1 hwf.2.1 hwf.2.2).furthest d
  | sphere radius => exact (isSupport_sphere hwf).furthest d
  | capsule radius innerHalfHeight => exact (isSupport_capsule hwf.1 hwf.2).furthest d
  | cylinder radius halfHeight => exact (isSupport_cylinder hwf.1 hwf.2).furthest d
  | cylinderHorz radius halfHeight => exact (isSupport_cylinderHorz hwf.1 hwf.2).furthest d
  | cone size => exact (isSupport_cone hwf.1 hwf.2.1).furthest d
  | sweep range radius halfHeight => exact (isSupport_sweep hwf.1 hwf.2.1 hwf.2.2).furthest d
  | swing s => exact s.furthest_support h

/-- A solid has a point: along the zero vector every corner counts. -/
theorem points_nonempty (hwf : shape.WellFormed) : shape.points.Nonempty := by
  have hresolves : shape.Resolves 0 := by
    cases shape with
    | swing s =>
      rcases List.eq_nil_or_concat s.held with hnone | ⟨_, corner, hheld⟩
      · exact .inl hnone
      · refine .inr ⟨corner, by rw [hheld]; simp, ?_⟩
        rw [Vec3.dot_zero]
        exact neg_neg_of_pos Scalar.maxFinite_pos
    | _ => trivial
  exact ⟨_, (furthest_support hwf hresolves).mem⟩

theorem overshoots_support (h : ¬ shape.Resolves d) : Overshoots shape.support shape.points d := by
  cases shape with
  | swing s => exact s.overshoots_support h
  | _ => exact absurd trivial h

end Shape

end ConvexCollision
