import Mathlib.Analysis.Convex.Combination
import ConvexCollision.Mesh
import ConvexCollision.Proofs.Bounds
import ConvexCollision.Proofs.Exact.Convex
import ConvexCollision.Proofs.Exact.Order

/-!
# ConvexCollision.Proofs.Exact.Triangle -- the points of a triangle, seen from above

A triangle is the hull of its corners. All its points lie in the plane through the first corner with the
triangle's normal, and within its box.

Whether a triangle covers a point seen from above is decided by three numbers, which say on which side of
each edge the point lies. Their sum is the area seen from above, so for a triangle that faces up they are
the weights of the three corners, up to a common factor that is not zero. The triangle covers the point
exactly when no weight is negative, which is when some point of the triangle lies straight above or below
(`covers_iff`). That point is where the vertical meets the plane (`height_of_mem`).
-/

namespace ConvexCollision

/-! ## §A Unit vectors -/

namespace Vec3

theorem length_mul_self (v : Vec3 ℝ) : v.length * v.length = v.dot v :=
  Real.mul_self_sqrt v.dot_self_nonneg

theorem length_zero : (0 : Vec3 ℝ).length = 0 := by
  rw [← mul_self_eq_zero, length_mul_self, dot_zero]

theorem length_nonneg (v : Vec3 ℝ) : 0 ≤ v.length := Real.sqrt_nonneg _

theorem length_pos {v : Vec3 ℝ} (h : v ≠ 0) : 0 < v.length := Real.sqrt_pos.mpr (dot_self_pos h)

/-- A vector that is not zero has a unit vector along it. -/
theorem normalizeOrZero_of_ne_zero {v : Vec3 ℝ} (h : v ≠ 0) :
    v.normalizeOrZero = v.length⁻¹ • v := by
  have hpos : (0 : ℝ) < 1 / v.length := one_div_pos.mpr (length_pos h)
  unfold normalizeOrZero
  simp only [Scalar.one_real, Scalar.zero_real]
  rw [if_pos ⟨rfl, hpos⟩, mul_eq_smul, one_div]

@[simp] theorem normalizeOrZero_zero : (0 : Vec3 ℝ).normalizeOrZero = 0 := by
  unfold normalizeOrZero
  simp only [Scalar.one_real, Scalar.zero_real]
  rw [length_zero, div_zero, if_neg fun h => lt_irrefl _ h.2, zero_eq]

/-- The unit vector along a vector is a multiple of it, by a positive number unless both are zero. -/
theorem exists_normalizeOrZero (v : Vec3 ℝ) : ∃ s : ℝ, 0 ≤ s ∧ v.normalizeOrZero = s • v := by
  by_cases h : v = 0
  · subst h
    exact ⟨0, le_refl _, by rw [normalizeOrZero_zero, smul_zero]⟩
  · exact ⟨_, inv_nonneg.mpr (length_pos h).le, normalizeOrZero_of_ne_zero h⟩

end Vec3

namespace Triangle

variable {t : Triangle ℝ} {q point : Vec3 ℝ}

/-! ## §B The points of a triangle -/

/-- The points of a triangle. -/
def points (t : Triangle ℝ) : Set (Vec3 ℝ) := convexHull ℝ {t.a, t.b, t.c}

theorem corner_mem_points (t : Triangle ℝ) (i : Corner) : t.corner i ∈ t.points := by
  apply subset_convexHull
  cases i <;> simp [corner]

/-- What holds of a linear function at the corners holds of it at every point. -/
theorem dot_le_of_mem_points {v : Vec3 ℝ} {u : ℝ} (h : ∀ i, v.dot (t.corner i) ≤ u)
    (hq : q ∈ t.points) : v.dot q ≤ u := by
  apply Vec3.dot_le_of_mem_convexHull hq
  rintro x (rfl | rfl | rfl)
  · exact h .first
  · exact h .second
  · exact h .third

/-- The corners all lie in one plane along the normal. -/
theorem normal_dot_corner (t : Triangle ℝ) (i : Corner) :
    t.normal.dot (t.corner i) = t.normal.dot t.a := by
  obtain ⟨s, -, hs⟩ := Vec3.exists_normalizeOrZero ((t.b - t.a).cross (t.c - t.a))
  have hedge (v : Vec3 ℝ) (hv : ((t.b - t.a).cross (t.c - t.a)).dot (v - t.a) = 0) :
      t.normal.dot v = t.normal.dot t.a := by
    rw [← sub_eq_zero, ← Vec3.dot_sub]
    show (Vec3.normalizeOrZero _).dot (v - t.a) = 0
    rw [hs, Vec3.smul_dot, hv, mul_zero]
  cases i with
  | first => rfl
  | second => exact hedge t.b (Vec3.cross_dot_self_left _ _)
  | third => exact hedge t.c (Vec3.cross_dot_self_right _ _)

/-- All points of a triangle lie in the plane through its first corner along its normal. -/
theorem normal_dot_of_mem (hq : q ∈ t.points) : t.normal.dot q = t.normal.dot t.a := by
  apply le_antisymm
  · exact dot_le_of_mem_points (fun i => (t.normal_dot_corner i).le) hq
  · have hneg := dot_le_of_mem_points (v := -t.normal) (u := -t.normal.dot t.a) (fun i => ?_) hq
    · rw [Vec3.neg_dot] at hneg
      exact neg_le_neg_iff.mp hneg
    · rw [Vec3.neg_dot, t.normal_dot_corner i]

/-- Every real vector is finite. -/
theorem isFinite_real (v : Vec3 ℝ) : v.IsFinite := fun _ => rfl

/-- The coordinate on an axis, as an inner product. -/
theorem exists_dot_eq_coord (axis : Axis) : ∃ v : Vec3 ℝ, ∀ q : Vec3 ℝ, v.dot q = q.coord axis := by
  cases axis with
  | x => exact ⟨⟨1, 0, 0⟩, fun q => by simp [Vec3.dot_def, Vec3.coord]⟩
  | y => exact ⟨⟨0, 1, 0⟩, fun q => by simp [Vec3.dot_def, Vec3.coord]⟩
  | z => exact ⟨⟨0, 0, 1⟩, fun q => by simp [Vec3.dot_def, Vec3.coord]⟩

/-- The box of a triangle holds its corners. -/
theorem bounds_holds_corner (t : Triangle ℝ) (i : Corner) : t.bounds.Holds (t.corner i) := by
  have hfinite := isFinite_real
  -- each corner in turn is put into the box, and stays in it
  have ha := Bounds.isFinite_empty.insert (hfinite t.a)
  have hb := ha.insert (hfinite t.b)
  have hholds : ∀ {b b' : Bounds ℝ} {p : Vec3 ℝ}, b.Holds p → b.Within b' → b'.Holds p :=
    fun h hwithin => ⟨fun axis => (hwithin.mins axis).trans (h.mins axis),
      fun axis => (h.maxs axis).trans (hwithin.maxs axis)⟩
  cases i with
  | first =>
    exact hholds (hholds (Bounds.isFinite_empty.holds_insert (hfinite t.a))
      (ha.within_insert t.b)) (hb.within_insert t.c)
  | second => exact hholds (ha.holds_insert (hfinite t.b)) (hb.within_insert t.c)
  | third => exact hb.holds_insert (hfinite t.c)

/-- The box of a triangle holds all its points. -/
theorem bounds_holds (hq : q ∈ t.points) : t.bounds.Holds q := by
  constructor
  · intro axis
    obtain ⟨v, hv⟩ := exists_dot_eq_coord axis
    have hneg := dot_le_of_mem_points (v := -v) (u := -t.bounds.mins.coord axis) (fun i => ?_) hq
    · rw [Vec3.neg_dot, hv] at hneg
      exact neg_le_neg_iff.mp hneg
    · rw [Vec3.neg_dot, hv, neg_le_neg_iff]
      exact (t.bounds_holds_corner i).mins axis
  · intro axis
    obtain ⟨v, hv⟩ := exists_dot_eq_coord axis
    have hle := dot_le_of_mem_points (v := v) (u := t.bounds.maxs.coord axis) (fun i => ?_) hq
    · rwa [hv] at hle
    · rw [hv]
      exact (t.bounds_holds_corner i).maxs axis

/-! ## §C Seen from above -/

/-- On which side of an edge a point lies, seen from above. -/
noncomputable def side (t : Triangle ℝ) (i : Corner) (point : Vec3 ℝ) : ℝ :=
  (t.corner i.next - t.corner i).x * (point - t.corner i).z -
    (t.corner i.next - t.corner i).z * (point - t.corner i).x

/-- The three sides together make up the triangle. -/
theorem sum_side (t : Triangle ℝ) (point : Vec3 ℝ) :
    t.side .first point + t.side .second point + t.side .third point =
      -((t.b - t.a).cross (t.c - t.a)).y := by
  simp only [side, corner, Corner.next, Vec3.cross_y, Vec3.sub_x, Vec3.sub_z]
  ring

/-- The sides are the weights of the corners on the far ends of the edges, up to a factor. -/
theorem sum_side_mul (t : Triangle ℝ) (point : Vec3 ℝ) :
    t.side .second point * t.a.x + t.side .third point * t.b.x + t.side .first point * t.c.x =
        -((t.b - t.a).cross (t.c - t.a)).y * point.x ∧
      t.side .second point * t.a.z + t.side .third point * t.b.z + t.side .first point * t.c.z =
        -((t.b - t.a).cross (t.c - t.a)).y * point.z := by
  simp only [side, corner, Corner.next, Vec3.cross_y, Vec3.sub_x, Vec3.sub_z]
  constructor <;> ring

/-- A triangle whose normal rises is wound clockwise, seen from above. -/
theorem cross_y_pos (h : 0 < t.normal.y) : 0 < ((t.b - t.a).cross (t.c - t.a)).y := by
  obtain ⟨s, hs, hnormal⟩ := Vec3.exists_normalizeOrZero ((t.b - t.a).cross (t.c - t.a))
  have hrise : 0 < s * ((t.b - t.a).cross (t.c - t.a)).y := by
    rw [← Vec3.smul_y, ← hnormal]
    exact h
  have hpos : 0 < s := by
    apply lt_of_le_of_ne hs
    rintro rfl
    rw [zero_mul] at hrise
    exact lt_irrefl _ hrise
  exact (mul_pos_iff_of_pos_left hpos).mp hrise

/-- The numbers have one sign, as far as they have any. -/
theorem onOneSide_iff (s : ℝ) (l : List ℝ) : MeshData.onOneSide s l = true ↔
    (∀ r ∈ s :: l, 0 ≤ r) ∨ ∀ r ∈ s :: l, r ≤ 0 := by
  induction l generalizing s with
  | nil => simpa [MeshData.onOneSide] using le_total 0 s
  | cons r l ih =>
    unfold MeshData.onOneSide
    simp only [Scalar.zero_real, Scalar.same_real]
    simp only [List.forall_mem_cons] at ih ⊢
    split
    · next hr =>
      rw [ih, hr]
      simp
    · next hr =>
      split
      · next hs =>
        rw [ih, hs]
        simp
      · next hs =>
        split
        · next hopposite =>
          -- two of the numbers have opposite signs
          simp only [Bool.false_eq_true, false_iff]
          rcases mul_neg_iff.mp hopposite with ⟨hpos, hneg⟩ | ⟨hneg, hpos⟩
          · exact fun h => h.elim (fun h => absurd h.1 hneg.not_ge) fun h => absurd h.2.1 hpos.not_ge
          · exact fun h => h.elim (fun h => absurd h.2.1 hneg.not_ge) fun h => absurd h.1 hpos.not_ge
        · next hsame =>
          rw [ih]
          have hsign : 0 ≤ r * s := not_lt.mp hsame
          constructor
          · rintro (⟨hs', hl⟩ | ⟨hs', hl⟩)
            · have hpos : 0 < s := lt_of_le_of_ne hs' (Ne.symm hs)
              exact Or.inl ⟨hs', nonneg_of_mul_nonneg_left hsign hpos, hl⟩
            · have hneg : s < 0 := lt_of_le_of_ne hs' hs
              exact Or.inr ⟨hs', nonpos_of_mul_nonneg_left hsign hneg, hl⟩
          · rintro (⟨hs', -, hl⟩ | ⟨hs', -, hl⟩)
            · exact Or.inl ⟨hs', hl⟩
            · exact Or.inr ⟨hs', hl⟩

/-- A triangle that faces up covers a point when the point is on the same side of all edges. -/
theorem covers_iff_side (h : 0 < t.normal.y) :
    MeshData.covers t point = true ↔ ∀ i, t.side i point ≤ 0 := by
  have hcovers : MeshData.covers t point =
      MeshData.onOneSide 0 [t.side .first point, t.side .second point, t.side .third point] := by
    unfold MeshData.covers
    rw [Scalar.zero_real]
    rfl
  have hsum := t.sum_side point
  have harea := cross_y_pos h
  rw [hcovers, onOneSide_iff]
  simp only [List.forall_mem_cons, List.not_mem_nil, false_imp_iff, implies_true, and_true]
  constructor
  · rintro (⟨-, hfirst, hsecond, hthird⟩ | ⟨-, hfirst, hsecond, hthird⟩)
    · -- all on the other side, but they sum up to less than zero
      linarith
    · intro i
      cases i with
      | first => exact hfirst
      | second => exact hsecond
      | third => exact hthird
  · intro hsides
    exact Or.inr ⟨le_refl _, hsides .first, hsides .second, hsides .third⟩

/-- A point of the triangle is on the same side of all edges. -/
theorem side_nonpos_of_mem (h : 0 < t.normal.y) (hq : q ∈ t.points) (hx : q.x = point.x)
    (hz : q.z = point.z) (i : Corner) : t.side i point ≤ 0 := by
  -- along the edge the side is a linear function, which vanishes at both of its ends
  let across : Vec3 ℝ := ⟨-(t.corner i.next - t.corner i).z, 0, (t.corner i.next - t.corner i).x⟩
  have hside (v : Vec3 ℝ) : t.side i v = across.dot v - across.dot (t.corner i) := by
    simp only [side, across, Vec3.dot_def, Vec3.sub_x, Vec3.sub_z]
    ring
  have hsame : t.side i point = t.side i q := by
    simp only [side, Vec3.sub_x, Vec3.sub_z, hx, hz]
  have harea := cross_y_pos h
  rw [hsame, hside, sub_nonpos]
  apply dot_le_of_mem_points ?_ hq
  intro j
  rw [← sub_nonpos, ← hside]
  have hsum := t.sum_side (t.corner j)
  cases i <;> cases j <;>
    simp only [side, corner, Corner.next, Vec3.cross_y, Vec3.sub_x, Vec3.sub_z] at hsum harea ⊢ <;>
    nlinarith

/-- **What a triangle covers.** A triangle that faces up covers a point, edges and corners included,
exactly when one of its points lies straight above or below. -/
theorem covers_iff (h : 0 < t.normal.y) : MeshData.covers t point = true ↔
    ∃ q ∈ t.points, q.x = point.x ∧ q.z = point.z := by
  rw [covers_iff_side h]
  constructor
  · intro hsides
    have harea := cross_y_pos h
    have hsum := t.sum_side point
    obtain ⟨hx, hz⟩ := t.sum_side_mul point
    generalize ((t.b - t.a).cross (t.c - t.a)).y = area at harea hsum hx hz
    let weights : Vec3 ℝ := ⟨-t.side .second point / area, -t.side .third point / area,
      -t.side .first point / area⟩
    have hweight (i : Corner) : 0 ≤ -t.side i point / area :=
      div_nonneg (neg_nonneg.mpr (hsides i)) harea.le
    have hone : weights.x + weights.y + weights.z = 1 := by
      show -t.side .second point / area + -t.side .third point / area + -t.side .first point / area = 1
      rw [← add_div, ← add_div, div_eq_one_iff_eq harea.ne']
      linarith
    have hnonneg : weights.Nonneg := ⟨hweight .second, hweight .third, hweight .first⟩
    have hmem : weights.x • t.a + weights.y • t.b + weights.z • t.c ∈ t.points :=
      hnonneg.mem hone (convex_convexHull ℝ _) (t.corner_mem_points .first)
        (t.corner_mem_points .second) (t.corner_mem_points .third)
    refine ⟨_, hmem, ?_, ?_⟩
    · simp only [Vec3.add_x, Vec3.smul_x]
      show -t.side .second point / area * t.a.x + -t.side .third point / area * t.b.x +
        -t.side .first point / area * t.c.x = point.x
      field_simp
      linarith
    · simp only [Vec3.add_z, Vec3.smul_z]
      show -t.side .second point / area * t.a.z + -t.side .third point / area * t.b.z +
        -t.side .first point / area * t.c.z = point.z
      field_simp
      linarith
  · rintro ⟨q, hq, hx, hz⟩ i
    exact side_nonpos_of_mem h hq hx hz i

/-- The vertical through a point meets a triangle where it meets its plane. -/
theorem height_of_mem (h : 0 < t.normal.y) (hq : q ∈ t.points) (hx : q.x = point.x)
    (hz : q.z = point.z) :
    t.a.y - (t.normal.x * (point.x - t.a.x) + t.normal.z * (point.z - t.a.z)) / t.normal.y = q.y := by
  have hplane := normal_dot_of_mem hq
  simp only [Vec3.dot_def, hx, hz] at hplane
  rw [sub_eq_iff_eq_add, ← sub_eq_iff_eq_add', eq_div_iff h.ne']
  linarith

end Triangle

end ConvexCollision
