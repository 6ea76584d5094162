import ConvexCollision.Proofs.Exact.Division
import ConvexCollision.Proofs.Simplex.Kept

/-!
# ConvexCollision.Proofs.Simplex.Hull -- the projection of a simplex is right

What the projection gives for up to four points, wherever they lie: the weights of a point of their hull, and
no division by zero on the way (`nearest_withDiv`). A quotient is only ever taken by the squared length of an
edge, the squared area of a face or the volume of a tetrahedron that passed its threshold, or by the largest
coordinate of the edge or of the face, which is then not zero either.

Thresholds may fire where points coincide, lie on a line or lie in a plane. Where none can, since no edge, no
face and no volume is that small (`IsClear`), the point is the one of the hull nearest to the origin, and there
is no other (`nearest_of_hull`).
-/

namespace ConvexCollision

namespace Projection

/-! ## §A Divisions -/

section Divisions

variable {div : ℝ → ℝ → ℝ} (hdiv : ∀ a b, b ≠ 0 → div a b = a / b)

include hdiv

theorem segment_withDiv (s₁ s₂ : Vec3 ℝ) :
    @segment ℝ (Scalar.withDiv div) s₁ s₂ = segment s₁ s₂ := by
  unfold segment
  by_cases hshort : (s₂ - s₁).lengthSq < degenerate
  · exact (if_pos hshort).trans (if_pos hshort).symm
  · have hlength : 0 < (s₂ - s₁).lengthSq := degenerate_pos.trans_le (not_lt.mp hshort)
    have hspan : (dominant fun i => s₂.coord i - s₁.coord i).2 ≠ 0 :=
      dominant_ne_zero (fun i => (Vec3.coord_sub s₂ s₁ i).symm) hlength
    refine (if_neg hshort).trans (Eq.trans ?_ (if_neg hshort).symm)
    dsimp only
    rw [Vec3.div_withDiv hdiv, Scalar.div_withDiv hdiv, Scalar.div_withDiv hdiv]
    · rfl
    · exact hspan
    · exact hspan
    · exact hlength.ne'

theorem edges_withDiv (s₁ s₂ s₃ : Vec3 ℝ) :
    @edges ℝ (Scalar.withDiv div) s₁ s₂ s₃ = edges s₁ s₂ s₃ := by
  unfold edges
  dsimp only
  rw [segment_withDiv hdiv, segment_withDiv hdiv, segment_withDiv hdiv]
  rfl

omit hdiv in
/-- The weights on a triangle, from the foot of the origin on its plane, the axis along which the triangle is
seen, and twice its area there. -/
def triangleAlong {α : Type} [Scalar α] (s₁ s₂ s₃ foot : Vec3 α) (axis : Axis) (area : α) : Vec3 α :=
  let p := shadow foot axis
  let t₁ := shadow s₁ axis - p
  let t₂ := shadow s₂ axis - p
  let t₃ := shadow s₃ axis - p
  let a₁ := t₂.cross t₃
  let a₂ := t₃.cross t₁
  let a₃ := t₁.cross t₂
  if sameSign area a₁ && sameSign area a₂ && sameSign area a₃ then ⟨a₁ / area, a₂ / area, a₃ / area⟩
  else edges s₁ s₂ s₃

omit hdiv in
theorem triangle_eq_triangleAlong {α : Type} [Scalar α] (s₁ s₂ s₃ : Vec3 α) : triangle s₁ s₂ s₃ =
    let n := (s₂ - s₁).cross (s₃ - s₁)
    let largest := dominant fun i => (shadow s₂ i - shadow s₁ i).cross (shadow s₃ i - shadow s₁ i)
    if n.lengthSq < degenerate then edges s₁ s₂ s₃
    else triangleAlong s₁ s₂ s₃ (n * s₁.dot n / n.lengthSq) largest.1 largest.2 := rfl

theorem triangleAlong_withDiv (s₁ s₂ s₃ foot : Vec3 ℝ) (axis : Axis) {area : ℝ} (harea : area ≠ 0) :
    @triangleAlong ℝ (Scalar.withDiv div) s₁ s₂ s₃ foot axis area =
      triangleAlong s₁ s₂ s₃ foot axis area := by
  unfold triangleAlong
  rw [edges_withDiv hdiv]
  dsimp only
  rw [Scalar.div_withDiv hdiv _ harea, Scalar.div_withDiv hdiv _ harea, Scalar.div_withDiv hdiv _ harea]
  rfl

theorem triangle_withDiv (s₁ s₂ s₃ : Vec3 ℝ) :
    @triangle ℝ (Scalar.withDiv div) s₁ s₂ s₃ = triangle s₁ s₂ s₃ := by
  refine (@triangle_eq_triangleAlong ℝ (Scalar.withDiv div) s₁ s₂ s₃).trans
    (Eq.trans ?_ (triangle_eq_triangleAlong s₁ s₂ s₃).symm)
  dsimp only
  rw [edges_withDiv hdiv]
  by_cases hline : (normal s₁ s₂ s₃).lengthSq < degenerate
  · exact (if_pos hline).trans (if_pos hline).symm
  · have hnormal : 0 < (normal s₁ s₂ s₃).lengthSq := degenerate_pos.trans_le (not_lt.mp hline)
    have hseen (i : Axis) : (shadow s₂ i - shadow s₁ i).cross (shadow s₃ i - shadow s₁ i) =
        (normal s₁ s₂ s₃).coord i := by
      rw [shadow_sub, shadow_sub, shadow_cross, normal]
    have harea := dominant_ne_zero hseen hnormal
    refine (if_neg hline).trans (Eq.trans ?_ (if_neg hline).symm)
    rw [triangleAlong_withDiv hdiv, Vec3.div_withDiv hdiv]
    · rfl
    · exact hnormal.ne'
    · exact harea

theorem tetrahedron_withDiv (s₁ s₂ s₃ s₄ : Vec3 ℝ) :
    @tetrahedron ℝ (Scalar.withDiv div) s₁ s₂ s₃ s₄ = tetrahedron s₁ s₂ s₃ s₄ := by
  unfold tetrahedron
  simp only [triangle_withDiv hdiv]
  split
  · next hinside =>
    refine Eq.trans ?_ (if_pos hinside).symm
    rw [Scalar.div_withDiv hdiv]
    · rfl
    · exact abs_pos.mp (degenerate_pos.trans hinside.1)
  · next houtside => exact (if_neg houtside).symm

theorem barycentric_withDiv (p : List (Vec3 ℝ)) :
    @barycentric ℝ (Scalar.withDiv div) p = barycentric p := by
  rcases p with _ | ⟨a, _ | ⟨b, _ | ⟨c, _ | ⟨d, rest⟩⟩⟩⟩
  · rfl
  · rfl
  · simp only [barycentric, segment_withDiv hdiv]
  · simp only [barycentric, triangle_withDiv hdiv]
  · simp only [barycentric, tetrahedron_withDiv hdiv]

/-- **The projection never divides by zero**: whatever a division by zero gave, it would come out the same. -/
theorem nearest_withDiv (s : Simplex ℝ) : @Simplex.nearest ℝ (Scalar.withDiv div) s = s.nearest := by
  unfold Simplex.nearest
  rw [barycentric_withDiv hdiv]
  rfl

end Divisions

/-! ## §B Thresholds -/

variable {a b c : Vec3 ℝ}

/-- No edge, no face and no volume of the points counts as degenerate. The comparisons are those of the
projection: a squared length or a squared area counts as degenerate when it is below the threshold, and a
volume also when it is at the threshold. -/
structure IsClear {n : ℕ} (p : Fin n → Vec3 ℝ) : Prop where
  /-- No two points are that near to each other. -/
  edges : ∀ i j, i < j → degenerate ≤ (p j - p i).lengthSq
  /-- No three points are that near to lying on a line. -/
  faces : ∀ i j k, i < j → j < k → degenerate ≤ ((p j - p i).cross (p k - p i)).lengthSq
  /-- No four points are that near to lying in a plane. -/
  volumes : ∀ i j k l, i < j → j < k → k < l →
    degenerate < |((p j - p i).cross (p k - p i)).dot (p l - p i)|

theorem segmentFires_comm : SegmentFires a b ↔ SegmentFires b a := by
  unfold SegmentFires
  rw [← neg_sub a b, Vec3.lengthSq_neg]

/-- The vector square to a triangle does not depend on the corner that it begins with. -/
theorem normal_rotate (a b c : Vec3 ℝ) : normal a b c = normal b c a := Vec3.sides_cross_rotate a b c

/-- The determinant is the volume that the corners span. -/
theorem abs_det (a b c d : Vec3 ℝ) : |det a b c d| = |((b - a).cross (c - a)).dot (d - a)| := by
  have hopposite : det a b c d = -((b - a).cross (c - a)).dot (d - a) := by
    simp only [det, cofactors, Fin.sum_univ_four, Matrix.cons_val, Vec3.dot_def, Vec3.cross_x, Vec3.cross_y,
      Vec3.cross_z, Vec3.sub_x, Vec3.sub_y, Vec3.sub_z]
    ring
  rw [hopposite, abs_neg]

theorem not_triangleFires (hface : degenerate ≤ (normal a b c).lengthSq) (hab : ¬ SegmentFires a b)
    (hbc : ¬ SegmentFires b c) (hac : ¬ SegmentFires a c) : ¬ TriangleFires a b c := by
  rintro (hline | ⟨-, hfires | hfires | hfires⟩)
  · exact absurd hline (not_lt.mpr hface)
  · exact hbc hfires
  · exact hac (segmentFires_comm.mp hfires)
  · exact hab hfires

namespace IsClear

variable {n : ℕ} {p : Fin n → Vec3 ℝ} (h : IsClear p)

include h

theorem not_segmentFires {i j : Fin n} (hij : i ≠ j) : ¬ SegmentFires (p i) (p j) := by
  rcases lt_or_gt_of_ne hij with hlt | hgt
  · exact not_lt.mpr (h.edges i j hlt)
  · rw [segmentFires_comm]
    exact not_lt.mpr (h.edges j i hgt)

theorem not_triangleFires {i j k : Fin n} (hij : i < j) (hjk : j < k) :
    ¬ TriangleFires (p i) (p j) (p k) :=
  Projection.not_triangleFires (h.faces i j k hij hjk) (h.not_segmentFires hij.ne)
    (h.not_segmentFires hjk.ne) (h.not_segmentFires (hij.trans hjk).ne)

/-- The corners of a face may be taken from the second one on, as the projection of a tetrahedron does. -/
theorem not_triangleFires_rotate {i j k : Fin n} (hij : i < j) (hjk : j < k) :
    ¬ TriangleFires (p j) (p k) (p i) := by
  refine Projection.not_triangleFires ?_ (h.not_segmentFires hjk.ne)
    (h.not_segmentFires (hij.trans hjk).ne') (h.not_segmentFires hij.ne')
  rw [← normal_rotate]
  exact h.faces i j k hij hjk

/-- Or from the third one on. -/
theorem not_triangleFires_rotate' {i j k : Fin n} (hij : i < j) (hjk : j < k) :
    ¬ TriangleFires (p k) (p i) (p j) := by
  refine Projection.not_triangleFires ?_ (h.not_segmentFires (hij.trans hjk).ne')
    (h.not_segmentFires hij.ne) (h.not_segmentFires hjk.ne')
  rw [normal_rotate]
  exact h.faces i j k hij hjk

/-- Among points without a degenerate edge, face or volume no threshold fires. -/
theorem not_fires (hle : n ≤ 4) : ¬ Fires (List.ofFn p) := by
  intro hfires
  match n, hle with
  | 0, _ => exact hfires
  | 1, _ => exact hfires
  | 2, _ => exact h.not_segmentFires (i := 0) (j := 1) (by decide) hfires
  | 3, _ => exact h.not_triangleFires (i := 0) (j := 1) (k := 2) (by decide) (by decide) hfires
  | 4, _ =>
    have h₀₁ : (0 : Fin 4) < 1 := by decide
    have h₁₂ : (1 : Fin 4) < 2 := by decide
    have h₂₃ : (2 : Fin 4) < 3 := by decide
    obtain hflat | ⟨-, hface | hface | hface | hface⟩ :
        TetrahedronFires (p 0) (p 1) (p 2) (p 3) := hfires
    · rw [abs_det] at hflat
      exact hflat (h.volumes 0 1 2 3 h₀₁ h₁₂ h₂₃)
    · exact h.not_triangleFires h₀₁ h₁₂ hface
    · exact h.not_triangleFires h₁₂ h₂₃ hface
    · exact h.not_triangleFires_rotate (h₀₁.trans h₁₂) h₂₃ hface
    · exact h.not_triangleFires_rotate' h₀₁ (h₁₂.trans h₂₃) hface

end IsClear

end Projection

/-! ## §C The nearest point of the hull -/

/-- What reaches as far along a vector as the vector itself is longer, unless it is the vector. -/
theorem Vec3.length_lt_of_le_dot {v x : Vec3 ℝ} (h : v.lengthSq ≤ v.dot x) (hne : x ≠ v) :
    v.length < x.length := by
  have hapart : 0 < (x - v).dot (x - v) := dot_self_pos (sub_ne_zero.mpr hne)
  refine Real.sqrt_lt_sqrt (dot_self_nonneg v) ?_
  rw [lengthSq_eq] at h ⊢
  rw [lengthSq_eq]
  simp only [dot_sub, sub_dot, dot_comm x v] at hapart
  linarith

namespace Simplex

open Projection

variable {s : Simplex ℝ}

/-- **The projection of a simplex is right.** For one to four points the projection divides by zero nowhere:
its result does not depend on what that would give. The weights are not negative, add up to one and give the
point. And where no edge, no face and no volume counts as degenerate, the point is the one of the hull nearest
to the origin: it belongs to the hull, and every other point of the hull is further away. -/
theorem nearest_of_hull (hne : s ≠ []) (hle : s.length ≤ 4)
    (hfin : ∀ x ∈ s.points, x.lengthSq < Scalar.maxFinite) :
    (∀ div : ℝ → ℝ → ℝ, (∀ a b, b ≠ 0 → div a b = a / b) →
      @Simplex.nearest ℝ (Scalar.withDiv div) s = s.nearest) ∧
    (∃ w : Fin s.length → ℝ, s.nearest.2 = List.ofFn w ∧ (∀ i, 0 ≤ w i) ∧ ∑ i, w i = 1 ∧
      s.nearest.1 = ∑ i, w i • s.place i) ∧
    (IsClear s.place → s.nearest.1 ∈ convexHull ℝ s.points ∧
      ∀ x ∈ convexHull ℝ s.points, x ≠ s.nearest.1 → s.nearest.1.length < x.length) := by
  obtain ⟨w, hw, hnearest⟩ := exists_projection hne hle hfin
  refine ⟨fun div hdiv => nearest_withDiv hdiv s, ⟨w, ?_, hw.weights.1, hw.weights.2, ?_⟩, fun hclear => ?_⟩
  · rw [hnearest]
  · rw [hnearest]
    rfl
  · have hpoint : s.nearest.1 = combine s.place w := by rw [hnearest]
    have hmin : IsNearest s.place w := hw.nearest (hclear.not_fires hle)
    rw [hpoint]
    refine ⟨convexHull_mono kept_points_subset (combine_mem_kept hw.weights), fun x hx hother => ?_⟩
    refine Vec3.length_lt_of_le_dot (Vec3.le_dot_of_mem_convexHull hx fun y hy => ?_) hother
    obtain ⟨i, rfl⟩ := exists_place hy
    exact hmin.le i

/-- The corners of a tetrahedron off the origin, nearest to it halfway along the edge of the first and the last
of them. -/
noncomputable def uprightCorners : Fin 4 → Vec3 ℝ :=
  ![⟨1, 1, -1 / 2⟩, ⟨2, 1, -1 / 2⟩, ⟨1, 2, -1 / 2⟩, ⟨1, 1, 1 / 2⟩]

/-- The simplex of these corners. -/
noncomputable def upright : Simplex ℝ := List.ofFn fun i => ⟨uprightCorners i, uprightCorners i⟩

/-- None of its edges, its faces and its volume counts as degenerate. -/
theorem isClear_uprightCorners : IsClear uprightCorners := by
  constructor
  · intro i j hij
    fin_cases i <;> fin_cases j <;> first
      | exact absurd hij (by decide)
      | norm_num [uprightCorners, degenerate, Vec3.lengthSq_eq, Vec3.dot_def]
  · intro i j k hij hjk
    obtain ⟨rfl, rfl, rfl⟩ | ⟨rfl, rfl, rfl⟩ | ⟨rfl, rfl, rfl⟩ | ⟨rfl, rfl, rfl⟩ :
        (i = 0 ∧ j = 1 ∧ k = 2) ∨ (i = 0 ∧ j = 1 ∧ k = 3) ∨ (i = 0 ∧ j = 2 ∧ k = 3) ∨
          (i = 1 ∧ j = 2 ∧ k = 3) := by omega
    all_goals
      simp only [uprightCorners, Matrix.cons_val]
      norm_num [degenerate, Vec3.lengthSq_eq, Vec3.dot_def, Vec3.cross_x, Vec3.cross_y, Vec3.cross_z]
  · intro i j k l hij hjk hkl
    obtain ⟨rfl, rfl, rfl, rfl⟩ : i = 0 ∧ j = 1 ∧ k = 2 ∧ l = 3 := by omega
    simp only [uprightCorners, Matrix.cons_val]
    norm_num [degenerate, Vec3.dot_def, Vec3.cross_x, Vec3.cross_y, Vec3.cross_z]

/-- The projection finds the point halfway along that edge. -/
theorem upright_nearest : upright.nearest.1 = ⟨1, 1, 0⟩ := by
  have hplace : upright.place = uprightCorners := by
    funext i
    fin_cases i <;> rfl
  have hcorner (i : Fin 4) : uprightCorners i ∈ convexHull ℝ upright.points :=
    subset_convexHull ℝ _ ⟨_, List.mem_ofFn.mpr ⟨i, rfl⟩, rfl⟩
  have hpoint {x : Vec3 ℝ} (hx : x ∈ upright.points) : ∃ i, uprightCorners i = x :=
    hplace ▸ exists_place hx
  have hfin : ∀ x ∈ upright.points, x.lengthSq < Scalar.maxFinite := by
    intro x hx
    obtain ⟨i, rfl⟩ := hpoint hx
    simp only [Scalar.maxFinite, Scalar.ofNat_real, Vec3.lengthSq_eq, Vec3.dot_def]
    fin_cases i <;> norm_num [uprightCorners]
  obtain ⟨-, -, hhull⟩ := nearest_of_hull (s := upright) (by simp [upright]) (by simp [upright]) hfin
  obtain ⟨hmem, hnearer⟩ := hhull (hplace ▸ isClear_uprightCorners)
  by_contra hother
  -- the middle of the edge belongs to the hull, and no point of the hull is short of it
  have hmiddle : (⟨1, 1, 0⟩ : Vec3 ℝ) ∈ convexHull ℝ upright.points := by
    have hhalf : (⟨1, 1, 0⟩ : Vec3 ℝ) =
        (1 / 2 : ℝ) • uprightCorners 0 + (1 / 2 : ℝ) • uprightCorners 3 := by
      simp only [uprightCorners, Matrix.cons_val]
      ext <;> norm_num
    rw [hhalf]
    exact convex_convexHull ℝ _ (hcorner 0) (hcorner 3) (by norm_num) (by norm_num) (by norm_num)
  have hreach : (⟨1, 1, 0⟩ : Vec3 ℝ).lengthSq ≤ (⟨1, 1, 0⟩ : Vec3 ℝ).dot upright.nearest.1 := by
    refine Vec3.le_dot_of_mem_convexHull hmem fun x hx => ?_
    obtain ⟨i, rfl⟩ := hpoint hx
    fin_cases i <;> norm_num [uprightCorners, Vec3.lengthSq_eq, Vec3.dot_def]
  exact (hnearer _ hmiddle (Ne.symm hother)).asymm (Vec3.length_lt_of_le_dot hreach hother)

end Simplex

end ConvexCollision
