import ConvexCollision.Proofs.Simplex.Projection

/-!
# ConvexCollision.Proofs.Simplex.Barycentric -- the projection finds the nearest point

Whatever one to four points are, the weights that the projection gives them are not negative and add
up to one, as long as no point is further away than the largest finite distance. They are those of the
point of the hull nearest the origin, unless a threshold fired on the way: two points that coincide,
three on a line, or four in a plane. Four weights none of which is zero are those of the origin
(`exists_isProjection`).
-/

namespace ConvexCollision.Projection

variable {s₁ s₂ s₃ s₄ : Vec3 ℝ}

/-! ## § Faces -/

/-- Weights on four points, by their places. -/
def Vec4.weights (w : Vec4 ℝ) : Fin 4 → ℝ := ![w.x, w.y, w.z, w.w]

/-- The weights of the nearest points of the faces, by the corner opposite to the face. -/
noncomputable def faceWeights (s₁ s₂ s₃ s₄ : Vec3 ℝ) : Fin 4 → Vec4 ℝ :=
  let f₁ := triangle s₂ s₃ s₄
  let f₂ := triangle s₃ s₄ s₁
  let f₃ := triangle s₄ s₁ s₂
  let f₄ := triangle s₁ s₂ s₃
  ![⟨0, f₁.x, f₁.y, f₁.z⟩, ⟨f₂.z, 0, f₂.x, f₂.y⟩, ⟨f₃.y, f₃.z, 0, f₃.x⟩, ⟨f₄.x, f₄.y, f₄.z, 0⟩]

/-- A threshold fires in the projection of some face. -/
def FacesFire (s₁ s₂ s₃ s₄ : Vec3 ℝ) : Prop :=
  TriangleFires s₁ s₂ s₃ ∨ TriangleFires s₂ s₃ s₄ ∨ TriangleFires s₃ s₄ s₁ ∨ TriangleFires s₄ s₁ s₂

theorem faceWeights_zero (j : Fin 4) : (faceWeights s₁ s₂ s₃ s₄ j).weights j = 0 := by
  fin_cases j <;> rfl

theorem side_faceWeights (j : Fin 4) : side (faceWeights s₁ s₂ s₃ s₄ j).weights j =
    Vec3.coords (triangle (side ![s₁, s₂, s₃, s₄] j 0) (side ![s₁, s₂, s₃, s₄] j 1)
      (side ![s₁, s₂, s₃, s₄] j 2)) := by
  ext i
  fin_cases j <;> fin_cases i <;> rfl

theorem faceWeights_mem (h : ∀ i, (![s₁, s₂, s₃, s₄] i).lengthSq < Scalar.maxFinite)
    (j : Fin 4) : (faceWeights s₁ s₂ s₃ s₄ j).weights ∈ stdSimplex ℝ (Fin 4) := by
  refine mem_stdSimplex_of_side (j := j) ?_ (faceWeights_zero j)
  have hside (i : Fin 3) : (side ![s₁, s₂, s₃, s₄] j i).lengthSq < Scalar.maxFinite := h _
  rw [side_faceWeights]
  rw [← FinVec.etaExpand_eq (side ![s₁, s₂, s₃, s₄] j)] at hside
  exact triangle_weights hside

theorem faceWeights_nearest
    (h : ∀ i, (![s₁, s₂, s₃, s₄] i).lengthSq < Scalar.maxFinite)
    (hclear : ¬FacesFire s₁ s₂ s₃ s₄) (j : Fin 4) :
    IsNearest (side ![s₁, s₂, s₃, s₄] j) (side (faceWeights s₁ s₂ s₃ s₄ j).weights j) := by
  have hface : ¬TriangleFires (side ![s₁, s₂, s₃, s₄] j 0) (side ![s₁, s₂, s₃, s₄] j 1)
      (side ![s₁, s₂, s₃, s₄] j 2) := by
    simp only [FacesFire, not_or] at hclear
    fin_cases j
    · exact hclear.2.1
    · exact hclear.2.2.1
    · exact hclear.2.2.2
    · exact hclear.1
  have hside (i : Fin 3) : (side ![s₁, s₂, s₃, s₄] j i).lengthSq < Scalar.maxFinite := h _
  rw [side_faceWeights]
  rw [← FinVec.etaExpand_eq (side ![s₁, s₂, s₃, s₄] j)] at hside ⊢
  exact triangle_nearest hside hface

/-! ## § Tetrahedra -/

/-- The determinant is the triple product. -/
theorem volume_eq (p q r : Vec3 ℝ) : volume p q r = (p.cross q).dot r := by
  simp only [volume, Vec3.dot_def, Vec3.cross_x, Vec3.cross_y, Vec3.cross_z]
  ring

/-- The signed volumes that the origin makes with the faces, by the corner opposite to the face. -/
noncomputable def cofactors (s₁ s₂ s₃ s₄ : Vec3 ℝ) : Fin 4 → ℝ :=
  ![-(s₂.cross s₃).dot s₄, (s₁.cross s₃).dot s₄, -(s₁.cross s₂).dot s₄, (s₁.cross s₂).dot s₃]

/-- The signed volume of a tetrahedron. -/
noncomputable def det (s₁ s₂ s₃ s₄ : Vec3 ℝ) : ℝ := ∑ i, cofactors s₁ s₂ s₃ s₄ i

/-- The weights of the origin. -/
noncomputable def volumeShares (s₁ s₂ s₃ s₄ : Vec3 ℝ) (i : Fin 4) : ℝ :=
  cofactors s₁ s₂ s₃ s₄ i / det s₁ s₂ s₃ s₄

/-- The threshold for points in a plane fires, or else one does in the projection of a face that is
asked. -/
def TetrahedronFires (s₁ s₂ s₃ s₄ : Vec3 ℝ) : Prop :=
  ¬degenerate < |det s₁ s₂ s₃ s₄| ∨
    (¬(∀ i, 0 < volumeShares s₁ s₂ s₃ s₄ i) ∧ FacesFire s₁ s₂ s₃ s₄)

/-- The shares of the volume are the weights of the origin. -/
theorem combine_volumeShares : combine ![s₁, s₂, s₃, s₄] (volumeShares s₁ s₂ s₃ s₄) = 0 := by
  have hdepend := Vec3.four_vectors s₁ s₂ s₃ s₄
  rw [Vec3.cross_comm s₃ s₁, Vec3.neg_dot] at hdepend
  have hzero : combine ![s₁, s₂, s₃, s₄] (cofactors s₁ s₂ s₃ s₄) = 0 := by
    rw [cofactors, combine_four, ← sub_eq_zero.mpr hdepend.symm]
    module
  simp only [combine, volumeShares, div_eq_inv_mul, mul_smul, ← Finset.smul_sum] at hzero ⊢
  rw [hzero, smul_zero]

theorem volumeShares_foot (hdet : det s₁ s₂ s₃ s₄ ≠ 0) :
    IsFoot ![s₁, s₂, s₃, s₄] (volumeShares s₁ s₂ s₃ s₄) := by
  refine ⟨?_, fun i => by
    rw [combine_volumeShares, Vec3.zero_dot, Vec3.lengthSq_eq, Vec3.zero_dot]⟩
  simp only [volumeShares, div_eq_mul_inv]
  rw [← Finset.sum_mul]
  exact mul_inv_cancel₀ hdet

/-- The weights on a tetrahedron are those of the origin when it lies strictly inside, and those of
the nearest of the nearest points of the faces otherwise. -/
theorem tetrahedron_eq : (tetrahedron s₁ s₂ s₃ s₄).weights =
    if degenerate < |det s₁ s₂ s₃ s₄| ∧ ∀ i, 0 < volumeShares s₁ s₂ s₃ s₄ i then
      volumeShares s₁ s₂ s₃ s₄
    else (nearestOf ⟨0, 0, 0, 0⟩ ([3, 0, 1, 2].map fun j => (faceWeights s₁ s₂ s₃ s₄ j,
      combine ![s₁, s₂, s₃, s₄] (faceWeights s₁ s₂ s₃ s₄ j).weights))).weights := by
  have hdet : -(s₂.cross s₃).dot s₄ + (s₁.cross s₃).dot s₄ + -(s₁.cross s₂).dot s₄ +
      (s₁.cross s₂).dot s₃ = det s₁ s₂ s₃ s₄ := by
    rw [det, Fin.sum_univ_four]
    rfl
  simp only [tetrahedron, volume_eq, hdet, Bool.and_eq_true, sameSign_iff, Scalar.abs_real]
  rw [apply_ite Vec4.weights]
  refine if_congr ?_ ?_ (congrArg Vec4.weights ?_)
  · simp [Fin.forall_fin_succ, volumeShares, cofactors, and_assoc]
  · ext i
    fin_cases i <;> simp [Vec4.weights, volumeShares, cofactors, div_eq_mul_inv]
  · have hpoint (x y z w : ℝ) : combine ![s₁, s₂, s₃, s₄] (Vec4.weights ⟨x, y, z, w⟩) =
        x • s₁ + y • s₂ + z • s₃ + w • s₄ := combine_four s₁ s₂ s₃ s₄ x y z w
    simp [faceWeights, hpoint, add_assoc, add_comm, add_left_comm]

/-- The weights on the faces are those of the nearest of their nearest points. -/
theorem faces_chosen (h : ∀ i, (![s₁, s₂, s₃, s₄] i).lengthSq < Scalar.maxFinite)
    (hout : ¬(degenerate < |det s₁ s₂ s₃ s₄| ∧ ∀ i, 0 < volumeShares s₁ s₂ s₃ s₄ i)) :
    ∃ k, (tetrahedron s₁ s₂ s₃ s₄).weights = (faceWeights s₁ s₂ s₃ s₄ k).weights ∧
      ∀ j, (combine ![s₁, s₂, s₃, s₄] (faceWeights s₁ s₂ s₃ s₄ k).weights).lengthSq ≤
        (combine ![s₁, s₂, s₃, s₄] (faceWeights s₁ s₂ s₃ s₄ j).weights).lengthSq := by
  rw [tetrahedron_eq, if_neg hout]
  obtain ⟨k, hk, hleast⟩ := nearestOf_weights Vec4.weights ⟨0, 0, 0, 0⟩ (faceWeights s₁ s₂ s₃ s₄)
    [3, 0, 1, 2] (by decide) h (faceWeights_mem h)
  exact ⟨k, congrArg Vec4.weights hk, hleast⟩

theorem tetrahedron_weights
    (h : ∀ i, (![s₁, s₂, s₃, s₄] i).lengthSq < Scalar.maxFinite) :
    (tetrahedron s₁ s₂ s₃ s₄).weights ∈ stdSimplex ℝ (Fin 4) := by
  by_cases hin : degenerate < |det s₁ s₂ s₃ s₄| ∧ ∀ i, 0 < volumeShares s₁ s₂ s₃ s₄ i
  · rw [tetrahedron_eq, if_pos hin]
    have hdet : det s₁ s₂ s₃ s₄ ≠ 0 := abs_pos.mp (degenerate_pos.trans hin.1)
    exact ⟨fun i => (hin.2 i).le, (volumeShares_foot hdet).sum_eq⟩
  · obtain ⟨k, hk, -⟩ := faces_chosen h hin
    rw [hk]
    exact faceWeights_mem h k

/-- The weights on a tetrahedron are those of its nearest point, unless a threshold fired. -/
theorem tetrahedron_nearest
    (h : ∀ i, (![s₁, s₂, s₃, s₄] i).lengthSq < Scalar.maxFinite)
    (hclear : ¬TetrahedronFires s₁ s₂ s₃ s₄) :
    IsNearest ![s₁, s₂, s₃, s₄] (tetrahedron s₁ s₂ s₃ s₄).weights := by
  obtain ⟨hflat, hfaces⟩ := not_or.mp hclear
  have hflat := not_not.mp hflat
  have hdet : det s₁ s₂ s₃ s₄ ≠ 0 := abs_pos.mp (degenerate_pos.trans hflat)
  have hfoot := volumeShares_foot hdet
  by_cases hin : ∀ i, 0 < volumeShares s₁ s₂ s₃ s₄ i
  · rw [tetrahedron_eq, if_pos ⟨hflat, hin⟩]
    exact hfoot.isNearest fun i => (hin i).le
  · have hclear' : ¬FacesFire s₁ s₂ s₃ s₄ := fun hfire => hfaces ⟨hin, hfire⟩
    obtain ⟨k, hk, hleast⟩ := faces_chosen h fun hboth => hin hboth.2
    obtain ⟨i, hi⟩ := not_forall.mp hin
    rw [hk]
    exact hfoot.isNearest_of_sides (not_lt.mp hi) (faceWeights_mem h k)
      fun u hu hzero => le_of_sides faceWeights_zero (faceWeights_nearest h hclear') hleast hu hzero

/-- Weights none of which is zero are those of the origin. -/
theorem tetrahedron_encloses
    (h : ∀ i, (![s₁, s₂, s₃, s₄] i).lengthSq < Scalar.maxFinite)
    (hfull : ∀ i, (tetrahedron s₁ s₂ s₃ s₄).weights i ≠ 0) :
    combine ![s₁, s₂, s₃, s₄] (tetrahedron s₁ s₂ s₃ s₄).weights = 0 := by
  by_cases hin : degenerate < |det s₁ s₂ s₃ s₄| ∧ ∀ i, 0 < volumeShares s₁ s₂ s₃ s₄ i
  · rw [tetrahedron_eq, if_pos hin, combine_volumeShares]
  · obtain ⟨k, hk, -⟩ := faces_chosen h hin
    exact absurd (hk ▸ faceWeights_zero k) (hfull k)

/-! ## § All projections -/

/-- A threshold fires in the projection of the points. -/
def Fires : List (Vec3 ℝ) → Prop
  | [a, b] => SegmentFires a b
  | [a, b, c] => TriangleFires a b c
  | a :: b :: c :: d :: _ => TetrahedronFires a b c d
  | _ => False

/-- The projection gives the weights for the points. -/
structure IsProjection {n : ℕ} (p : Fin n → Vec3 ℝ) (w : Fin n → ℝ) : Prop where
  /-- They are those that the projection gives. -/
  eq : barycentric (List.ofFn p) = List.ofFn w
  /-- They are weights of a point of the hull. -/
  weights : w ∈ stdSimplex ℝ (Fin n)
  /-- The point is the nearest one, unless a threshold fired. -/
  nearest : ¬Fires (List.ofFn p) → IsNearest p w
  /-- Four weights none of which is zero are those of the origin. -/
  encloses : n = 4 → (∀ i, w i ≠ 0) → combine p w = 0

/-- **The projection finds the nearest point of the hull**, unless a threshold fires, and a point of
the hull in any case. -/
theorem exists_isProjection {n : ℕ} (p : Fin n → Vec3 ℝ) (hpos : 0 < n) (hle : n ≤ 4)
    (hfin : ∀ i, (p i).lengthSq < Scalar.maxFinite) : ∃ w, IsProjection p w := by
  have hne {m : ℕ} {w : Fin m → ℝ} {x : Vec3 ℝ} (hm : m ≠ 4) : m = 4 → (∀ i, w i ≠ 0) → x = 0 :=
    fun h => absurd h hm
  match n, hpos, hle with
  | 1, _, _ =>
    obtain ⟨a, rfl⟩ : ∃ a, p = ![a] := ⟨p 0, (FinVec.etaExpand_eq p).symm⟩
    have hw : ![(1 : ℝ)] ∈ stdSimplex ℝ (Fin 1) := by simp [stdSimplex]
    refine ⟨![1], by simp [barycentric], hw, fun _ => ⟨hw, fun i => ?_⟩, hne (by decide)⟩
    fin_cases i
    simp [combine, Vec3.lengthSq_eq]
  | 2, _, _ =>
    obtain ⟨a, b, rfl⟩ : ∃ a b, p = ![a, b] := ⟨p 0, p 1, (FinVec.etaExpand_eq p).symm⟩
    refine ⟨![(segment a b).x, (segment a b).y], by simp [barycentric], segment_weights a b,
      fun h => segment_nearest fun hfire => h ?_, hne (by decide)⟩
    simpa [Fires] using hfire
  | 3, _, _ =>
    obtain ⟨a, b, c, rfl⟩ : ∃ a b c, p = ![a, b, c] :=
      ⟨p 0, p 1, p 2, (FinVec.etaExpand_eq p).symm⟩
    refine ⟨Vec3.coords (triangle a b c), by simp [barycentric], triangle_weights hfin,
      fun h => triangle_nearest hfin fun hfire => h ?_, hne (by decide)⟩
    simpa [Fires] using hfire
  | 4, _, _ =>
    obtain ⟨a, b, c, d, rfl⟩ : ∃ a b c d, p = ![a, b, c, d] :=
      ⟨p 0, p 1, p 2, p 3, (FinVec.etaExpand_eq p).symm⟩
    refine ⟨(tetrahedron a b c d).weights, by simp [barycentric, Vec4.weights],
      tetrahedron_weights hfin, fun h => tetrahedron_nearest hfin fun hfire => h ?_,
      fun _ => tetrahedron_encloses hfin⟩
    simpa [Fires] using hfire

end ConvexCollision.Projection
