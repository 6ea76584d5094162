import ConvexCollision.Proofs.Simplex.Barycentric

/-!
# ConvexCollision.Proofs.Simplex.Balanced -- the plane through the points that carry weight

Whatever weights the projection gives, the points that carry weight lie in the plane through the point with
these weights, square to the line from the origin (`IsProjection.balanced`). No threshold matters here: where
one fires, a lower-dimensional case takes over, and the weights are those of the foot of the origin on some
of the points all the same. Only which points these are, and so whether the foot is the nearest one of the
whole hull, depends on the thresholds.
-/

namespace ConvexCollision

variable {n : ℕ}

/-- Every point that carries weight lies in the plane through the point with the weights, square to the line
from the origin. -/
def IsBalanced (p : Fin n → Vec3 ℝ) (w : Fin n → ℝ) : Prop :=
  ∀ i, w i ≠ 0 → (combine p w).dot (p i) = (combine p w).lengthSq

theorem IsFoot.isBalanced {p : Fin n → Vec3 ℝ} {w : Fin n → ℝ} (h : IsFoot p w) : IsBalanced p w :=
  fun i _ => h.dot_eq i

/-- A single point is balanced by itself. -/
theorem isBalanced_single (p : Fin n → Vec3 ℝ) (i : Fin n) : IsBalanced p (Pi.single i 1) := by
  intro j hj
  have heq : j = i := by
    by_contra hne
    exact hj (Pi.single_eq_of_ne hne 1)
  rw [combine_single, heq, Vec3.lengthSq_eq]

/-- Points that are balanced on a side are balanced with the point that the side leaves out. -/
theorem isBalanced_of_side {P : Fin (n + 1) → Vec3 ℝ} {W : Fin (n + 1) → ℝ} {j : Fin (n + 1)}
    (hj : W j = 0) (h : IsBalanced (side P j) (side W j)) : IsBalanced P W := by
  intro i hi
  obtain hzero | ⟨k, hk⟩ := Fin.eq_zero_or_eq_succ (i - j)
  · exact absurd (sub_eq_zero.mp hzero ▸ hj) hi
  · obtain rfl : i = j + k.succ := by rw [← hk, add_sub_cancel]
    rw [combine_side hj]
    exact h k hi

namespace Projection

variable {s₁ s₂ s₃ s₄ : Vec3 ℝ}

theorem segment_balanced (s₁ s₂ : Vec3 ℝ) :
    IsBalanced ![s₁, s₂] ![(segment s₁ s₂).x, (segment s₁ s₂).y] := by
  have hfirst : ![(1 : ℝ), 0] = Pi.single 0 1 := by
    ext i
    fin_cases i <;> rfl
  have hsecond : ![(0 : ℝ), 1] = Pi.single 1 1 := by
    ext i
    fin_cases i <;> rfl
  by_cases h : SegmentFires s₁ s₂
  · have hmodel : segment s₁ s₂ = ⟨1, 0⟩ := by
      unfold segment
      rw [if_pos (show (s₂ - s₁).lengthSq < degenerate from h), Scalar.one_real, Scalar.zero_real]
    rw [hmodel, hfirst]
    exact isBalanced_single _ 0
  · have hlength : 0 < (s₂ - s₁).dot (s₂ - s₁) := lt_of_lt_of_le degenerate_pos (not_lt.mp h)
    rw [segment_eq h]
    split
    · exact (share_foot hlength).isBalanced
    · split
      · exact hfirst ▸ isBalanced_single _ 0
      · exact hsecond ▸ isBalanced_single _ 1

theorem edgeWeights_balanced (j : Fin 3) :
    IsBalanced ![s₁, s₂, s₃] (Vec3.coords (edgeWeights s₁ s₂ s₃ j)) := by
  refine isBalanced_of_side (edgeWeights_zero j) ?_
  rw [side_edgeWeights, ← FinVec.etaExpand_eq (side ![s₁, s₂, s₃] j)]
  exact segment_balanced _ _

theorem triangle_balanced (h : ∀ i, (![s₁, s₂, s₃] i).lengthSq < Scalar.maxFinite) :
    IsBalanced ![s₁, s₂, s₃] (Vec3.coords (triangle s₁ s₂ s₃)) := by
  have hedges : IsBalanced ![s₁, s₂, s₃] (Vec3.coords (edges s₁ s₂ s₃)) := by
    obtain ⟨k, hk, -⟩ := edges_chosen h
    exact hk ▸ edgeWeights_balanced k
  by_cases hline : (normal s₁ s₂ s₃).lengthSq < degenerate
  · have hmodel : triangle s₁ s₂ s₃ = edges s₁ s₂ s₃ := if_pos hline
    rwa [hmodel]
  · have hn : 0 < (normal s₁ s₂ s₃).dot (normal s₁ s₂ s₃) :=
      lt_of_lt_of_le degenerate_pos (not_lt.mp hline)
    rw [triangle_eq hline]
    split
    · exact (areaShares_foot hn).isBalanced
    · exact hedges

theorem faceWeights_balanced (h : ∀ i, (![s₁, s₂, s₃, s₄] i).lengthSq < Scalar.maxFinite) (j : Fin 4) :
    IsBalanced ![s₁, s₂, s₃, s₄] (faceWeights s₁ s₂ s₃ s₄ j).weights := by
  refine isBalanced_of_side (faceWeights_zero j) ?_
  have hside (i : Fin 3) : (side ![s₁, s₂, s₃, s₄] j i).lengthSq < Scalar.maxFinite := h _
  rw [side_faceWeights]
  rw [← FinVec.etaExpand_eq (side ![s₁, s₂, s₃, s₄] j)] at hside ⊢
  exact triangle_balanced hside

theorem tetrahedron_balanced (h : ∀ i, (![s₁, s₂, s₃, s₄] i).lengthSq < Scalar.maxFinite) :
    IsBalanced ![s₁, s₂, s₃, s₄] (tetrahedron s₁ s₂ s₃ s₄).weights := by
  by_cases hin : degenerate < |det s₁ s₂ s₃ s₄| ∧ ∀ i, 0 < volumeShares s₁ s₂ s₃ s₄ i
  · rw [tetrahedron_eq, if_pos hin]
    exact (volumeShares_foot (abs_pos.mp (degenerate_pos.trans hin.1))).isBalanced
  · obtain ⟨k, hk, -⟩ := faces_chosen h hin
    exact hk ▸ faceWeights_balanced h k

/-- **The points that carry weight lie in one plane.** For up to four points the projection gives the foot
of the origin on the points that it gives a weight to. -/
theorem IsProjection.balanced {n : ℕ} {p : Fin n → Vec3 ℝ} {w : Fin n → ℝ} (h : IsProjection p w)
    (hle : n ≤ 4) (hfin : ∀ i, (p i).lengthSq < Scalar.maxFinite) : IsBalanced p w := by
  have heq := h.eq
  have hweights {u : Fin n → ℝ} (hu : barycentric (List.ofFn p) = List.ofFn u) : w = u :=
    List.ofFn_injective (heq.symm.trans hu)
  match n, hle with
  | 0, _ => exact fun i => i.elim0
  | 1, _ =>
    obtain ⟨a, rfl⟩ : ∃ a, p = ![a] := ⟨p 0, (FinVec.etaExpand_eq p).symm⟩
    obtain rfl : w = Pi.single 0 1 := hweights (by simp [barycentric])
    exact isBalanced_single _ 0
  | 2, _ =>
    obtain ⟨a, b, rfl⟩ : ∃ a b, p = ![a, b] := ⟨p 0, p 1, (FinVec.etaExpand_eq p).symm⟩
    obtain rfl : w = ![(segment a b).x, (segment a b).y] := hweights (by simp [barycentric])
    exact segment_balanced a b
  | 3, _ =>
    obtain ⟨a, b, c, rfl⟩ : ∃ a b c, p = ![a, b, c] :=
      ⟨p 0, p 1, p 2, (FinVec.etaExpand_eq p).symm⟩
    obtain rfl : w = Vec3.coords (triangle a b c) := hweights (by simp [barycentric])
    exact triangle_balanced hfin
  | 4, _ =>
    obtain ⟨a, b, c, d, rfl⟩ : ∃ a b c d, p = ![a, b, c, d] :=
      ⟨p 0, p 1, p 2, p 3, (FinVec.etaExpand_eq p).symm⟩
    obtain rfl : w = (tetrahedron a b c d).weights := hweights (by simp [barycentric, Vec4.weights])
    exact tetrahedron_balanced hfin

end Projection

end ConvexCollision
