import ConvexCollision.Proofs.Simplex.Nearest
import ConvexCollision.Proofs.Except
import ConvexCollision.Simplex.Projection

/-!
# ConvexCollision.Proofs.Simplex.Projection -- the projection of segments and triangles

The weights that the projection gives two or three points are not negative and add up to one
(`segment_weights`, `triangle_weights`). They are those of the point of the hull nearest the origin,
unless a threshold fired on the way: that points coincide, or that they lie on one line
(`segment_nearest`, `triangle_nearest`).

The thresholds count where the projection looks at them. A triangle whose foot lies strictly inside
it, for instance, is never asked for the lengths of its edges.
-/

namespace ConvexCollision.Projection

/-! ## § Choosing -/

theorem degenerate_pos : (0 : ℝ) < degenerate := by
  simp only [degenerate]
  norm_num

/-- The dominant axis is one on which the square is largest, and the quantity is the one there. -/
theorem dominant_spec (f : Axis → ℝ) :
    (dominant f).2 = f (dominant f).1 ∧ ∀ i, f i * f i ≤ (dominant f).2 * (dominant f).2 := by
  obtain ⟨hmem, hlargest⟩ := foldl_least (fun best : Axis × ℝ => -(best.2 * best.2))
    (Axis.all.map fun i => (i, f i)) (.x, 0)
  have hfold : dominant f = (Axis.all.map fun i => (i, f i)).foldl
      (fun best x => if -(x.2 * x.2) < -(best.2 * best.2) then x else best) (.x, 0) := by
    simp only [dominant, Scalar.zero_real, List.foldl_map, neg_lt_neg_iff]
  rw [← hfold] at hmem hlargest
  have hle (i : Axis) : f i * f i ≤ (dominant f).2 * (dominant f).2 := by
    have hi : i ∈ Axis.all := by cases i <;> simp [Axis.all]
    exact neg_le_neg_iff.mp
      (hlargest (i, f i) (List.mem_cons_of_mem _ (List.mem_map_of_mem hi)))
  refine ⟨?_, hle⟩
  rcases List.mem_cons.mp hmem with hfirst | hlater
  · -- the start is kept only when every quantity is zero
    have hzero := hle .x
    rw [hfirst, mul_zero] at hzero
    rw [hfirst]
    exact (mul_self_eq_zero.mp (le_antisymm hzero (mul_self_nonneg _))).symm
  · obtain ⟨i, -, hi⟩ := List.mem_map.mp hlater
    rw [← hi]

/-- Of the candidates, one whose point is nearest the origin is chosen, as long as some point is
nearer than the largest finite distance. -/
theorem nearestOf_spec {ω : Type} (start : ω) (candidates : List (ω × Vec3 ℝ))
    (h : ∃ c ∈ candidates, c.2.dot c.2 < (Scalar.maxFinite : ℝ)) :
    ∃ c ∈ candidates, nearestOf start candidates = c.1 ∧
      ∀ c' ∈ candidates, c.2.dot c.2 ≤ c'.2.dot c'.2 := by
  obtain ⟨c₀, hc₀, hnear⟩ := h
  obtain ⟨hmem, hleast⟩ := foldl_least Prod.snd
    (candidates.map fun c => (c.1, c.2.lengthSq)) (start, (Scalar.maxFinite : ℝ))
  have hfold : nearestOf start candidates = ((candidates.map fun c => (c.1, c.2.lengthSq)).foldl
      (fun best x => if x.2 < best.2 then x else best) (start, Scalar.maxFinite)).1 := by
    simp only [nearestOf, List.foldl_map]
  have hle {c : ω × Vec3 ℝ} (hc : c ∈ candidates) := hleast (c.1, c.2.lengthSq)
    (List.mem_cons_of_mem _ (List.mem_map_of_mem hc))
  rw [hfold]
  rcases List.mem_cons.mp hmem with hfirst | hlater
  · have hfar := hle hc₀
    rw [hfirst] at hfar
    exact absurd hnear (not_lt.mpr hfar)
  · obtain ⟨c, hc, heq⟩ := List.mem_map.mp hlater
    refine ⟨c, hc, by rw [← heq], fun c' hc' => ?_⟩
    have hc'le := hle hc'
    rw [← heq] at hc'le
    exact hc'le

/-- Of weights of points of the hull, those of the nearest one are chosen. -/
theorem nearestOf_weights {ω : Type} {n m : ℕ} (weights : ω → Fin n → ℝ) (start : ω)
    (W : Fin (m + 1) → ω) (order : List (Fin (m + 1))) (horder : ∀ j, j ∈ order) {p : Fin n → Vec3 ℝ}
    (hp : ∀ i, (p i).lengthSq < Scalar.maxFinite) (hW : ∀ j, weights (W j) ∈ stdSimplex ℝ (Fin n)) :
    ∃ k, nearestOf start (order.map fun j => (W j, combine p (weights (W j)))) = W k ∧
      ∀ j, (combine p (weights (W k))).lengthSq ≤
        (combine p (weights (W j))).lengthSq := by
  obtain ⟨c, hc, hchosen, hleast⟩ := nearestOf_spec start
    (order.map fun j => (W j, combine p (weights (W j))))
    ⟨_, List.mem_map_of_mem (horder 0), combine_lengthSq_lt (hW 0) hp⟩
  obtain ⟨k, -, rfl⟩ := List.mem_map.mp hc
  exact ⟨k, hchosen, fun j => hleast _ (List.mem_map_of_mem (horder j))⟩

/-- Two numbers have the same sign when their quotient is positive. -/
theorem sameSign_iff {a b : ℝ} : sameSign a b = true ↔ 0 < b / a := by
  simp only [sameSign, Scalar.zero_real, Bool.or_eq_true, Bool.and_eq_true, decide_eq_true_eq,
    div_pos_iff, and_comm]

/-! ## § Segments -/

variable {s₁ s₂ s₃ s₄ : Vec3 ℝ}

/-- The threshold for points that coincide fires. -/
def SegmentFires (s₁ s₂ : Vec3 ℝ) : Prop := (s₂ - s₁).lengthSq < degenerate

/-- The share of a segment at which the foot of the origin lies on its line. -/
noncomputable def share (s₁ s₂ : Vec3 ℝ) : ℝ := -(s₂ - s₁).dot s₁ / (s₂ - s₁).dot (s₂ - s₁)

/-- On a line, a number is strictly between two others when its share is strictly between zero and
one. -/
theorem strictly_between_iff {a r t : ℝ} (hr : r ≠ 0) :
    (a < a + t * r ∧ a + t * r < a + r) ∨ (a + r < a + t * r ∧ a + t * r < a) ↔ 0 < t ∧ t < 1 := by
  simp only [lt_add_iff_pos_right, add_lt_add_iff_left, add_lt_iff_neg_left]
  rcases lt_or_gt_of_ne hr with hneg | hpos
  · constructor
    · rintro (⟨h₁, h₂⟩ | ⟨h₁, h₂⟩)
      · linarith
      · exact ⟨pos_of_mul_neg_left h₂ hneg.le, by nlinarith⟩
    · rintro ⟨h₀, h₁⟩
      exact Or.inr ⟨by nlinarith, mul_neg_of_pos_of_neg h₀ hneg⟩
  · constructor
    · rintro (⟨h₁, h₂⟩ | ⟨h₁, h₂⟩)
      · exact ⟨pos_of_mul_pos_left h₁ hpos.le, by nlinarith⟩
      · linarith
    · rintro ⟨h₀, h₁⟩
      exact Or.inl ⟨mul_pos h₀ hpos, by nlinarith⟩

/-- It is not after the first one when its share is not positive. -/
theorem not_after_iff {a r t : ℝ} (hr : r ≠ 0) :
    (a ≤ a + r ∧ a + t * r ≤ a) ∨ (a + r ≤ a ∧ a ≤ a + t * r) ↔ t ≤ 0 := by
  simp only [le_add_iff_nonneg_right, add_le_iff_nonpos_right]
  rcases lt_or_gt_of_ne hr with hneg | hpos
  · constructor
    · rintro (⟨h₁, h₂⟩ | ⟨h₁, h₂⟩)
      · linarith
      · exact nonpos_of_mul_nonneg_left h₂ hneg
    · exact fun ht => Or.inr ⟨hneg.le, mul_nonneg_of_nonpos_of_nonpos ht hneg.le⟩
  · constructor
    · rintro (⟨h₁, h₂⟩ | ⟨h₁, h₂⟩)
      · exact nonpos_of_mul_nonpos_left h₂ hpos
      · linarith
    · exact fun ht => Or.inl ⟨hpos.le, mul_nonpos_of_nonpos_of_nonneg ht hpos.le⟩

/-- Seen along the longest axis, a segment has a length. -/
theorem dominant_ne_zero {v : Vec3 ℝ} {f : Axis → ℝ} (hf : ∀ i, f i = v.coord i) (hv : 0 < v.dot v) :
    (dominant f).2 ≠ 0 := by
  intro hzero
  have hle := (dominant_spec f).2
  simp only [hzero, mul_zero, hf] at hle
  have hx := hle .x
  have hy := hle .y
  have hz := hle .z
  simp only [Vec3.coord] at hx hy hz
  rw [Vec3.dot_def] at hv
  linarith

/-- The weights on a segment are those of the foot, or of the end that the foot lies beyond. -/
theorem segment_eq (h : ¬SegmentFires s₁ s₂) : segment s₁ s₂ =
    if 0 < share s₁ s₂ ∧ share s₁ s₂ < 1 then ⟨1 - share s₁ s₂, share s₁ s₂⟩
    else if share s₁ s₂ ≤ 0 then ⟨1, 0⟩ else ⟨0, 1⟩ := by
  have hlen : 0 < (s₂ - s₁).dot (s₂ - s₁) := lt_of_lt_of_le degenerate_pos (not_lt.mp h)
  generalize ht : share s₁ s₂ = t
  let longest := dominant fun i => s₂.coord i - s₁.coord i
  have hspan : longest.2 = s₂.coord longest.1 - s₁.coord longest.1 := (dominant_spec _).1
  have hne : longest.2 ≠ 0 := by
    refine dominant_ne_zero (v := s₂ - s₁) (fun i => ?_) hlen
    cases i <;> rfl
  have hend : s₂.coord longest.1 = s₁.coord longest.1 + longest.2 := by linarith
  have hfoot : (s₁ + (s₂ - s₁) * (s₂ - s₁).dot (Vec3.zero - s₁) / (s₂ - s₁).lengthSq).coord longest.1 =
      s₁.coord longest.1 + t * longest.2 := by
    have hshare : (s₂ - s₁) * (s₂ - s₁).dot (Vec3.zero - s₁) / (s₂ - s₁).lengthSq = t • (s₂ - s₁) := by
      rw [Vec3.div_eq_smul, Vec3.mul_eq_smul, smul_smul, ← ht, share, Vec3.zero_eq, zero_sub,
        Vec3.dot_neg, Vec3.lengthSq_eq, inv_mul_eq_div]
    rw [hshare, hspan]
    cases longest.1 <;> simp [Vec3.coord]
  have hmodel : segment s₁ s₂ =
      if (s₂ - s₁).lengthSq < degenerate then ⟨1, 0⟩
      else
        let a := s₁.coord longest.1
        let b := s₂.coord longest.1
        let p := (s₁ + (s₂ - s₁) * (s₂ - s₁).dot (Vec3.zero - s₁) / (s₂ - s₁).lengthSq).coord longest.1
        if (a < p ∧ p < b) ∨ (b < p ∧ p < a) then ⟨(b - p) / longest.2, (p - a) / longest.2⟩
        else if (a ≤ b ∧ p ≤ a) ∨ (b ≤ a ∧ a ≤ p) then ⟨1, 0⟩
        else ⟨0, 1⟩ := by
    simp only [segment, Scalar.one_real, Scalar.zero_real, longest]
  rw [hmodel, if_neg (show ¬(s₂ - s₁).lengthSq < degenerate from h)]
  simp only [hfoot, hend, strictly_between_iff hne, not_after_iff hne]
  refine if_congr Iff.rfl ?_ rfl
  congr 1
  · field_simp
    ring
  · field_simp
    ring

/-- The weights on a segment are not negative and add up to one. -/
theorem segment_weights (s₁ s₂ : Vec3 ℝ) :
    ![(segment s₁ s₂).x, (segment s₁ s₂).y] ∈ stdSimplex ℝ (Fin 2) := by
  by_cases h : SegmentFires s₁ s₂
  · have hmodel : segment s₁ s₂ = ⟨1, 0⟩ := by
      unfold segment
      rw [if_pos (show (s₂ - s₁).lengthSq < degenerate from h), Scalar.one_real, Scalar.zero_real]
    simp [hmodel, mem_stdSimplex_two]
  · rw [segment_eq h, mem_stdSimplex_two]
    split
    · rename_i hbetween
      exact ⟨by linarith, hbetween.1.le, by ring⟩
    · split <;> simp

/-- The foot of the origin on the line through two points. -/
theorem share_foot (h : 0 < (s₂ - s₁).dot (s₂ - s₁)) :
    IsFoot ![s₁, s₂] ![1 - share s₁ s₂, share s₁ s₂] := by
  have hshare : share s₁ s₂ * (s₂ - s₁).dot (s₂ - s₁) = -(s₂ - s₁).dot s₁ :=
    div_mul_cancel₀ _ h.ne'
  generalize share s₁ s₂ = t at *
  refine ⟨by simp [Fin.sum_univ_two], ?_⟩
  simp only [Vec3.dot_sub, Vec3.sub_dot, Vec3.dot_comm s₂ s₁] at hshare
  simp only [Fin.forall_fin_two, combine_two, Matrix.cons_val_zero, Matrix.cons_val_one,
    Vec3.lengthSq_eq, Vec3.dot_add, Vec3.add_dot, Vec3.dot_smul, Vec3.smul_dot, Vec3.dot_comm s₂ s₁]
  constructor
  · linear_combination -t * hshare
  · linear_combination (1 - t) * hshare

/-- The weights on a segment are those of its nearest point, unless the ends coincide. -/
theorem segment_nearest (h : ¬SegmentFires s₁ s₂) :
    IsNearest ![s₁, s₂] ![(segment s₁ s₂).x, (segment s₁ s₂).y] := by
  have hlen : 0 < (s₂ - s₁).dot (s₂ - s₁) := lt_of_lt_of_le degenerate_pos (not_lt.mp h)
  have hshare : share s₁ s₂ * (s₂ - s₁).dot (s₂ - s₁) = -(s₂ - s₁).dot s₁ :=
    div_mul_cancel₀ _ hlen.ne'
  have hweights := segment_weights s₁ s₂
  have hfoot := share_foot hlen
  rw [segment_eq h] at hweights ⊢
  generalize share s₁ s₂ = t at *
  by_cases hin : 0 < t ∧ t < 1
  · rw [if_pos hin] at hweights ⊢
    exact hfoot.isNearest hweights.1
  · rw [if_neg hin] at hweights ⊢
    refine ⟨hweights, ?_⟩
    by_cases hbefore : t ≤ 0
    · have hover := mul_nonpos_of_nonpos_of_nonneg hbefore hlen.le
      simp only [if_pos hbefore, combine_two, one_smul, zero_smul, add_zero, Fin.forall_fin_two,
        Matrix.cons_val_zero, Matrix.cons_val_one, Vec3.lengthSq_eq, Vec3.sub_dot, Vec3.dot_sub,
        Vec3.dot_comm s₂ s₁] at hover hshare ⊢
      exact ⟨le_rfl, by linarith⟩
    · have hpast : 1 ≤ t := by
        by_contra hlt
        exact hin ⟨not_le.mp hbefore, not_le.mp hlt⟩
      have hover := mul_nonneg (sub_nonneg.mpr hpast) hlen.le
      simp only [if_neg hbefore, combine_two, one_smul, zero_smul, zero_add, Fin.forall_fin_two,
        Matrix.cons_val_zero, Matrix.cons_val_one, Vec3.lengthSq_eq, Vec3.sub_dot, Vec3.dot_sub,
        sub_mul, one_mul, Vec3.dot_comm s₂ s₁] at hover hshare ⊢
      exact ⟨by linarith, le_rfl⟩

/-! ## § Edges -/

/-- The threshold for points that coincide fires on some edge. -/
def EdgesFire (s₁ s₂ s₃ : Vec3 ℝ) : Prop :=
  SegmentFires s₂ s₃ ∨ SegmentFires s₃ s₁ ∨ SegmentFires s₁ s₂

/-- The weights of the nearest points of the edges, by the corner opposite to the edge. -/
noncomputable def edgeWeights (s₁ s₂ s₃ : Vec3 ℝ) : Fin 3 → Vec3 ℝ :=
  ![⟨0, (segment s₂ s₃).x, (segment s₂ s₃).y⟩, ⟨(segment s₃ s₁).y, 0, (segment s₃ s₁).x⟩,
    ⟨(segment s₁ s₂).x, (segment s₁ s₂).y, 0⟩]

theorem edgeWeights_zero (j : Fin 3) : Vec3.coords (edgeWeights s₁ s₂ s₃ j) j = 0 := by
  fin_cases j <;> rfl

theorem side_edgeWeights (j : Fin 3) : side (Vec3.coords (edgeWeights s₁ s₂ s₃ j)) j =
    ![(segment (side ![s₁, s₂, s₃] j 0) (side ![s₁, s₂, s₃] j 1)).x,
      (segment (side ![s₁, s₂, s₃] j 0) (side ![s₁, s₂, s₃] j 1)).y] := by
  ext i
  fin_cases j <;> fin_cases i <;> rfl

theorem edgeWeights_mem (j : Fin 3) :
    Vec3.coords (edgeWeights s₁ s₂ s₃ j) ∈ stdSimplex ℝ (Fin 3) := by
  refine mem_stdSimplex_of_side (j := j) ?_ (edgeWeights_zero j)
  rw [side_edgeWeights]
  exact segment_weights _ _

theorem edgeWeights_nearest (h : ¬EdgesFire s₁ s₂ s₃) (j : Fin 3) :
    IsNearest (side ![s₁, s₂, s₃] j) (side (Vec3.coords (edgeWeights s₁ s₂ s₃ j)) j) := by
  have hclear : ¬SegmentFires (side ![s₁, s₂, s₃] j 0) (side ![s₁, s₂, s₃] j 1) := by
    simp only [EdgesFire, not_or] at h
    fin_cases j
    · exact h.1
    · exact h.2.1
    · exact h.2.2
  rw [side_edgeWeights, ← FinVec.etaExpand_eq (side ![s₁, s₂, s₃] j)]
  exact segment_nearest hclear

/-- The weights on the edges are those of the nearest of their nearest points. -/
theorem edges_chosen (h : ∀ i, (![s₁, s₂, s₃] i).lengthSq < Scalar.maxFinite) :
    ∃ k, edges s₁ s₂ s₃ = edgeWeights s₁ s₂ s₃ k ∧
      ∀ j, (combine ![s₁, s₂, s₃] (Vec3.coords (edgeWeights s₁ s₂ s₃ k))).lengthSq ≤
        (combine ![s₁, s₂, s₃] (Vec3.coords (edgeWeights s₁ s₂ s₃ j))).lengthSq := by
  have hmodel : edges s₁ s₂ s₃ = nearestOf ⟨1, 0, 0⟩ ([0, 1, 2].map fun j =>
      (edgeWeights s₁ s₂ s₃ j, combine ![s₁, s₂, s₃] (Vec3.coords (edgeWeights s₁ s₂ s₃ j)))) := by
    simp [edges, edgeWeights, combine, Fin.sum_univ_three, add_comm]
  rw [hmodel]
  exact nearestOf_weights Vec3.coords _ (edgeWeights s₁ s₂ s₃) _ (by decide) h edgeWeights_mem

/-! ## § Triangles -/

/-- The vector square to a triangle. -/
noncomputable def normal (s₁ s₂ s₃ : Vec3 ℝ) : Vec3 ℝ := (s₂ - s₁).cross (s₃ - s₁)

/-- The foot of the origin on the plane of a triangle. -/
noncomputable def foot (s₁ s₂ s₃ : Vec3 ℝ) : Vec3 ℝ :=
  ((normal s₁ s₂ s₃).dot (normal s₁ s₂ s₃))⁻¹ • s₁.dot (normal s₁ s₂ s₃) • normal s₁ s₂ s₃

/-- The share of a triangle's area that a point makes with one of the edges. -/
noncomputable def areaShare (n q a b : Vec3 ℝ) : ℝ := ((a - q).cross (b - q)).dot n / n.dot n

/-- The weights of the foot of the origin on the plane of a triangle. -/
noncomputable def areaShares (s₁ s₂ s₃ : Vec3 ℝ) : Vec3 ℝ :=
  let n := normal s₁ s₂ s₃
  let q := foot s₁ s₂ s₃
  ⟨areaShare n q s₂ s₃, areaShare n q s₃ s₁, areaShare n q s₁ s₂⟩

/-- The threshold for points on a line fires, or else the one for points that coincide does on an edge
that is asked for its length. -/
def TriangleFires (s₁ s₂ s₃ : Vec3 ℝ) : Prop :=
  (normal s₁ s₂ s₃).lengthSq < degenerate ∨
    (¬(∀ i, 0 < Vec3.coords (areaShares s₁ s₂ s₃) i) ∧ EdgesFire s₁ s₂ s₃)

/-- Seen along an axis, twice the area of two vectors is a coordinate of their vector product. -/
theorem shadow_cross (v w : Vec3 ℝ) (i : Axis) :
    (shadow v i).cross (shadow w i) = (v.cross w).coord i := by
  cases i <;> simp [shadow, Vec2.cross, Vec3.coord, Axis.next, Vec3.cross_x, Vec3.cross_y,
    Vec3.cross_z, mul_comm]

theorem shadow_sub (v w : Vec3 ℝ) (i : Axis) : shadow v i - shadow w i = shadow (v - w) i := by
  cases i <;> rfl

section Plane

variable {n q a b c : Vec3 ℝ} (hn : 0 < n.dot n)

include hn

/-- The area that a point of a plane makes with an edge in it, by its share. -/
theorem areaShare_smul (ha : (a - q).dot n = 0) (hb : (b - q).dot n = 0) :
    (a - q).cross (b - q) = areaShare n q a b • n := by
  have hplane := Vec3.cross_of_plane _ _ ha hb
  rw [areaShare, div_eq_inv_mul, mul_smul, ← hplane, smul_smul, inv_mul_cancel₀ hn.ne', one_smul]

/-- The shares of a triangle's area add up to the whole. -/
theorem areaShare_add (h : (b - a).cross (c - a) = n) (ha : (a - q).dot n = 0) (hb : (b - q).dot n = 0)
    (hc : (c - q).dot n = 0) : areaShare n q b c + areaShare n q c a + areaShare n q a b = 1 := by
  have hmade := congrArg (·.dot n) (Vec3.cross_add_cross_add_cross a b c q)
  simp only [areaShare_smul hn ha hb, areaShare_smul hn hb hc, areaShare_smul hn hc ha, ← add_smul,
    Vec3.smul_dot, h] at hmade
  exact mul_right_cancel₀ hn.ne' (hmade.trans (one_mul _).symm)

/-- The shares of a triangle's area are the weights of the point that makes them. -/
theorem areaShare_combine (h : (b - a).cross (c - a) = n) (ha : (a - q).dot n = 0)
    (hb : (b - q).dot n = 0) (hc : (c - q).dot n = 0) :
    areaShare n q b c • a + areaShare n q c a • b + areaShare n q a b • c = q := by
  have hdepend := Vec3.four_vectors (a - q) (b - q) (c - q) n
  simp only [areaShare_smul hn ha hb, areaShare_smul hn hb hc, areaShare_smul hn hc ha, Vec3.smul_dot,
    Vec3.dot_comm n, hc, mul_zero, zero_smul, mul_comm _ (n.dot n), mul_smul, ← smul_add] at hdepend
  have hzero := (smul_eq_zero.mp hdepend).resolve_left hn.ne'
  calc areaShare n q b c • a + areaShare n q c a • b + areaShare n q a b • c
      = areaShare n q b c • (a - q) + areaShare n q c a • (b - q) + areaShare n q a b • (c - q) +
          (areaShare n q b c + areaShare n q c a + areaShare n q a b) • q := by module
    _ = q := by rw [hzero, areaShare_add hn h ha hb hc, one_smul, zero_add]

end Plane

/-- The corners of a triangle lie in the plane through the foot. -/
theorem sub_foot_dot (hn : 0 < (normal s₁ s₂ s₃).dot (normal s₁ s₂ s₃)) (i : Fin 3) :
    (![s₁, s₂, s₃] i - foot s₁ s₂ s₃).dot (normal s₁ s₂ s₃) = 0 := by
  have hfoot : (foot s₁ s₂ s₃).dot (normal s₁ s₂ s₃) = s₁.dot (normal s₁ s₂ s₃) := by
    simp only [foot, Vec3.smul_dot]
    field_simp
  have h₂ : (s₂ - s₁).dot (normal s₁ s₂ s₃) = 0 := Vec3.dot_cross_self_left _ _
  have h₃ : (s₃ - s₁).dot (normal s₁ s₂ s₃) = 0 := Vec3.dot_cross_self_right _ _
  rw [Vec3.sub_dot, sub_eq_zero] at h₂ h₃
  rw [Vec3.sub_dot, sub_eq_zero, hfoot]
  fin_cases i
  · rfl
  · exact h₂
  · exact h₃

/-- The shares of the area are the weights of the foot. -/
theorem areaShares_foot (hn : 0 < (normal s₁ s₂ s₃).dot (normal s₁ s₂ s₃)) :
    IsFoot ![s₁, s₂, s₃] (Vec3.coords (areaShares s₁ s₂ s₃)) := by
  have hcorner := sub_foot_dot hn
  have hpoint : combine ![s₁, s₂, s₃] (Vec3.coords (areaShares s₁ s₂ s₃)) = foot s₁ s₂ s₃ := by
    rw [combine, Fin.sum_univ_three]
    exact areaShare_combine hn rfl (hcorner 0) (hcorner 1) (hcorner 2)
  refine ⟨?_, fun i => ?_⟩
  · rw [Fin.sum_univ_three]
    exact areaShare_add hn rfl (hcorner 0) (hcorner 1) (hcorner 2)
  · have hsquare : (normal s₁ s₂ s₃).dot (![s₁, s₂, s₃] i - foot s₁ s₂ s₃) = 0 := by
      rw [Vec3.dot_comm, hcorner i]
    rw [hpoint, Vec3.lengthSq_eq, ← sub_eq_zero, ← Vec3.dot_sub, foot, Vec3.smul_dot, Vec3.smul_dot,
      ← foot, hsquare, mul_zero, mul_zero]

/-- The weights on a triangle are those of the foot when it lies strictly inside, and those on the
edges otherwise. -/
theorem triangle_eq (h : ¬(normal s₁ s₂ s₃).lengthSq < degenerate) :
    triangle s₁ s₂ s₃ =
      if ∀ i, 0 < Vec3.coords (areaShares s₁ s₂ s₃) i then areaShares s₁ s₂ s₃ else edges s₁ s₂ s₃ := by
  have hn : 0 < (normal s₁ s₂ s₃).dot (normal s₁ s₂ s₃) := lt_of_lt_of_le degenerate_pos (not_lt.mp h)
  let largest := dominant fun i =>
    (shadow s₂ i - shadow s₁ i).cross (shadow s₃ i - shadow s₁ i)
  have hcoord (i : Axis) : (shadow s₂ i - shadow s₁ i).cross (shadow s₃ i - shadow s₁ i) =
      (normal s₁ s₂ s₃).coord i := by
    rw [shadow_sub, shadow_sub, shadow_cross, normal]
  have hne : largest.2 ≠ 0 := dominant_ne_zero hcoord hn
  have harea : largest.2 = (normal s₁ s₂ s₃).coord largest.1 := (dominant_spec _).1.trans (hcoord _)
  have hfoot : normal s₁ s₂ s₃ * s₁.dot (normal s₁ s₂ s₃) / (normal s₁ s₂ s₃).lengthSq =
      foot s₁ s₂ s₃ := by
    rw [Vec3.div_eq_smul, Vec3.mul_eq_smul, foot, Vec3.lengthSq_eq]
  have hpart {a b : Vec3 ℝ} (ha : (a - foot s₁ s₂ s₃).dot (normal s₁ s₂ s₃) = 0)
      (hb : (b - foot s₁ s₂ s₃).dot (normal s₁ s₂ s₃) = 0) :
      (shadow a largest.1 - shadow (foot s₁ s₂ s₃) largest.1).cross
          (shadow b largest.1 - shadow (foot s₁ s₂ s₃) largest.1) / largest.2 =
        areaShare (normal s₁ s₂ s₃) (foot s₁ s₂ s₃) a b := by
    rw [div_eq_iff hne, shadow_sub, shadow_sub, shadow_cross, areaShare_smul hn ha hb, harea]
    cases largest.1 <;> simp [Vec3.coord]
  have hcorner := sub_foot_dot hn
  have hpart₁ := hpart (a := s₂) (b := s₃) (hcorner 1) (hcorner 2)
  have hpart₂ := hpart (a := s₃) (b := s₁) (hcorner 2) (hcorner 0)
  have hpart₃ := hpart (a := s₁) (b := s₂) (hcorner 0) (hcorner 1)
  have hmodel : triangle s₁ s₂ s₃ =
      let p := shadow (normal s₁ s₂ s₃ * s₁.dot (normal s₁ s₂ s₃) / (normal s₁ s₂ s₃).lengthSq)
        largest.1
      let a₁ := (shadow s₂ largest.1 - p).cross (shadow s₃ largest.1 - p)
      let a₂ := (shadow s₃ largest.1 - p).cross (shadow s₁ largest.1 - p)
      let a₃ := (shadow s₁ largest.1 - p).cross (shadow s₂ largest.1 - p)
      if (normal s₁ s₂ s₃).lengthSq < degenerate then edges s₁ s₂ s₃
      else if sameSign largest.2 a₁ && sameSign largest.2 a₂ && sameSign largest.2 a₃ then
        ⟨a₁ / largest.2, a₂ / largest.2, a₃ / largest.2⟩
      else edges s₁ s₂ s₃ := rfl
  rw [hmodel, if_neg h]
  simp only [hfoot, Bool.and_eq_true, sameSign_iff, hpart₁, hpart₂, hpart₃]
  refine if_congr ?_ rfl rfl
  simp [Fin.forall_fin_succ, areaShares, and_assoc]

/-- The weights on a triangle are not negative and add up to one. -/
theorem triangle_weights (h : ∀ i, (![s₁, s₂, s₃] i).lengthSq < Scalar.maxFinite) :
    Vec3.coords (triangle s₁ s₂ s₃) ∈ stdSimplex ℝ (Fin 3) := by
  have hedges : Vec3.coords (edges s₁ s₂ s₃) ∈ stdSimplex ℝ (Fin 3) := by
    obtain ⟨k, hk, -⟩ := edges_chosen h
    rw [hk]
    exact edgeWeights_mem k
  by_cases hline : (normal s₁ s₂ s₃).lengthSq < degenerate
  · have hmodel : triangle s₁ s₂ s₃ = edges s₁ s₂ s₃ := by
      unfold triangle
      exact if_pos hline
    rwa [hmodel]
  · have hn : 0 < (normal s₁ s₂ s₃).dot (normal s₁ s₂ s₃) :=
      lt_of_lt_of_le degenerate_pos (not_lt.mp hline)
    rw [triangle_eq hline]
    split
    · rename_i hinside
      exact ⟨fun i => (hinside i).le, (areaShares_foot hn).sum_eq⟩
    · exact hedges

/-- The weights on a triangle are those of its nearest point, unless a threshold fired. -/
theorem triangle_nearest (h : ∀ i, (![s₁, s₂, s₃] i).lengthSq < Scalar.maxFinite)
    (hclear : ¬TriangleFires s₁ s₂ s₃) :
    IsNearest ![s₁, s₂, s₃] (Vec3.coords (triangle s₁ s₂ s₃)) := by
  obtain ⟨hline, hedges⟩ := not_or.mp hclear
  have hn : 0 < (normal s₁ s₂ s₃).dot (normal s₁ s₂ s₃) :=
    lt_of_lt_of_le degenerate_pos (not_lt.mp hline)
  rw [triangle_eq hline]
  split
  · rename_i hinside
    exact (areaShares_foot hn).isNearest fun i => (hinside i).le
  · rename_i houtside
    have hclear' : ¬EdgesFire s₁ s₂ s₃ := fun hfire => hedges ⟨houtside, hfire⟩
    obtain ⟨i, hi⟩ := not_forall.mp houtside
    obtain ⟨k, hk, hleast⟩ := edges_chosen h
    rw [hk]
    exact (areaShares_foot hn).isNearest_of_sides (not_lt.mp hi) (edgeWeights_mem k)
      fun u hu hzero => le_of_sides edgeWeights_zero (edgeWeights_nearest hclear') hleast hu hzero

end ConvexCollision.Projection
