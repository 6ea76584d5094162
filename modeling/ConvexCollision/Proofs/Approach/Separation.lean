import ConvexCollision.Proofs.Approach.Turn
import ConvexCollision.Proofs.Exact.Shape
import ConvexCollision.Proofs.Simplex.Nearest
import Mathlib.Order.CompletePartialOrder

/-!
# ConvexCollision.Proofs.Approach.Separation -- what the nearest points of two sets say

`ClosestPoints.IsExact` is what an answer of the search for nearest points has to say in order to be
right. Of two convex sets that are apart, right nearest points say more than how far apart the sets are.
The slab between the two planes through them, square to the line that joins them, holds no inner point of
either set (`IsExact.le_dot_sub`). So a set that moves stays apart from one at rest for as long as it has
closed in along that line by less than the distance (`IsExact.disjoint_of_closing_lt`).
-/

namespace ConvexCollision

namespace ClosestPoints

/-- The answer is right. Sets that are said to be at no distance share a point. Otherwise the points
belong to the sets, they are as far apart as the answer says, and no other two are nearer. -/
structure IsExact (c : ClosestPoints ℝ) (A B : Set (Vec3 ℝ)) : Prop where
  /-- Sets at no distance share a point. -/
  overlap : c.distance ≤ 0 → (A ∩ B).Nonempty
  /-- The points belong to the sets. -/
  mem : 0 < c.distance → c.pointA ∈ A ∧ c.pointB ∈ B
  /-- They are as far apart as the answer says. -/
  length : 0 < c.distance → (c.pointB - c.pointA).length = c.distance
  /-- No two points of the sets are nearer. -/
  le : 0 < c.distance → ∀ x ∈ A, ∀ y ∈ B, c.distance ≤ (y - x).length

namespace IsExact

variable {c : ClosestPoints ℝ} {A B : Set (Vec3 ℝ)} (h : c.IsExact A B) (hpos : 0 < c.distance)

include h hpos

/-- The points differ, and the direction has unit length. -/
theorem normal_eq : c.normal = c.distance⁻¹ • (c.pointB - c.pointA) := by
  have hne : c.pointB - c.pointA ≠ 0 := by
    intro hzero
    have hlength := h.length hpos
    rw [hzero] at hlength
    have hnone := Vec3.length_mul_self 0
    rw [hlength, Vec3.dot_zero] at hnone
    exact hpos.ne' (mul_self_eq_zero.mp hnone)
  rw [normal, Vec3.normalizeOrZero_of_ne_zero hne, h.length hpos]

theorem normal_ne_zero : c.normal ≠ 0 := by
  rw [h.normal_eq hpos]
  intro hzero
  have hnone : c.pointB - c.pointA = 0 := (smul_eq_zero.mp hzero).resolve_left (inv_pos.mpr hpos).ne'
  have hlength := Vec3.length_mul_self (c.pointB - c.pointA)
  rw [h.length hpos, hnone, Vec3.dot_zero] at hlength
  exact hpos.ne' (mul_self_eq_zero.mp hlength)

theorem not_same_zero : ¬c.normal.same Vec3.zero = true := by
  intro hsame
  apply h.normal_ne_zero hpos
  unfold Vec3.same at hsame
  simp only [Bool.and_eq_true, Scalar.same_real] at hsame
  ext
  · exact hsame.1.1
  · exact hsame.1.2
  · exact hsame.2

theorem normal_dot_self : c.normal.dot c.normal = 1 := by
  rw [h.normal_eq hpos, Vec3.smul_dot, Vec3.dot_smul, ← Vec3.length_mul_self, h.length hpos]
  field_simp

/-- Sets of which no two points are nearer than a positive distance share none. -/
theorem disjoint : Disjoint A B := by
  rw [Set.disjoint_left]
  intro x hxA hxB
  have hnear := h.le hpos x hxA x hxB
  rw [sub_self, Vec3.length_zero] at hnear
  exact hpos.not_ge hnear

/-- **Nearest points separate.** Along the line between the nearest points of two convex sets, every
point of the second set lies beyond every point of the first one by their distance. -/
theorem le_dot_sub (hA : Convex ℝ A) (hB : Convex ℝ B) {x y : Vec3 ℝ} (hx : x ∈ A) (hy : y ∈ B) :
    c.distance ≤ c.normal.dot (y - x) := by
  obtain ⟨hpA, hpB⟩ := h.mem hpos
  generalize hv : c.pointB - c.pointA = v
  have hlength : v.lengthSq = c.distance * c.distance := by
    rw [← h.length hpos, hv, Vec3.length_mul_self, Vec3.lengthSq_eq]
  -- on the way from the nearest points to any other two, both stay in their sets
  have hreach : v.lengthSq ≤ v.dot (y - x) := by
    apply Vec3.lengthSq_le_dot_of_between
    intro t ht ht1
    have hx' := hA hpA hx (sub_nonneg.mpr ht1) ht (sub_add_cancel 1 t)
    have hy' := hB hpB hy (sub_nonneg.mpr ht1) ht (sub_add_cancel 1 t)
    have hle := h.le hpos _ hx' _ hy'
    have hdiff : (1 - t) • c.pointB + t • y - ((1 - t) • c.pointA + t • x) =
        (1 - t) • v + t • (y - x) := by
      rw [← hv]
      module
    rw [hdiff] at hle
    rw [hlength, Vec3.lengthSq_eq, ← Vec3.length_mul_self]
    exact mul_self_le_mul_self hpos.le hle
  rw [h.normal_eq hpos, hv, Vec3.smul_dot, inv_mul_eq_div, le_div_iff₀ hpos, ← hlength]
  exact hreach

/-- **Conservative advancement.** While a convex set has closed in by less than the distance, it has
not come to the other one. -/
theorem disjoint_of_closing_lt (hA : Convex ℝ A) (hB : Convex ℝ B) {offset : Vec3 ℝ}
    (hclosing : -c.normal.dot offset < c.distance) : Disjoint A ((· + offset) '' B) := by
  rw [Set.disjoint_left]
  rintro _ hx ⟨y, hy, rfl⟩
  have hbeyond := h.le_dot_sub hpos hA hB hx hy
  rw [sub_add_cancel_left, Vec3.dot_neg] at hbeyond
  exact absurd hclosing (not_lt.mpr hbeyond)

end IsExact

/-! ## § Nearest points that are found at once -/

section First

variable {a b : Support ℝ} {A B : Set (Vec3 ℝ)} {p q : Vec3 ℝ}

/-- The search ends at once when the points that it finds first are also the furthest ones along the line
between them. -/
theorem between_of_first (hfirst : a (Vec3.splat 1) = p ∧ b (-Vec3.splat 1) = q)
    (hagain : a (q - p) = p ∧ b (-(q - p)) = q) (hfar : Overlap.containsOriginSq ≤ (q - p).lengthSq) :
    between a b = ⟨p, q, (q - p).length⟩ := by
  have hfound : SupportPoint.along a b (Vec3.splat 1) = ⟨p - q, p⟩ := by
    unfold SupportPoint.along
    rw [hfirst.1, hfirst.2]
  have hsame : SupportPoint.along a b (q - p) = ⟨p - q, p⟩ := by
    unfold SupportPoint.along
    rw [hagain.1, hagain.2]
  have hstart : start a b = ⟨[⟨p - q, p⟩], [1], q - p, (q - p).lengthSq, false⟩ := by
    have hfar' : ¬(q - p).lengthSq < Overlap.containsOriginSq := not_lt.mpr hfar
    unfold start
    simp only [Scalar.one_real, hfound, neg_sub, hfar', decide_false]
  have hheld : Simplex.hasPoint [⟨p - q, p⟩] (p - q) = true := by
    have hsmall : (0 : ℝ) < Simplex.duplicateSq := by
      unfold Simplex.duplicateSq
      norm_num
    unfold Simplex.hasPoint
    simp only [sub_self, Vec3.lengthSq_eq, Vec3.dot_zero, hsmall, decide_true, List.any_cons, Bool.true_or]
  have hcombine (x : Vec3 ℝ) : combine [x] [1] = x := by simp [combine]
  unfold between
  rw [hstart, show Overlap.maxSteps = 31 + 1 from rfl, search]
  simp only [hsame, hheld, if_true, Bool.false_eq_true, if_false]
  unfold ofState
  simp only [List.map_cons, List.map_nil, hcombine, Bool.false_eq_true, if_false, SupportPoint.onB,
    sub_sub_cancel]
  rfl

/-- They are the nearest points, also when the support functions are right along this line only. -/
theorem isExact_of_first (hpA : p ∈ A) (hqB : q ∈ B) (hA : ∀ x ∈ A, (q - p).dot x ≤ (q - p).dot p)
    (hB : ∀ y ∈ B, (q - p).dot q ≤ (q - p).dot y) (hne : q ≠ p) :
    IsExact ⟨p, q, (q - p).length⟩ A B where
  overlap hnear := absurd hnear (Vec3.length_pos (sub_ne_zero.mpr hne)).not_ge
  mem _ := ⟨hpA, hqB⟩
  length _ := rfl
  le hpos x hx y hy := by
    -- along the line the two sets lie on either side of the gap
    have hgap : (q - p).length * (q - p).length ≤ (q - p).length * (y - x).length := by
      calc (q - p).length * (q - p).length = (q - p).dot (q - p) := Vec3.length_mul_self _
        _ ≤ (q - p).dot (y - x) := by
          rw [Vec3.dot_sub, Vec3.dot_sub]
          exact sub_le_sub (hB y hy) (hA x hx)
        _ ≤ (q - p).length * (y - x).length := Vec3.dot_le_length_mul_length _ _
    exact le_of_mul_le_mul_left hgap hpos

end First

end ClosestPoints

end ConvexCollision
