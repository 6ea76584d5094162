import Mathlib.Tactic.Linarith
import ConvexCollision.Proofs.Exact.Vector

/-!
# ConvexCollision.Proofs.Polytope.Visibility -- planes through the rim of what a point sees

A point `w` in front of some faces of a convex surface sees those faces and not the others. The rim
runs between a face that is seen and one that is not. Two facts about it carry the growth of a
polytope, and both are stated here with the corner on the rim as the origin:

* the plane through an edge of the rim and the point lies between the planes of the two faces
  (`exists_between`), so what is behind both of them is behind it;
* two edges of the rim that start at one corner have the same direction (`exists_smul_of_two_edges`).
-/

namespace ConvexCollision.Vec3

variable {a b u v w z n m : Vec3 ℝ} {k l : ℝ}

/-- Vectors whose vector product vanishes have the same direction. -/
theorem exists_smul_of_cross_eq_zero (h : a.cross b = 0) (hb : b ≠ 0) : ∃ t : ℝ, a = t • b := by
  have hbb := dot_self_pos hb
  have hproject : (b.dot b) • a = (a.dot b) • b := by
    rw [← sub_eq_zero, ← cross_cross, cross_comm b a, h, neg_zero, zero_cross]
  refine ⟨(b.dot b)⁻¹ * a.dot b, ?_⟩
  rw [mul_smul, ← hproject, smul_smul, inv_mul_cancel₀ hbb.ne', one_smul]

/-- **The plane between two faces.** Two faces meet in the edge `a`: one with normal `n` and third
corner `u`, which `w` is in front of, and one with normal `m` and third corner `v`, which `w` is not
in front of. When the second face does not rise above the first one and some point `z` is behind both,
the plane through `a` and `w` lies between them. -/
theorem exists_between (hk : 0 < k) (hn : a.cross u = k • n) (hl : 0 < l) (hm : v.cross a = l • m)
    (hv : n.dot v ≤ 0) (hnw : 0 < n.dot w) (hmw : m.dot w ≤ 0) (hnz : n.dot z < 0)
    (hmz : m.dot z < 0) : ∃ s t : ℝ, 0 ≤ s ∧ 0 < t ∧ a.cross w = s • n + t • m := by
  -- the two normals span the plane across the edge, in which the new normal lies
  have hnormals : l • n.cross m = (-n.dot v) • a := by
    refine smul_right_injective _ hk.ne' ?_
    calc k • l • n.cross m = (a.cross u).cross (v.cross a) := by
          rw [hn, hm, smul_cross, cross_smul]
      _ = k • (-n.dot v) • a := by
          rw [cross_cross_cross, hn, smul_dot, smul_smul, mul_neg]
  have hspan : (-n.dot v) • a.cross w = (l * -m.dot w) • n + (l * n.dot w) • m := by
    rw [← smul_cross, ← hnormals, smul_cross, cross_cross]
    module
  -- the point behind both faces shows on which side
  have hside : 0 < -n.dot v := by
    refine lt_of_le_of_ne (by linarith) fun hzero => ?_
    have hdot := congrArg (fun q => q.dot z) hspan
    simp only [← hzero, zero_smul, zero_dot, add_dot, smul_dot] at hdot
    have hfirst : 0 ≤ l * -m.dot w * -n.dot z := by
      exact mul_nonneg (mul_nonneg hl.le (by linarith)) (by linarith)
    have hsecond : 0 < l * n.dot w * -m.dot z := mul_pos (mul_pos hl hnw) (by linarith)
    linarith
  refine ⟨(l * -m.dot w) / -n.dot v, (l * n.dot w) / -n.dot v,
    div_nonneg (mul_nonneg hl.le (by linarith)) hside.le, div_pos (mul_pos hl hnw) hside, ?_⟩
  refine smul_right_injective _ hside.ne' ?_
  simp only [smul_add, smul_smul, mul_div_cancel₀ _ hside.ne']
  exact hspan

/-- **Two edges of the rim that start at one corner.** The corners `a` and `b` are ends of edges of
faces with normals `n` and `m`, both of which `w` is in front of. When neither corner is in front of
the plane through the other one and `w`, nor of the other one's face, the edges have the same
direction. -/
theorem exists_smul_of_two_edges (hna : n.dot a = 0) (hnw : 0 < n.dot w) (hnb : n.dot b ≤ 0)
    (hmb : m.dot b = 0) (hmw : 0 < m.dot w) (hma : m.dot a ≤ 0) (hab : (a.cross w).dot b ≤ 0)
    (hba : (b.cross w).dot a ≤ 0) (haz : (a.cross w).dot z < 0) (hbz : (b.cross w).dot z < 0) :
    ∃ t : ℝ, 0 < t ∧ b = t • a := by
  -- both planes through `w` are one
  have hflat : (a.cross w).dot b = 0 := by
    rw [cross_dot_reverse] at hba
    linarith
  have haw : a.cross w ≠ 0 := by
    intro h
    rw [h, zero_dot] at haz
    exact lt_irrefl _ haz
  have hw : w ≠ 0 := by
    rintro rfl
    exact haw (cross_zero a)
  obtain ⟨t, ht⟩ : ∃ t : ℝ, b.cross w = t • a.cross w := by
    refine exists_smul_of_cross_eq_zero ?_ haw
    rw [cross_cross, dot_cross_self_right, dot_comm, hflat, zero_smul, zero_smul, sub_zero]
  have htpos : 0 < t := by
    rw [ht, smul_dot] at hbz
    by_contra hneg
    exact absurd hbz (not_lt.mpr (mul_nonneg_of_nonpos_of_nonpos (not_lt.mp hneg) haz.le))
  -- so `b` differs from a multiple of `a` by a multiple of `w`, which the two faces rule out
  obtain ⟨r, hr⟩ : ∃ r : ℝ, b - t • a = r • w := by
    refine exists_smul_of_cross_eq_zero ?_ hw
    rw [sub_cross, smul_cross, ht, sub_self]
  have hb : b = t • a + r • w := by rw [← hr, add_sub_cancel]
  have hle : r * n.dot w ≤ 0 := by
    have h := hnb
    rw [hb, dot_add, dot_smul, dot_smul, hna, mul_zero, zero_add] at h
    exact h
  have hge : 0 ≤ r * m.dot w := by
    have h := hmb
    rw [hb, dot_add, dot_smul, dot_smul] at h
    have := mul_nonpos_of_nonneg_of_nonpos htpos.le hma
    linarith
  have hrzero : r = 0 :=
    le_antisymm (nonpos_of_mul_nonpos_left hle hnw) (nonneg_of_mul_nonneg_left hge hmw)
  exact ⟨t, htpos, by rw [hb, hrzero, zero_smul, add_zero]⟩

end ConvexCollision.Vec3
