import ConvexCollision.Proofs.Polytope.Growth
import ConvexCollision.Proofs.Polytope.Hull

/-!
# ConvexCollision.Proofs.Polytope.Tetrahedron -- the polytope to start from

The growth starts from the four faces of a tetrahedron, wound away from its centroid. Whichever way
round its corners are given, either all four faces are made as they are listed or all four are turned
around, so the start is a closed convex surface (`hull_of_ofSimplex`).
-/

namespace ConvexCollision.Polytope

variable {points : Array (SupportPoint ℝ)} {z : Vec3 ℝ} {i j k l : Nat} {f : PolytopeFace ℝ}

/-- The corners of a face as they were listed, or turned around. The normal of the listed corners is a
multiple of the face's, and a negative one when it was turned around. -/
theorem exists_winding (hfits : f.Fits points) (hi : f.i = i) {D : ℝ} (hne : D ≠ 0)
    (hturn : if 0 < D then f.j = k ∧ f.k = j else f.j = j ∧ f.k = k) :
    ∃ r : ℝ, r * D < 0 ∧
      (place points j - place points i).cross (place points k - place points i) = r • f.normal ∧
      f.edges = if 0 < D then [(i, k), (k, j), (j, i)] else [(i, j), (j, k), (k, i)] := by
  obtain ⟨s, hs, hwinds⟩ := hfits.winds
  by_cases hpos : 0 < D
  · rw [if_pos hpos] at hturn ⊢
    obtain ⟨hj, hk⟩ := hturn
    rw [hi, hj, hk, Vec3.cross_comm] at hwinds
    refine ⟨-s, mul_neg_of_neg_of_pos (neg_neg_of_pos hs) hpos, ?_, ?_⟩
    · rw [neg_smul, ← hwinds, neg_neg]
    · rw [PolytopeFace.edges, hi, hj, hk]
  · rw [if_neg hpos] at hturn ⊢
    obtain ⟨hj, hk⟩ := hturn
    rw [hi, hj, hk] at hwinds
    refine ⟨s, mul_neg_of_pos_of_neg hs (lt_of_le_of_ne (not_lt.mp hpos) hne), hwinds, ?_⟩
    rw [PolytopeFace.edges, hi, hj, hk]

/-- What is a positive multiple of `D` once it is scaled against `D` is negative. -/
theorem neg_of_scaled {r D c x : ℝ} (hr : r * D < 0) (hc : 0 < c) (hx : r * x = c * D) : x < 0 := by
  have hsq : r * r * x < 0 := by
    calc r * r * x = c * (r * D) := by rw [mul_assoc, hx]; ring
      _ < 0 := mul_neg_of_pos_of_neg hc hr
  exact neg_of_mul_neg_right hsq (mul_self_nonneg r)

/-- A face of a tetrahedron, made from three corners `i`, `j`, `k` and the centroid `z`: the centroid
and the fourth corner `l` are behind it, and the sign of the volume decides whether it was turned
around. -/
theorem tetrahedron_face (h : face? points i j k z = some f) (hi : i < points.size)
    (hj : j < points.size) (hk : k < points.size)
    (hz : (4 : ℝ) • z = place points i + place points j + place points k + place points l) {D : ℝ}
    (hD : ((place points j - place points i).cross (place points k - place points i)).dot
      (place points l - place points i) = D) (hne : D ≠ 0) :
    f.Fits points ∧ f.height z < 0 ∧
      (∀ q, q = i ∨ q = j ∨ q = k ∨ q = l → f.height (place points q) ≤ 0) ∧
      f.edges = if 0 < D then [(i, k), (k, j), (j, i)] else [(i, j), (j, k), (k, i)] := by
  obtain ⟨hfits, hfi, hturn⟩ := face?_eq_some h hi hj hk
  have hcentroid : ((place points j - place points i).cross (place points k - place points i)).dot
      (z - place points i) = D / 4 := by
    have h4 := congrArg
      ((place points j - place points i).cross (place points k - place points i)).dot hz
    have hnj := Vec3.cross_dot_self_left (place points j - place points i)
      (place points k - place points i)
    have hnk := Vec3.cross_dot_self_right (place points j - place points i)
      (place points k - place points i)
    simp only [Vec3.dot_smul, Vec3.dot_add, Vec3.dot_sub] at h4 hnj hnk hD ⊢
    linarith
  have hflip : ((place points j - place points i).cross (place points k - place points i)).dot
      (place points i - z) < 0 ↔ 0 < D := by
    rw [← neg_sub z, Vec3.dot_neg, hcentroid]
    constructor <;> intro <;> linarith
  rw [if_congr hflip rfl rfl] at hturn
  obtain ⟨r, hr, hnr, hedges⟩ := exists_winding hfits hfi hne hturn
  have hcorner : f.height (place points i) = 0 := by
    rw [PolytopeFace.height, hfits.distance_eq, hfi, sub_self]
  have hheight (q : Vec3 ℝ) : r * f.height q =
      ((place points j - place points i).cross (place points k - place points i)).dot
        (q - place points i) := by
    rw [PolytopeFace.height_eq hcorner, hnr, Vec3.smul_dot]
  have hrne : r ≠ 0 := by
    rintro rfl
    rw [zero_mul] at hr
    exact lt_irrefl _ hr
  refine ⟨hfits, neg_of_scaled (c := 1 / 4) hr (by norm_num) ?_, ?_, hedges⟩
  · rw [hheight, hcentroid]
    ring
  · rintro q (rfl | rfl | rfl | rfl)
    · exact hcorner.le
    · refine le_of_eq ((mul_eq_zero.mp ?_).resolve_left hrne)
      rw [hheight, Vec3.cross_dot_self_left]
    · refine le_of_eq ((mul_eq_zero.mp ?_).resolve_left hrne)
      rw [hheight, Vec3.cross_dot_self_right]
    · exact (neg_of_scaled hr one_pos (by rw [hheight, hD, one_mul])).le

/-- In a tetrahedron, no corner lies on the line through two others. -/
theorem not_on_line {p : Fin 4 → Vec3 ℝ} (h : AffineIndependent ℝ p) {x b q : Fin 4} (hqb : q ≠ b)
    (hxb : x ≠ b) {t : ℝ} (ht : 0 < t) : p q - p x ≠ t • (p b - p x) := by
  intro hline
  -- a dependency in which the corner `b` has the weight `-t`
  have hzero := affineIndependent_iff.mp h Finset.univ
    (fun i => (if i = q then 1 else 0) - (if i = b then t else 0) + (if i = x then t - 1 else 0))
    (by simp [Finset.sum_add_distrib]) (by
      simp only [add_smul, sub_smul, ite_smul, zero_smul, one_smul, Finset.sum_add_distrib,
        Finset.sum_sub_distrib, Finset.sum_ite_eq', Finset.mem_univ, if_true]
      rw [← sub_eq_zero] at hline
      rw [← hline]
      module) b (Finset.mem_univ b)
  simp only [if_neg hqb.symm, if_neg hxb.symm, if_true] at hzero
  linarith

theorem place_toArray {s : Simplex ℝ} {q : Nat} (hq : q < s.length) :
    place s.toArray q = (s.get ⟨q, hq⟩).diff := by
  simp [place, point, Array.getD_eq_getD_getElem?, hq]

/-- What the start consists of: the points of the simplex, their centroid and four faces. -/
theorem ofSimplex_eq_ok {s : Simplex ℝ} {poly : Polytope ℝ} (hlen : s.length = 4)
    (h : ofSimplex s = .ok poly) : poly.points = s.toArray ∧
      (4 : ℝ) • poly.interior = place poly.points 0 + place poly.points 1 + place poly.points 2 +
        place poly.points 3 ∧
      ∃ f₀ f₁ f₂ f₃, poly.faces = [f₀, f₁, f₂, f₃] ∧
        face? poly.points 0 1 2 poly.interior = some f₀ ∧
        face? poly.points 0 2 3 poly.interior = some f₁ ∧
        face? poly.points 0 3 1 poly.interior = some f₂ ∧
        face? poly.points 1 3 2 poly.interior = some f₃ := by
  obtain ⟨-, hpoints, hinterior, hfaces⟩ := parts_of_ofSimplex h
  refine ⟨hpoints, ?_, ?_⟩
  · match s, hlen with
    | [p₀, p₁, p₂, p₃], _ =>
      rw [hpoints, hinterior]
      change (4 : ℝ) • ((((Vec3.zero + p₀.diff) + p₁.diff + p₂.diff) + p₃.diff) / (((4 : ℕ) : ℤ) : ℝ)) =
        p₀.diff + p₁.diff + p₂.diff + p₃.diff
      rw [Vec3.div_eq_smul, smul_smul, Vec3.zero_eq, zero_add]
      norm_num
  · match poly.faces, forall₂_of_mapM_eq_some hfaces with
    | _, .cons h₀ (.cons h₁ (.cons h₂ (.cons h₃ .nil))) =>
      exact ⟨_, _, _, _, rfl, h₀, h₁, h₂, h₃⟩

/-- **The polytope to start from is closed and convex.** -/
theorem hull_of_ofSimplex {s : Simplex ℝ} {poly : Polytope ℝ} (hlen : s.length = 4)
    (hind : AffineIndependent ℝ fun i : Fin s.length => (s.get i).diff)
    (h : ofSimplex s = .ok poly) : Hull poly := by
  obtain ⟨hpoints, hz, f₀, f₁, f₂, f₃, hfaces, h₀, h₁, h₂, h₃⟩ := ofSimplex_eq_ok hlen h
  have hsize : poly.points.size = 4 := by rw [hpoints, List.size_toArray, hlen]
  have hcorners : AffineIndependent ℝ fun i : Fin 4 => place poly.points i := by
    rw [← affineIndependent_equiv (finCongr hlen)]
    convert hind using 2 with i
    simp only [Function.comp_apply, finCongr_apply, Fin.val_cast, hpoints, place_toArray i.isLt]
  have hvolume := Vec3.affineIndependent_iff_volume_ne_zero.mp hcorners
  simp only [Fin.isValue, Fin.val_zero, Fin.val_one, Fin.val_two,
    show ((3 : Fin 4) : ℕ) = 3 from rfl] at hvolume
  -- the faces with their opposite corners
  obtain ⟨fits₀, behind₀, points₀, edges₀⟩ := tetrahedron_face (l := 3) h₀ (by omega) (by omega)
    (by omega) hz rfl hvolume
  obtain ⟨fits₁, behind₁, points₁, edges₁⟩ := tetrahedron_face (l := 1) h₁ (by omega) (by omega)
    (by omega) (by rw [hz]; abel) (Vec3.cross_dot_rotate _ _ _).symm hvolume
  obtain ⟨fits₂, behind₂, points₂, edges₂⟩ := tetrahedron_face (l := 2) h₂ (by omega) (by omega)
    (by omega) (by rw [hz]; abel) (Vec3.cross_dot_rotate _ _ _) hvolume
  obtain ⟨fits₃, behind₃, points₃, edges₃⟩ := tetrahedron_face (l := 0) h₃ (by omega) (by omega)
    (by omega) (by rw [hz]; abel) (Vec3.cross_dot_opposite _ _ _ _) hvolume
  have hclosed : Closed poly.edges := by
    rw [edges, hfaces]
    simp only [List.flatMap_cons, List.flatMap_nil, edges₀, edges₁, edges₂, edges₃]
    split
    · exact ⟨by decide, by decide, by decide⟩
    · exact ⟨by decide, by decide, by decide⟩
  have hlt : ∀ e ∈ poly.edges, e.1 < 4 ∧ e.2 < 4 := by
    rw [edges, hfaces]
    simp only [List.flatMap_cons, List.flatMap_nil, edges₀, edges₁, edges₂, edges₃]
    split <;> decide
  constructor
  case closed => exact hclosed
  case faces_ne =>
    rw [hfaces]
    exact List.cons_ne_nil _ _
  case fits => simp [hfaces, fits₀, fits₁, fits₂, fits₃]
  case interior_behind => simp [hfaces, behind₀, behind₁, behind₂, behind₃]
  case points_behind =>
    rw [hfaces, hsize]
    intro f hf q hq
    simp only [List.mem_cons, List.not_mem_nil, or_false] at hf
    rcases hf with rfl | rfl | rfl | rfl
    · exact points₀ q (by omega)
    · exact points₁ q (by omega)
    · exact points₂ q (by omega)
    · exact points₃ q (by omega)
  case spread =>
    rw [hsize]
    intro e he q hq hqe t ht _
    obtain ⟨h₁, h₂⟩ := hlt e he
    exact not_on_line (x := ⟨e.1, h₁⟩) (b := ⟨e.2, h₂⟩) (q := ⟨q, hq⟩) hcorners
      (fun heq => hqe (congrArg Fin.val heq))
      (fun heq => hclosed.ends_ne e he (congrArg Fin.val heq)) ht

end ConvexCollision.Polytope
