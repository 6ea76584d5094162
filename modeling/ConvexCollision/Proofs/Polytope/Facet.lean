import ConvexCollision.Proofs.Exact.Triangle
import ConvexCollision.Proofs.Polytope.Hull

/-!
# ConvexCollision.Proofs.Polytope.Facet -- the faces in one plane cover their side of the hull

A side of a convex polytope may be made up of several faces in one plane, of which each is a triangle. The
main statement (`Hull.exists_face_of_behind`) is that a point of such a plane that is behind all faces of the
polytope lies in one of the faces of the plane.

The proof counts how often a ray from the point leaves the faces of the plane. A ray crosses an edge in one
direction and the reverse of the edge in the other one, so over all faces of the plane the crossings add up
to those of the border. A face beyond the border lies in another plane, and since the point is behind it the
border runs around the point (`Hull.swept_nonneg`): no crossing of the border leads in, and there is a ray
with one that leads out. So the ray leaves some face more often than it enters it, and then the point lies in
that face (`mem_of_crossing_pos`).
-/

namespace ConvexCollision

/-! ## § Three vectors of a plane -/

namespace Vec3

variable {n a b c u : Vec3 ℝ}

/-- Three vectors of a plane depend on each other. -/
theorem three_of_plane (hn : n.dot n = 1) (ha : n.dot a = 0) (hb : n.dot b = 0) (hc : n.dot c = 0) :
    ((b.cross c).dot n) • a + ((c.cross a).dot n) • b + ((a.cross b).dot n) • c = 0 := by
  have hcross := cross_of_plane a b ((dot_comm _ _).trans ha) ((dot_comm _ _).trans hb)
  rw [hn, one_smul] at hcross
  have hflat : (a.cross b).dot c = 0 := by
    rw [hcross, smul_dot, hc, mul_zero]
  rw [four_vectors, hflat, zero_smul]

end Vec3

namespace PolytopeFace

/-- The triangle of the face's corners. -/
noncomputable def triangle (f : PolytopeFace ℝ) (points : Array (SupportPoint ℝ)) : Triangle ℝ :=
  ⟨Polytope.place points f.i, Polytope.place points f.j, Polytope.place points f.k⟩

/-- The corners of a face lie in its plane. -/
theorem Fits.height_corners {points : Array (SupportPoint ℝ)} {f : PolytopeFace ℝ} (h : f.Fits points) :
    f.height (Polytope.place points f.i) = 0 ∧ f.height (Polytope.place points f.j) = 0 ∧
      f.height (Polytope.place points f.k) = 0 := by
  have hfirst : (f.i, f.j) ∈ f.edges := List.mem_cons_self
  have hlast : (f.k, f.i) ∈ f.edges := by simp [edges]
  obtain ⟨-, -, -, hi, hj, -⟩ := h.edge hfirst
  obtain ⟨-, -, -, hk, -, -⟩ := h.edge hlast
  exact ⟨hi, hj, hk⟩

end PolytopeFace

namespace Polytope

/-! ## § Crossings -/

/-- How a ray crosses an edge, from the sides of its line on which the edge starts and ends and from the
area that the edge sweeps around the start of the ray: outward, inward or not at all. -/
noncomputable def crossed (startSide endSide area : ℝ) : ℝ :=
  if 0 ≤ startSide ∧ endSide < 0 ∧ 0 < area then 1
  else if 0 ≤ endSide ∧ startSide < 0 ∧ area < 0 then -1 else 0

/-- The reverse of an edge is crossed the other way. -/
theorem crossed_reverse (s t area : ℝ) : crossed t s (-area) = -crossed s t area := by
  unfold crossed
  simp only [neg_pos, neg_lt_zero]
  by_cases hout : 0 ≤ s ∧ t < 0 ∧ 0 < area
  · rw [if_pos hout, if_neg (fun h => hout.2.1.not_ge h.1), if_pos hout]
  · by_cases hin : 0 ≤ t ∧ s < 0 ∧ area < 0
    · rw [if_pos hin, if_neg hout, if_pos hin, neg_neg]
    · rw [if_neg hin, if_neg hout, if_neg hout, if_neg hin, neg_zero]

variable {s t u A B C : ℝ}

/-- An edge is crossed outward from one side of the line to the other, around the start of the ray. -/
theorem crossed_pos_iff : 0 < crossed s t A ↔ 0 ≤ s ∧ t < 0 ∧ 0 < A := by
  unfold crossed
  split
  · next hout => exact iff_of_true one_pos hout
  · next hout =>
    refine iff_of_false ?_ hout
    split
    · exact neg_one_lt_zero.not_gt
    · exact lt_irrefl 0

/-- An edge that runs around the start of the ray is not crossed inward. -/
theorem crossed_nonneg (hA : 0 ≤ A) : 0 ≤ crossed s t A := by
  unfold crossed
  rw [if_neg (fun h : 0 ≤ t ∧ s < 0 ∧ A < 0 => h.2.2.not_ge hA)]
  split
  · exact zero_le_one
  · exact le_refl _

/-- When a ray leaves a triangle through its first edge and does not enter it through another one, the start
of the ray is on the inner side of the other edges too. -/
theorem inside_of_first (hplane : s * B + t * C + u * A = 0)
    (hsum : 0 < crossed s t A + crossed t u B + crossed u s C) (hs : 0 ≤ s) (ht : t < 0) (hA : 0 < A) :
    0 ≤ B ∧ 0 ≤ C := by
  have hfirst : crossed s t A = 1 := if_pos ⟨hs, ht, hA⟩
  -- the third corner is on one side of the line, and only one of the other edges crosses it
  by_cases hu : 0 ≤ u
  · have hB : 0 ≤ B := by
      by_contra hneg
      have hin : crossed t u B = -1 := by
        unfold crossed
        rw [if_neg (fun h => ht.not_ge h.1), if_pos ⟨hu, ht, not_le.mp hneg⟩]
      have hnone : crossed u s C = 0 := by
        unfold crossed
        rw [if_neg (fun h => h.2.1.not_ge hs), if_neg (fun h => h.2.1.not_ge hu)]
      rw [hfirst, hin, hnone] at hsum
      norm_num at hsum
    refine ⟨hB, nonneg_of_mul_nonpos_right ?_ ht⟩
    linarith [mul_nonneg hs hB, mul_nonneg hu hA.le]
  · have hC : 0 ≤ C := by
      by_contra hneg
      have hin : crossed u s C = -1 := by
        unfold crossed
        rw [if_neg (fun h => hu h.1), if_pos ⟨hs, not_le.mp hu, not_le.mp hneg⟩]
      have hnone : crossed t u B = 0 := by
        unfold crossed
        rw [if_neg (fun h => ht.not_ge h.1), if_neg (fun h => hu h.1)]
      rw [hfirst, hin, hnone] at hsum
      norm_num at hsum
    refine ⟨(pos_of_mul_pos_right ?_ hs).le, hC⟩
    linarith [mul_nonpos_of_nonpos_of_nonneg ht.le hC, mul_neg_of_neg_of_pos (not_le.mp hu) hA]

/-- **When a ray leaves a triangle more often than it enters it**, the start of the ray is on the inner side
of all edges. -/
theorem inside_of_crossed (hplane : s * B + t * C + u * A = 0)
    (hsum : 0 < crossed s t A + crossed t u B + crossed u s C) : 0 ≤ A ∧ 0 ≤ B ∧ 0 ≤ C := by
  rcases lt_or_ge 0 (crossed s t A) with hfirst | hfirst
  · obtain ⟨hs, ht, hA⟩ := crossed_pos_iff.mp hfirst
    obtain ⟨hB, hC⟩ := inside_of_first hplane hsum hs ht hA
    exact ⟨hA.le, hB, hC⟩
  rcases lt_or_ge 0 (crossed t u B) with hsecond | hsecond
  · obtain ⟨ht, hu, hB⟩ := crossed_pos_iff.mp hsecond
    have hturned : t * C + u * A + s * B = 0 := by linarith
    obtain ⟨hC, hA⟩ := inside_of_first hturned (by linarith) ht hu hB
    exact ⟨hA, hB.le, hC⟩
  have hthird : 0 < crossed u s C := by linarith
  obtain ⟨hu, hs, hC⟩ := crossed_pos_iff.mp hthird
  have hturned : u * A + s * B + t * C = 0 := by linarith
  obtain ⟨hA, hB⟩ := inside_of_first hturned (by linarith) hu hs hC
  exact ⟨hA, hB, hC.le⟩

/-! ## § The faces in one plane -/

variable {points : Array (SupportPoint ℝ)} {f g : PolytopeFace ℝ} {n y v : Vec3 ℝ} {e : Nat × Nat}

/-- Twice the area that an edge sweeps around a point, seen along a unit vector. -/
noncomputable def swept (points : Array (SupportPoint ℝ)) (n y : Vec3 ℝ) (e : Nat × Nat) : ℝ :=
  ((place points e.1 - y).cross (place points e.2 - y)).dot n

/-- On which side of a line through a point another point lies, seen along a unit vector. -/
noncomputable def side (points : Array (SupportPoint ℝ)) (n y v : Vec3 ℝ) (i : Nat) : ℝ :=
  ((place points i - y).cross v).dot n

/-- How the ray from a point along a vector crosses an edge. -/
noncomputable def crossing (points : Array (SupportPoint ℝ)) (n y v : Vec3 ℝ) (e : Nat × Nat) : ℝ :=
  crossed (side points n y v e.1) (side points n y v e.2) (swept points n y e)

theorem swept_swap (points : Array (SupportPoint ℝ)) (n y : Vec3 ℝ) (e : Nat × Nat) :
    swept points n y e.swap = -swept points n y e := by
  unfold swept
  rw [Prod.fst_swap, Prod.snd_swap, Vec3.cross_comm, Vec3.neg_dot]

theorem crossing_swap (points : Array (SupportPoint ℝ)) (n y v : Vec3 ℝ) (e : Nat × Nat) :
    crossing points n y v e.swap = -crossing points n y v e := by
  unfold crossing
  rw [swept_swap]
  exact crossed_reverse _ _ _

/-- The edges of a face sweep its area around every point. -/
theorem sum_swept (hf : f.Fits points) (y : Vec3 ℝ) : ∃ area : ℝ, 0 < area ∧
    swept points f.normal y (f.i, f.j) + swept points f.normal y (f.j, f.k) +
      swept points f.normal y (f.k, f.i) = area := by
  obtain ⟨s, hs, hwinds⟩ := hf.winds
  refine ⟨s, hs, ?_⟩
  have hall := congrArg (·.dot f.normal) (Vec3.cross_add_cross_add_cross (place points f.i)
    (place points f.j) (place points f.k) y)
  simp only [Vec3.add_dot, hwinds, Vec3.smul_dot, hf.unit, mul_one] at hall
  unfold swept
  linarith

/-- Seen from a point of its plane, the corners of a face depend on each other by the areas that the edges
sweep. -/
theorem sum_smul_corners (hf : f.Fits points) (hy : f.height y = 0) :
    swept points f.normal y (f.j, f.k) • (place points f.i - y) +
      swept points f.normal y (f.k, f.i) • (place points f.j - y) +
      swept points f.normal y (f.i, f.j) • (place points f.k - y) = 0 := by
  obtain ⟨hi, hj, hk⟩ := hf.height_corners
  have hflat {q : Vec3 ℝ} (hq : f.height q = 0) : f.normal.dot (q - y) = 0 := by
    rw [← PolytopeFace.height_eq hy, hq]
  exact Vec3.three_of_plane hf.unit (hflat hi) (hflat hj) (hflat hk)

/-- A point of the plane of a face, on the inner side of all edges, lies in the face. -/
theorem mem_of_swept_nonneg (hf : f.Fits points) (hy : f.height y = 0)
    (hinside : 0 ≤ swept points f.normal y (f.i, f.j) ∧ 0 ≤ swept points f.normal y (f.j, f.k) ∧
      0 ≤ swept points f.normal y (f.k, f.i)) : y ∈ (f.triangle points).points := by
  obtain ⟨area, harea, hsum⟩ := sum_swept hf y
  have hcorners := sum_smul_corners hf hy
  obtain ⟨hC, hA, hB⟩ := hinside
  generalize swept points f.normal y (f.j, f.k) = A at *
  generalize swept points f.normal y (f.k, f.i) = B at *
  generalize swept points f.normal y (f.i, f.j) = C at *
  -- the weight of a corner is the area that the opposite edge sweeps
  let w : Vec3 ℝ := ⟨A / area, B / area, C / area⟩
  have hnonneg : w.Nonneg := ⟨div_nonneg hA harea.le, div_nonneg hB harea.le, div_nonneg hC harea.le⟩
  have hone : w.x + w.y + w.z = 1 := by
    show A / area + B / area + C / area = 1
    rw [← add_div, ← add_div, div_eq_one_iff_eq harea.ne']
    linarith
  have hmem := hnonneg.mem hone (convex_convexHull ℝ _)
    ((f.triangle points).corner_mem_points .first) ((f.triangle points).corner_mem_points .second)
    ((f.triangle points).corner_mem_points .third)
  have hy' : w.x • place points f.i + w.y • place points f.j + w.z • place points f.k = y := by
    rw [← sub_eq_zero, ← one_smul ℝ y, ← hone]
    calc w.x • place points f.i + w.y • place points f.j + w.z • place points f.k -
          (w.x + w.y + w.z) • y
        = area⁻¹ • (A • (place points f.i - y) + B • (place points f.j - y) +
            C • (place points f.k - y)) := by
          simp only [w, div_eq_inv_mul]
          module
      _ = 0 := by rw [hcorners, smul_zero]
  rw [← hy']
  exact hmem

/-- **When a ray leaves a face more often than it enters it**, it starts in the face. -/
theorem mem_of_crossing_pos (hf : f.Fits points) (hy : f.height y = 0)
    (hsum : 0 < (f.edges.map (crossing points f.normal y v)).sum) : y ∈ (f.triangle points).points := by
  simp only [PolytopeFace.edges, List.map_cons, List.map_nil, List.sum_cons, List.sum_nil, add_zero,
    ← add_assoc] at hsum
  have hplane := congrArg (fun x => (x.cross v).dot f.normal) (sum_smul_corners hf hy)
  simp only [Vec3.add_cross, Vec3.smul_cross, Vec3.add_dot, Vec3.smul_dot, Vec3.zero_cross,
    Vec3.zero_dot] at hplane
  refine mem_of_swept_nonneg hf hy (inside_of_crossed ?_ hsum)
  unfold side
  linarith

/-! ## § The border of the faces in one plane -/

/-- Over edges of which none occurs twice, a function that changes its sign with the direction of the edge
adds up to its sum over the border. -/
theorem Closed.sum_border {all edges : List (Nat × Nat)} (hall : Closed all) (hsub : edges ⊆ all)
    (hnodup : edges.Nodup) {t : Nat × Nat → ℝ} (ht : ∀ e, t e.swap = -t e) :
    (edges.map t).sum = ((border edges).map t).sum := by
  have hinner : Closed (edges.filter fun e => !decide (e.swap ∉ edges)) := by
    constructor
    case nodup => exact hnodup.filter _
    case ends_ne => exact fun e he => hall.ends_ne e (hsub (List.mem_of_mem_filter he))
    case swap_mem =>
      intro e he
      obtain ⟨hmem, hback⟩ := List.mem_filter.mp he
      refine List.mem_filter.mpr ⟨by simpa using hback, ?_⟩
      simpa using hmem
  have hsplit := ((List.filter_append_perm (fun e => decide (e.swap ∉ edges)) edges).map t).sum_eq
  rw [List.map_append, List.sum_append, hinner.sum_eq_zero ht, add_zero] at hsplit
  exact hsplit.symm

variable {poly : Polytope ℝ}

open Classical in
/-- The faces with a normal, which lie in one plane. -/
noncomputable def facing (poly : Polytope ℝ) (n : Vec3 ℝ) : List (PolytopeFace ℝ) :=
  poly.faces.filter fun g => decide (g.normal = n)

theorem mem_facing : g ∈ poly.facing n ↔ g ∈ poly.faces ∧ g.normal = n := by
  simp [facing]

/-- The edges of those faces. -/
noncomputable def facingEdges (poly : Polytope ℝ) (n : Vec3 ℝ) : List (Nat × Nat) :=
  (poly.facing n).flatMap PolytopeFace.edges

theorem mem_facingEdges : e ∈ poly.facingEdges n ↔ ∃ g ∈ poly.facing n, e ∈ g.edges := List.mem_flatMap

theorem facingEdges_sublist : (poly.facingEdges n).Sublist poly.edges :=
  List.filter_sublist.flatMap _

/-- Faces of a convex surface with the same normal lie in the same plane. -/
theorem Hull.distance_eq (h : Hull poly) (hf : f ∈ poly.faces) (hg : g ∈ poly.faces)
    (hnormal : g.normal = f.normal) : g.distance = f.distance := by
  have hle {f g : PolytopeFace ℝ} (hf : f ∈ poly.faces) (hg : g ∈ poly.faces)
      (hnormal : g.normal = f.normal) : g.distance ≤ f.distance := by
    have hbehind := h.points_behind f hf g.i (h.fits g hg).lt_size.1
    rw [PolytopeFace.height, ← hnormal, ← (h.fits g hg).distance_eq, sub_nonpos] at hbehind
    exact hbehind
  exact le_antisymm (hle hf hg hnormal) (hle hg hf hnormal.symm)

/-- A face of a convex surface that has the corners of another one in its plane has the same normal. -/
theorem Hull.normal_eq (h : Hull poly) (hf : f ∈ poly.faces) (hg : g ∈ poly.faces) {i j k : Nat}
    (hwinds : f.Winds poly.points i j k) (hi : f.height (place poly.points i) = 0)
    (hgi : g.height (place poly.points i) = 0) (hgj : g.height (place poly.points j) = 0)
    (hgk : g.height (place poly.points k) = 0) : g.normal = f.normal := by
  obtain ⟨s, hs, hwinds⟩ := hwinds
  have hfunit := (h.fits f hf).unit
  have hgunit := (h.fits g hg).unit
  have hflat {q : Nat} (hq : g.height (place poly.points q) = 0) :
      (place poly.points q - place poly.points i).dot g.normal = 0 := by
    rw [Vec3.dot_comm, ← PolytopeFace.height_eq hgi, hq]
  -- the normal of the face is a multiple of that of the other one
  have hmultiple := Vec3.cross_of_plane _ _ (hflat hgj) (hflat hgk)
  rw [hwinds, hgunit, one_smul, Vec3.smul_dot, mul_smul] at hmultiple
  have hsame : f.normal = f.normal.dot g.normal • g.normal := smul_right_injective _ hs.ne' hmultiple
  generalize f.normal.dot g.normal = c at hsame
  have hsquare : c * c = 1 := by
    have hunit := hfunit
    rw [hsame, Vec3.smul_dot, Vec3.dot_smul, hgunit, mul_one] at hunit
    exact hunit
  -- and it points to the same side, away from the interior
  have hfinside := h.interior_behind f hf
  have hginside := h.interior_behind g hg
  rw [PolytopeFace.height_eq hi, hsame, Vec3.smul_dot, ← PolytopeFace.height_eq hgi] at hfinside
  have hpos : 0 < c := pos_of_mul_neg_left hfinside hginside.le
  have hone : c = 1 := by nlinarith
  rw [hsame, hone, one_smul]

/-- The border of the faces in one plane runs around every point of the plane that is behind all faces. -/
theorem Hull.swept_nonneg (h : Hull poly) (hy : ∀ g ∈ poly.faces, g.height y ≤ 0)
    (hplane : ∀ g ∈ poly.facing n, g.height y = 0) (he : e ∈ border (poly.facingEdges n)) :
    0 ≤ swept poly.points n y e := by
  obtain ⟨hmem, hborder⟩ := mem_border.mp he
  obtain ⟨f, hf, hfe⟩ := mem_facingEdges.mp hmem
  obtain ⟨hface, rfl⟩ := mem_facing.mp hf
  have hfits := h.fits f hface
  -- the face beyond the edge lies in another plane
  obtain ⟨g, hg, hge⟩ := mem_edges.mp (h.closed.swap_mem e (mem_edges.mpr ⟨f, hface, hfe⟩))
  have hother : g.normal ≠ f.normal := fun hsame =>
    hborder (mem_facingEdges.mpr ⟨g, mem_facing.mpr ⟨hg, hsame⟩, hge⟩)
  obtain ⟨w, hw, hwinds, hf₁, hf₂, hfw⟩ := hfits.edge hfe
  obtain ⟨-, -, -, hg₂, hg₁, -⟩ := (h.fits g hg).edge hge
  have hbehind : g.height (place poly.points w) < 0 :=
    lt_of_le_of_ne (h.points_behind g hg w hw) fun hzero =>
      hother (h.normal_eq hface hg hwinds hf₁ hg₁ hg₂ hzero)
  obtain ⟨s, hs, hcross⟩ := hwinds
  have hflat {q : Vec3 ℝ} (hq : f.height q = 0) : f.normal.dot (q - place poly.points e.1) = 0 := by
    rw [← PolytopeFace.height_eq hf₁, hq]
  have hthree := congrArg g.normal.dot
    (Vec3.three_of_plane hfits.unit (hflat hf₂) (hflat hfw) (hflat (hplane f hf)))
  simp only [Vec3.dot_add, Vec3.dot_smul, hcross, Vec3.smul_dot, hfits.unit, mul_one, Vec3.dot_zero]
    at hthree
  -- so the area that the edge sweeps is to the height of the point as the face is to that of its corner
  rw [← PolytopeFace.height_eq hg₁, ← PolytopeFace.height_eq hg₁, ← PolytopeFace.height_eq hg₁, hg₂]
    at hthree
  have hswept : swept poly.points f.normal y e = -((y - place poly.points e.1).cross
      (place poly.points e.2 - place poly.points e.1)).dot f.normal := by
    unfold swept
    rw [Vec3.sides_cross_rotate, Vec3.cross_comm, Vec3.neg_dot]
  refine nonneg_of_mul_nonpos_left ?_ hbehind
  rw [hswept]
  have hpoint := mul_nonpos_of_nonneg_of_nonpos hs.le (hy g hg)
  linarith

/-- Over the edges of the faces in one plane, a function that changes its sign with the direction of the edge
adds up to its sum over their border. -/
theorem Hull.sum_facing (h : Hull poly) (n : Vec3 ℝ) {t : Nat × Nat → ℝ} (ht : ∀ e, t e.swap = -t e) :
    ((poly.facing n).map fun g => (g.edges.map t).sum).sum =
      ((border (poly.facingEdges n)).map t).sum := by
  have hnodup := (facingEdges_sublist (n := n)).nodup h.closed.nodup
  rw [← h.closed.sum_border facingEdges_sublist.subset hnodup ht, facingEdges, List.map_flatMap,
    List.flatMap_def, List.sum_flatten, List.map_map]
  rfl

/-- Since the faces in one plane have areas, an edge of their border sweeps one. -/
theorem Hull.exists_swept_pos (h : Hull poly) (hf : f ∈ poly.faces) (y : Vec3 ℝ) :
    ∃ e ∈ border (poly.facingEdges f.normal), 0 < swept poly.points f.normal y e := by
  have hne : poly.facing f.normal ≠ [] := List.ne_nil_of_mem (mem_facing.mpr ⟨hf, rfl⟩)
  have hareas := List.sum_lt_sum_of_ne_nil hne (fun _ => (0 : ℝ))
    (fun g => (g.edges.map (swept poly.points f.normal y)).sum) fun g hg => by
      obtain ⟨hface, hnormal⟩ := mem_facing.mp hg
      obtain ⟨area, harea, hsum⟩ := sum_swept (h.fits g hface) y
      rw [hnormal] at hsum
      simp only [PolytopeFace.edges, List.map_cons, List.map_nil, List.sum_cons, List.sum_nil]
      linarith
  rw [h.sum_facing f.normal (swept_swap poly.points f.normal y)] at hareas
  exact List.exists_lt_of_sum_lt (fun _ => (0 : ℝ)) _ (by simpa using hareas)

/-- A ray through the start of an edge that runs around the start of the ray crosses the edge outward. -/
theorem crossing_start_pos (hpos : 0 < swept points n y e) :
    0 < crossing points n y (place points e.1 - y) e := by
  refine crossed_pos_iff.mpr ⟨?_, ?_, hpos⟩
  · unfold side
    rw [Vec3.cross_self, Vec3.zero_dot]
  · unfold side
    rw [Vec3.cross_comm, Vec3.neg_dot, neg_lt_zero]
    exact hpos

/-- **A point of a side of a convex polytope lies in a face of that side.** When a point that is behind all
faces lies in the plane of a face, then a face in that plane holds it. -/
theorem Hull.exists_face_of_behind (h : Hull poly) (hf : f ∈ poly.faces) (hplane : f.height y = 0)
    (hy : ∀ g ∈ poly.faces, g.height y ≤ 0) :
    ∃ g ∈ poly.faces, g.normal = f.normal ∧ y ∈ (g.triangle poly.points).points := by
  have hall : ∀ g ∈ poly.facing f.normal, g.height y = 0 := by
    intro g hg
    obtain ⟨hface, hnormal⟩ := mem_facing.mp hg
    rw [PolytopeFace.height, hnormal, h.distance_eq hf hface hnormal]
    exact hplane
  -- a ray that crosses one edge of the border outward crosses no other one inward
  obtain ⟨e, he, hpos⟩ := h.exists_swept_pos hf y
  let v := place poly.points e.1 - y
  have hleaves : 0 < ((poly.facing f.normal).map fun g =>
      (g.edges.map (crossing poly.points f.normal y v)).sum).sum := by
    rw [h.sum_facing f.normal (crossing_swap poly.points f.normal y v)]
    refine (crossing_start_pos hpos).trans_le (List.single_le_sum ?_ _ (List.mem_map_of_mem he))
    intro x hx
    obtain ⟨e', he', rfl⟩ := List.mem_map.mp hx
    exact crossed_nonneg (h.swept_nonneg hy hall he')
  obtain ⟨g, hg, hleft⟩ := List.exists_lt_of_sum_lt (fun _ => (0 : ℝ)) _ (by simpa using hleaves)
  obtain ⟨hface, hnormal⟩ := mem_facing.mp hg
  rw [← hnormal] at hleft
  exact ⟨g, hface, hnormal, mem_of_crossing_pos (h.fits g hface) (hall g hg) hleft⟩

end Polytope

end ConvexCollision
