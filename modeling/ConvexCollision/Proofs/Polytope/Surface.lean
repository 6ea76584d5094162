import Mathlib.Algebra.BigOperators.Group.List.Basic
import Mathlib.Algebra.Order.BigOperators.Group.List
import Mathlib.Tactic.FieldSimp
import ConvexCollision.Proofs.Exact.Vector
import ConvexCollision.Proofs.Polytope.Rim

/-!
# ConvexCollision.Proofs.Polytope.Surface -- closed surfaces in space

A face lies in a plane, and `PolytopeFace.height` says how far a point is in front of it. The main
statement (`exists_corner_ge`) is about a closed surface of faces and a point behind all of them:
whatever the direction, some corner of the surface lies at least as far along it as the point.

The proof turns the geometry into a sum over directed edges. Were every corner short of the point,
each face would contribute a negative term to the sum; but the terms of an edge and of its reverse
cancel, so the sum over a closed surface is zero.
-/

namespace ConvexCollision

/-- Where the point with a number lies in the difference of the two sets. -/
noncomputable def Polytope.place (points : Array (SupportPoint ℝ)) (i : Nat) : Vec3 ℝ :=
  (Polytope.point points i).diff

/-- A point keeps its place when another one is added to the table. -/
theorem Polytope.place_push_lt {points : Array (SupportPoint ℝ)} {q : Nat} (hq : q < points.size)
    (p : SupportPoint ℝ) : Polytope.place (points.push p) q = Polytope.place points q := by
  simp [Polytope.place, Polytope.point, Array.getD_eq_getD_getElem?, Array.getElem?_push, hq.ne]

theorem Polytope.place_push_size (points : Array (SupportPoint ℝ)) (p : SupportPoint ℝ) :
    Polytope.place (points.push p) points.size = p.diff := by
  simp [Polytope.place, Polytope.point, Array.getD_eq_getD_getElem?]

namespace PolytopeFace

/-! ## § Faces in their planes -/

/-- How far a point is in front of the face's plane. -/
noncomputable def height (f : PolytopeFace ℝ) (y : Vec3 ℝ) : ℝ := f.normal.dot y - f.distance

/-- The face is wound around its normal when seen along the edge from `x` to `y` with the third corner
`w`. -/
def Winds (points : Array (SupportPoint ℝ)) (f : PolytopeFace ℝ) (x y w : Nat) : Prop :=
  ∃ s : ℝ, 0 < s ∧
    (Polytope.place points y - Polytope.place points x).cross
      (Polytope.place points w - Polytope.place points x) = s • f.normal

/-- The numbers of a face belong together: its corners are points of the table, and its normal and
distance are those of the plane through them. -/
structure Fits (points : Array (SupportPoint ℝ)) (f : PolytopeFace ℝ) : Prop where
  /-- The corners are points of the table. -/
  lt_size : f.i < points.size ∧ f.j < points.size ∧ f.k < points.size
  /-- The normal is that of the corners, in their order. -/
  winds : f.Winds points f.i f.j f.k
  /-- The normal is a unit vector. -/
  unit : f.normal.dot f.normal = 1
  /-- The distance is that of the first corner. -/
  distance_eq : f.distance = f.normal.dot (Polytope.place points f.i)

open Polytope (place place_push_lt)

variable {points : Array (SupportPoint ℝ)} {f : PolytopeFace ℝ} {x y w : Nat}

theorem Winds.rotate (h : f.Winds points x y w) : f.Winds points y w x := by
  obtain ⟨s, hs, heq⟩ := h
  exact ⟨s, hs, by rw [← heq, ← Vec3.sides_cross_rotate]⟩

/-- The corners of a face all lie in its plane. -/
theorem Winds.dot_eq (h : f.Winds points x y w) :
    f.normal.dot (place points y) = f.normal.dot (place points x) ∧
      f.normal.dot (place points w) = f.normal.dot (place points x) := by
  obtain ⟨s, hs, heq⟩ := h
  have hy : s * f.normal.dot (place points y - place points x) = 0 := by
    rw [← Vec3.smul_dot, ← heq, Vec3.cross_dot_self_left]
  have hw : s * f.normal.dot (place points w - place points x) = 0 := by
    rw [← Vec3.smul_dot, ← heq, Vec3.cross_dot_self_right]
  simp only [Vec3.dot_sub, mul_eq_zero, hs.ne', false_or, sub_eq_zero] at hy hw
  exact ⟨hy, hw⟩

/-- Each edge of a face has a third corner opposite, and the three lie in the plane of the face. -/
theorem Fits.edge (h : f.Fits points) (he : (x, y) ∈ f.edges) :
    ∃ w < points.size, f.Winds points x y w ∧ f.height (place points x) = 0 ∧
      f.height (place points y) = 0 ∧ f.height (place points w) = 0 := by
  obtain ⟨hj, hk⟩ := h.winds.dot_eq
  have hi := h.distance_eq
  obtain ⟨hlti, hltj, hltk⟩ := h.lt_size
  simp only [edges, List.mem_cons, Prod.mk.injEq, List.not_mem_nil, or_false] at he
  simp only [height]
  rcases he with ⟨rfl, rfl⟩ | ⟨rfl, rfl⟩ | ⟨rfl, rfl⟩
  · exact ⟨f.k, hltk, h.winds, by linarith, by linarith, by linarith⟩
  · exact ⟨f.i, hlti, h.winds.rotate, by linarith, by linarith, by linarith⟩
  · exact ⟨f.j, hltj, h.winds.rotate.rotate, by linarith, by linarith, by linarith⟩

/-- A face keeps its corners when a point is added to the table. -/
theorem Fits.push (h : f.Fits points) (p : SupportPoint ℝ) : f.Fits (points.push p) := by
  obtain ⟨hi, hj, hk⟩ := h.lt_size
  refine ⟨?_, ?_, h.unit, ?_⟩
  · rw [Array.size_push]
    exact ⟨Nat.lt_succ_of_lt hi, Nat.lt_succ_of_lt hj, Nat.lt_succ_of_lt hk⟩
  · rw [Winds, place_push_lt hi, place_push_lt hj, place_push_lt hk]
    exact h.winds
  · rw [place_push_lt hi]
    exact h.distance_eq

/-- The height above a face, measured from one of its corners. -/
theorem height_eq {p : Vec3 ℝ} (h : f.height p = 0) (q : Vec3 ℝ) :
    f.height q = f.normal.dot (q - p) := by
  simp only [height, Vec3.dot_sub] at h ⊢
  linarith

/-- The height above a face changes evenly along a line. -/
theorem height_of_sub_eq {a b c : Vec3 ℝ} {t : ℝ} (h : c - a = t • (b - a)) :
    f.height c = (1 - t) * f.height a + t * f.height b := by
  have hdot := congrArg f.normal.dot h
  simp only [Vec3.dot_sub, Vec3.dot_smul] at hdot
  simp only [height]
  linarith

end PolytopeFace

namespace Polytope

/-! ## § Sums over the edges of a closed surface -/

/-- What an edge contributes to the sum, for a direction `d` and a point `o`. -/
noncomputable def turning (points : Array (SupportPoint ℝ)) (d o : Vec3 ℝ) (e : Nat × Nat) : ℝ :=
  d.dot ((place points e.1 - o).cross (place points e.2 - o)) /
    (d.dot (place points e.1 - o) * d.dot (place points e.2 - o))

/-- An edge and its reverse cancel. -/
theorem turning_swap (points : Array (SupportPoint ℝ)) (d o : Vec3 ℝ) (e : Nat × Nat) :
    turning points d o e.swap = -turning points d o e := by
  simp only [turning, Prod.fst_swap, Prod.snd_swap]
  rw [Vec3.cross_comm, Vec3.dot_neg, neg_div, mul_comm]

/-- Over a closed surface, a function that changes its sign with the direction of the edge adds up to
nothing. -/
theorem Closed.sum_eq_zero {edges : List (Nat × Nat)} (h : Closed edges) {t : Nat × Nat → ℝ}
    (ht : ∀ e, t e.swap = -t e) : (edges.map t).sum = 0 := by
  have hswap : (edges.map Prod.swap).Perm edges := by
    rw [List.perm_ext_iff_of_nodup (h.nodup.map Prod.swap_injective) h.nodup]
    intro e
    rw [List.mem_map]
    constructor
    · rintro ⟨e', he', rfl⟩
      exact h.swap_mem e' he'
    · exact fun he => ⟨e.swap, h.swap_mem e he, Prod.swap_swap e⟩
  have hneg : (edges.map t).sum = -(edges.map t).sum := by
    calc (edges.map t).sum
        = ((edges.map Prod.swap).map t).sum := ((hswap.map t).sum_eq).symm
      _ = ((edges.map t).map fun x => -x).sum := by simp only [List.map_map, Function.comp_def, ht]
      _ = -(edges.map t).sum := (List.sum_neg _).symm
  linarith

/-- A face that has the point behind it contributes a negative amount, when all its corners are short
of the point. -/
theorem turning_face_neg {points : Array (SupportPoint ℝ)} {f : PolytopeFace ℝ} {d o : Vec3 ℝ}
    (hf : f.Fits points) (ho : f.height o < 0) (hd : d ≠ 0)
    (hi : d.dot (place points f.i - o) < 0) (hj : d.dot (place points f.j - o) < 0)
    (hk : d.dot (place points f.k - o) < 0) : (f.edges.map (turning points d o)).sum < 0 := by
  obtain ⟨s, hs, hwinds⟩ := hf.winds
  have hheight : f.height o = -f.normal.dot (place points f.i - o) := by
    simp only [PolytopeFace.height, hf.distance_eq, Vec3.dot_sub]
    ring
  simp only [PolytopeFace.edges, List.map_cons, List.map_nil, List.sum_cons, List.sum_nil, turning]
  -- the corners as seen from the point
  rw [← sub_sub_sub_cancel_right (place points f.j) (place points f.i) o,
    ← sub_sub_sub_cancel_right (place points f.k) (place points f.i) o] at hwinds
  generalize place points f.i - o = a at *
  generalize place points f.j - o = b at *
  generalize place points f.k - o = c at *
  have hvolume : 0 < (a.cross b).dot c := by
    rw [← Vec3.sides_cross_dot, hwinds, Vec3.smul_dot]
    exact mul_pos hs (by linarith)
  have hspan : (a.cross b).dot c * d.dot d =
      d.dot c * d.dot (a.cross b) + d.dot a * d.dot (b.cross c) + d.dot b * d.dot (c.cross a) := by
    simpa using congrArg d.dot (Vec3.cross_dot_smul a b c d)
  have hsum : d.dot (a.cross b) / (d.dot a * d.dot b) +
      (d.dot (b.cross c) / (d.dot b * d.dot c) + (d.dot (c.cross a) / (d.dot c * d.dot a) + 0)) =
      (a.cross b).dot c * d.dot d / (d.dot a * d.dot b * d.dot c) := by
    rw [hspan]
    field_simp [hi.ne, hj.ne, hk.ne]
    ring
  rw [hsum]
  exact div_neg_of_pos_of_neg (mul_pos hvolume (Vec3.dot_self_pos hd))
    (mul_neg_of_pos_of_neg (mul_pos_of_neg_of_neg hi hj) hk)

/-- **No closed surface lies short of a point inside.** Whatever the direction, a corner of the surface
lies at least as far along it as a point behind all faces. -/
theorem exists_corner_ge {poly : Polytope ℝ} {o d : Vec3 ℝ} (hclosed : Closed poly.edges)
    (hfits : ∀ f ∈ poly.faces, f.Fits poly.points) (hne : poly.faces ≠ [])
    (ho : ∀ f ∈ poly.faces, f.height o < 0) (hd : d ≠ 0) :
    ∃ i < poly.points.size, d.dot o ≤ d.dot (place poly.points i) := by
  by_contra hshort
  push Not at hshort
  have hneg : ∀ f ∈ poly.faces, (f.edges.map (turning poly.points d o)).sum < 0 := by
    intro f hf
    have hfit := hfits f hf
    have hcorner {i : Nat} (hi : i < poly.points.size) : d.dot (place poly.points i - o) < 0 := by
      rw [Vec3.dot_sub]
      linarith [hshort i hi]
    exact turning_face_neg hfit (ho f hf) hd (hcorner hfit.lt_size.1) (hcorner hfit.lt_size.2.1)
      (hcorner hfit.lt_size.2.2)
  have hzero : (poly.edges.map (turning poly.points d o)).sum = 0 :=
    hclosed.sum_eq_zero (turning_swap poly.points d o)
  have hsum : (poly.edges.map (turning poly.points d o)).sum =
      (poly.faces.map fun f => (f.edges.map (turning poly.points d o)).sum).sum := by
    rw [edges, List.map_flatMap, List.flatMap_def, List.sum_flatten, List.map_map]
    rfl
  have hlt := List.sum_lt_sum_of_ne_nil hne (fun f => (f.edges.map (turning poly.points d o)).sum)
    (fun _ => (0 : ℝ)) hneg
  simp only [List.map_const', List.sum_replicate, smul_zero] at hlt
  linarith

end Polytope

end ConvexCollision
