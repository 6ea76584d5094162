import ConvexCollision.Simplex
import ConvexCollision.Proofs.Exact.Convex
import ConvexCollision.Proofs.Simplex.Barycentric

/-!
# ConvexCollision.Proofs.Simplex.Kept -- the points that a simplex keeps

The nearest point of a simplex is the point of its hull with the weights of the projection
(`Simplex.exists_projection`). The simplex keeps the points whose weight is not zero, and the point
still belongs to the hull of those (`Simplex.combine_mem_kept`).
-/

namespace ConvexCollision.Simplex

open Projection

variable {s : Simplex ℝ} {p : SupportPoint ℝ}

/-- The points of the difference that a simplex holds. -/
def points (s : Simplex ℝ) : Set (Vec3 ℝ) := {x | ∃ p ∈ s, p.diff = x}

/-- The points of the difference, by their places. -/
def place (s : Simplex ℝ) (i : Fin s.length) : Vec3 ℝ := (s.get i).diff

theorem mem_points {x : Vec3 ℝ} : x ∈ s.points ↔ ∃ p ∈ s, p.diff = x := Iff.rfl

theorem place_mem (i : Fin s.length) : s.place i ∈ s.points := ⟨s.get i, List.get_mem s i, rfl⟩

theorem exists_place {x : Vec3 ℝ} (hx : x ∈ s.points) : ∃ i, s.place i = x := by
  obtain ⟨p, hp, rfl⟩ := hx
  obtain ⟨i, rfl⟩ := List.get_of_mem hp
  exact ⟨i, rfl⟩

theorem map_diff : s.map (·.diff) = List.ofFn s.place := by
  conv_lhs => rw [← List.ofFn_get s, List.map_ofFn]
  rfl

theorem zip_ofFn (w : Fin s.length → ℝ) : s.zip (List.ofFn w) = List.ofFn fun i => (s.get i, w i) := by
  refine List.ext_getElem (by simp) fun i h₁ h₂ => ?_
  simp

/-- The nearest point of a simplex has the weights of the projection. -/
theorem exists_projection (hne : s ≠ []) (hle : s.length ≤ 4)
    (hfin : ∀ x ∈ s.points, x.lengthSq < Scalar.maxFinite) :
    ∃ w, IsProjection s.place w ∧ s.nearest = (combine s.place w, List.ofFn w) := by
  obtain ⟨w, hw⟩ := exists_isProjection s.place (List.length_pos_of_ne_nil hne) hle
    fun i => hfin _ (place_mem i)
  have hsum : (List.ofFn fun i => (s.get i, w i)).foldl (fun v pw => v + pw.1.diff * pw.2) 0 =
      combine s.place w := by
    rw [combine, ← List.sum_ofFn, List.sum_eq_foldl, ← List.foldl_map, List.map_ofFn]
    rfl
  refine ⟨w, hw, ?_⟩
  rw [nearest, map_diff, hw.eq, zip_ofFn, Vec3.zero_eq, hsum]

/-! ## § What is kept -/

variable {w : Fin s.length → ℝ}

/-- A weight that is not zero keeps its point. -/
theorem keeps_iff {x : ℝ} : (!Scalar.same x 0) = true ↔ x ≠ 0 := by
  rw [Bool.not_eq_true', ← Bool.not_eq_true, Scalar.same_real]

theorem mem_kept : p ∈ (s.retain (List.ofFn w)).1 ↔ ∃ i, w i ≠ 0 ∧ s.get i = p := by
  simp only [retain, List.unzip_fst, zip_ofFn, List.mem_map, List.mem_filter, List.mem_ofFn,
    Scalar.zero_real, keeps_iff]
  constructor
  · rintro ⟨_, ⟨⟨i, rfl⟩, hi⟩, rfl⟩
    exact ⟨i, hi, rfl⟩
  · rintro ⟨i, hi, rfl⟩
    exact ⟨_, ⟨⟨i, rfl⟩, hi⟩, rfl⟩

theorem kept_points_subset : points (s.retain (List.ofFn w)).1 ⊆ s.points := by
  rintro _ ⟨p, hp, rfl⟩
  obtain ⟨i, -, rfl⟩ := mem_kept.mp hp
  exact place_mem i

theorem kept_length_le : (s.retain (List.ofFn w)).1.length ≤ s.length := by
  simp only [retain, List.unzip_fst, List.length_map]
  refine (List.length_filter_le _ _).trans ?_
  rw [zip_ofFn, List.length_ofFn]

/-- When every point is kept, no weight is zero. -/
theorem ne_zero_of_kept_length (h : (s.retain (List.ofFn w)).1.length = s.length) (i : Fin s.length) :
    w i ≠ 0 := by
  simp only [retain, List.unzip_fst, List.length_map, zip_ofFn, Scalar.zero_real] at h
  have hall := List.length_filter_eq_length_iff.mp (h.trans List.length_ofFn.symm)
  exact keeps_iff.mp (hall _ (List.mem_ofFn.mpr ⟨i, rfl⟩))

/-- The point with the weights belongs to the hull of the points that are kept. -/
theorem combine_mem_kept (hw : w ∈ stdSimplex ℝ (Fin s.length)) :
    combine s.place w ∈ convexHull ℝ (points (s.retain (List.ofFn w)).1) := by
  have hsupport : ∑ i with w i ≠ 0, w i • s.place i = combine s.place w :=
    Finset.sum_filter_of_ne fun i _ hi hzero => hi (by rw [hzero, zero_smul])
  rw [← hsupport]
  refine (convex_convexHull ℝ _).sum_mem (fun i _ => hw.1 i) ?_ fun i hi => ?_
  · rw [Finset.sum_filter_ne_zero, hw.2]
  · refine subset_convexHull ℝ _ ⟨s.get i, mem_kept.mpr ⟨i, ?_, rfl⟩, rfl⟩
    exact (Finset.mem_filter.mp hi).2

end ConvexCollision.Simplex
