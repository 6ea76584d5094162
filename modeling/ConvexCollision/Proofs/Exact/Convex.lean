import Mathlib.Analysis.Convex.Combination
import Mathlib.Analysis.Convex.Topology
import Mathlib.Analysis.LocallyConvex.Separation
import ConvexCollision.Proofs.Exact.Vector

/-!
# ConvexCollision.Proofs.Exact.Convex -- hulls of points

What is not short of a plane at any of the points is not short of it at any point of their hull
(`le_dot_of_mem_convexHull`), and what is not beyond it at any of them is not beyond it either. A point
outside the hull of finitely many points lies further along some direction than all of them
(`exists_dot_lt`). A point that three corners make up with weights that add up to one lies in their hull
exactly when no weight is negative (`nonneg_iff_mem_convexHull`).
-/

namespace ConvexCollision.Vec3

variable {S : Set (Vec3 ℝ)} {y : Vec3 ℝ}

theorem le_dot_of_mem_convexHull {v : Vec3 ℝ} {c : ℝ} (hy : y ∈ convexHull ℝ S)
    (h : ∀ x ∈ S, c ≤ v.dot x) : c ≤ v.dot y :=
  convexHull_min h (convex_halfSpace_ge v.dotHom.isLinear c) hy

theorem dot_le_of_mem_convexHull {v : Vec3 ℝ} {c : ℝ} (hy : y ∈ convexHull ℝ S)
    (h : ∀ x ∈ S, v.dot x ≤ c) : v.dot y ≤ c :=
  convexHull_min h (convex_halfSpace_le v.dotHom.isLinear c) hy

theorem dot_lt_of_mem_convexHull {v : Vec3 ℝ} {c : ℝ} (hy : y ∈ convexHull ℝ S)
    (h : ∀ x ∈ S, v.dot x < c) : v.dot y < c :=
  convexHull_min h (convex_halfSpace_lt v.dotHom.isLinear c) hy

/-- Every linear function of coordinates is the inner product with a vector. -/
theorem exists_dot_eq (f : (Fin 3 → ℝ) →ₗ[ℝ] ℝ) : ∃ d : Vec3 ℝ, ∀ a, f (coords a) = d.dot a := by
  refine ⟨⟨f (Pi.single 0 1), f (Pi.single 1 1), f (Pi.single 2 1)⟩, fun a => ?_⟩
  rw [LinearMap.pi_apply_eq_sum_univ f, Fin.sum_univ_three]
  simp only [coords_zero, coords_one, coords_two, smul_eq_mul, dot_def]
  have hsingle (i : Fin 3) : (fun j => if i = j then (1 : ℝ) else 0) = Pi.single i 1 := by
    ext j
    simp [Pi.single_apply, eq_comm]
  rw [hsingle, hsingle, hsingle]
  ring

/-- **A point outside a hull is beyond it.** Along some direction it lies further than every point
that the hull is of. -/
theorem exists_dot_lt (hS : S.Finite) (hy : y ∉ convexHull ℝ S) :
    ∃ d : Vec3 ℝ, ∃ u : ℝ, (∀ v ∈ S, d.dot v < u) ∧ u < d.dot y := by
  have himage : coords y ∉ convexHull ℝ (coords '' S) := by
    intro hmem
    have hback := LinearMap.image_convexHull coords.toLinearMap S
    obtain ⟨x, hx, hxy⟩ := hback.ge hmem
    exact hy (coords.injective hxy ▸ hx)
  obtain ⟨f, u, hf, hfy⟩ := geometric_hahn_banach_closed_point (convex_convexHull ℝ _)
    ((hS.image coords).isClosed_convexHull ℝ) himage
  obtain ⟨d, hd⟩ := exists_dot_eq f.toLinearMap
  refine ⟨d, u, fun v hv => ?_, ?_⟩
  · rw [← hd v]
    exact hf _ (subset_convexHull ℝ _ (Set.mem_image_of_mem coords hv))
  · rw [← hd y]
    exact hfy

/-! ## § Weights of three corners -/

/-- No weight is negative. -/
def Nonneg (w : Vec3 ℝ) : Prop := 0 ≤ w.x ∧ 0 ≤ w.y ∧ 0 ≤ w.z

/-- A convex set holds what such weights make of three of its points. -/
theorem Nonneg.mem {w p q r : Vec3 ℝ} (h : w.Nonneg) (hsum : w.x + w.y + w.z = 1) {S : Set (Vec3 ℝ)}
    (hS : Convex ℝ S) (hp : p ∈ S) (hq : q ∈ S) (hr : r ∈ S) : w.x • p + w.y • q + w.z • r ∈ S := by
  obtain ⟨hx, hy, hz⟩ := h
  have hmem : ∑ i, ![w.x, w.y, w.z] i • ![p, q, r] i ∈ S := by
    apply hS.sum_mem
    · intro i _
      fin_cases i
      · exact hx
      · exact hy
      · exact hz
    · rw [Fin.sum_univ_three]
      exact hsum
    · intro i _
      fin_cases i
      · exact hp
      · exact hq
      · exact hr
  rw [Fin.sum_univ_three] at hmem
  exact hmem

variable {p q r x : Vec3 ℝ} {s t u : ℝ}

/-- The first weight of a point of a triangle is not negative. -/
theorem weight_nonneg_of_mem (harea : (q - p).cross (r - p) ≠ 0) (hsum : s + t + u = 1)
    (hx : s • p + t • q + u • r = x) (hmem : x ∈ convexHull ℝ {p, q, r}) : 0 ≤ s := by
  -- up to a factor, how far a point is from the opposite side
  let inward := ((q - p).cross (r - p)).cross (r - q)
  have hside : inward.dot q = inward.dot r := by
    simp only [inward, dot_def, cross_x, cross_y, cross_z, sub_x, sub_y, sub_z]
    ring
  have hcorner : inward.dot (p - q) = ((q - p).cross (r - p)).dot ((q - p).cross (r - p)) := by
    simp only [inward, dot_def, cross_x, cross_y, cross_z, sub_x, sub_y, sub_z]
    ring
  have hfar : inward.dot q < inward.dot p := by
    rw [← sub_pos, ← dot_sub, hcorner]
    exact dot_self_pos harea
  have hin : inward.dot q ≤ inward.dot x := by
    refine le_dot_of_mem_convexHull hmem ?_
    rintro _ (rfl | rfl | rfl)
    · exact hfar.le
    · exact le_refl _
    · exact hside.le
  have hweight : inward.dot x - inward.dot q = s * (inward.dot p - inward.dot q) := by
    rw [← hx, dot_add, dot_add, dot_smul, dot_smul, dot_smul, ← hside]
    linear_combination inward.dot q * hsum
  refine nonneg_of_mul_nonneg_left ?_ (sub_pos.mpr hfar)
  rw [← hweight]
  exact sub_nonneg.mpr hin

/-- **Weights of which none is negative** are those of the points of a triangle. -/
theorem nonneg_iff_mem_convexHull {w : Vec3 ℝ} (harea : (q - p).cross (r - p) ≠ 0)
    (hsum : w.x + w.y + w.z = 1) (hx : w.x • p + w.y • q + w.z • r = x) :
    w.Nonneg ↔ x ∈ convexHull ℝ {p, q, r} := by
  constructor
  · intro hw
    have hcorner {v : Vec3 ℝ} (hv : v ∈ ({p, q, r} : Set (Vec3 ℝ))) : v ∈ convexHull ℝ {p, q, r} :=
      subset_convexHull ℝ _ hv
    rw [← hx]
    exact hw.mem hsum (convex_convexHull ℝ _) (hcorner (by simp)) (hcorner (by simp)) (hcorner (by simp))
  · intro hmem
    -- each corner in turn
    have hareaq : (r - q).cross (p - q) ≠ 0 := by rwa [← sides_cross_rotate]
    have harear : (p - r).cross (q - r) ≠ 0 := by rwa [← sides_cross_rotate]
    have hsetq : ({q, r, p} : Set (Vec3 ℝ)) = {p, q, r} := by
      rw [Set.pair_comm r p, Set.insert_comm]
    have hsetr : ({r, p, q} : Set (Vec3 ℝ)) = {p, q, r} := by
      rw [Set.insert_comm, Set.pair_comm r q]
    refine ⟨weight_nonneg_of_mem harea hsum hx hmem, ?_, ?_⟩
    · refine weight_nonneg_of_mem (x := x) hareaq (t := w.z) (u := w.x) (by linarith) ?_ (hsetq ▸ hmem)
      rw [← hx]
      abel
    · refine weight_nonneg_of_mem (x := x) harear (t := w.x) (u := w.y) (by linarith) ?_ (hsetr ▸ hmem)
      rw [← hx]
      abel

end ConvexCollision.Vec3
