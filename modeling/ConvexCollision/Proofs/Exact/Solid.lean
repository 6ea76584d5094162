import ConvexCollision.Proofs.Exact.Support
import ConvexCollision.Proofs.Exact.Triangle

/-!
# ConvexCollision.Proofs.Exact.Solid -- the points that a support function stands for

A support function says for every direction how far a set reaches along it. The points that reach no
further along any direction are its solid, which is convex. A set of which the support function is exact
lies within the solid, and for a triangle the two are the same (`Triangle.solid_support`): a point outside
the hull of the corners lies further than all of them along some direction.

The solid of a set that is moved is moved along, and a set stretched along an offset holds whatever the
set holds on the way.
-/

namespace ConvexCollision

namespace Support

/-- The points that lie no further along any direction than the point which the function gives for it. -/
def solid (a : Support ℝ) : Set (Vec3 ℝ) := {x | ∀ d : Vec3 ℝ, d.dot x ≤ d.dot (a d)}

variable {a : Support ℝ} {x : Vec3 ℝ}

theorem convex_solid (a : Support ℝ) : Convex ℝ (solid a) := by
  intro x hx y hy s t hs ht hst d
  rw [Vec3.dot_add, Vec3.dot_smul, Vec3.dot_smul]
  calc s * d.dot x + t * d.dot y
      ≤ s * d.dot (a d) + t * d.dot (a d) :=
        add_le_add (mul_le_mul_of_nonneg_left (hx d) hs) (mul_le_mul_of_nonneg_left (hy d) ht)
    _ = d.dot (a d) := by rw [← add_mul, hst, one_mul]

/-- A point of a set that is moved is a point of the set, moved. -/
theorem mem_solid_translate {offset : Vec3 ℝ} :
    x ∈ solid (translate a offset) ↔ x - offset ∈ solid a := by
  refine forall_congr' fun d => ?_
  show d.dot x ≤ d.dot (a d + offset) ↔ d.dot (x - offset) ≤ d.dot (a d)
  rw [Vec3.dot_add, Vec3.dot_sub, sub_le_iff_le_add]

/-- A stretched set holds every point of the set, moved part of the way. -/
theorem add_mem_solid_stretch (hx : x ∈ solid a) (offset : Vec3 ℝ) {s : ℝ} (hs : 0 ≤ s) (hs1 : s ≤ 1) :
    x + s • offset ∈ solid (stretch a offset) := by
  intro d
  have hreach := hx d
  rw [Vec3.dot_add, Vec3.dot_smul]
  unfold stretch
  simp only [Scalar.zero_real]
  split
  · next hfaces =>
    rw [Vec3.dot_comm] at hfaces
    rw [Vec3.dot_add]
    exact add_le_add hreach (mul_le_of_le_one_left hfaces.le hs1)
  · next haway =>
    rw [Vec3.dot_comm] at haway
    exact (add_le_of_nonpos_right (mul_nonpos_of_nonneg_of_nonpos hs (not_lt.mp haway))).trans hreach

/-- A single point has that point as its solid. -/
theorem solid_const (p : Vec3 ℝ) : solid (fun _ => p) = {p} := by
  ext y
  constructor
  · intro hy
    have hself := hy (y - p)
    rw [← sub_nonpos, ← Vec3.dot_sub] at hself
    exact sub_eq_zero.mp ((Vec3.dot_self_eq_zero _).mp (le_antisymm hself (Vec3.dot_self_nonneg _)))
  · rintro rfl d
    exact le_refl _

end Support

/-- A set of which a function is the exact support function lies within its solid. -/
theorem IsSupport.subset_solid {a : Support ℝ} {A : Set (Vec3 ℝ)} (h : IsSupport a A) :
    A ⊆ Support.solid a :=
  fun x hx d => h.le d x hx

namespace Triangle

variable (t : Triangle ℝ)

/-- The point of a triangle furthest along a direction is a corner, and no corner lies further. -/
theorem exists_support_eq_corner (d : Vec3 ℝ) :
    ∃ i, t.support d = t.corner i ∧ ∀ j, (t.corner j).dot d ≤ (t.corner i).dot d := by
  have hall {i : Corner} (ha : t.a.dot d ≤ (t.corner i).dot d) (hb : t.b.dot d ≤ (t.corner i).dot d)
      (hc : t.c.dot d ≤ (t.corner i).dot d) : ∀ j, (t.corner j).dot d ≤ (t.corner i).dot d := by
    intro j
    cases j
    · exact ha
    · exact hb
    · exact hc
  unfold support
  simp only [List.foldl_cons, List.foldl_nil]
  by_cases hb : t.a.dot d < t.b.dot d
  · rw [if_pos hb]
    by_cases hc : t.b.dot d < t.c.dot d
    · rw [if_pos hc]
      exact ⟨.third, rfl, hall (hb.trans hc).le hc.le (le_refl _)⟩
    · rw [if_neg hc]
      exact ⟨.second, rfl, hall hb.le (le_refl _) (not_lt.mp hc)⟩
  · rw [if_neg hb]
    by_cases hc : t.a.dot d < t.c.dot d
    · rw [if_pos hc]
      exact ⟨.third, rfl, hall hc.le ((not_lt.mp hb).trans hc.le) (le_refl _)⟩
    · rw [if_neg hc]
      exact ⟨.first, rfl, hall (le_refl _) (not_lt.mp hb) (not_lt.mp hc)⟩

/-- The support function of a triangle is exact. -/
theorem isSupport : IsSupport t.support t.points := by
  constructor
  · intro d
    obtain ⟨i, hi, -⟩ := t.exists_support_eq_corner d
    rw [hi]
    exact t.corner_mem_points i
  · intro d x hx
    obtain ⟨i, hi, hmost⟩ := t.exists_support_eq_corner d
    rw [hi]
    apply dot_le_of_mem_points ?_ hx
    intro j
    rw [Vec3.dot_comm d, Vec3.dot_comm d]
    exact hmost j

/-- The solid of a triangle is the triangle. -/
theorem solid_support : Support.solid t.support = t.points := by
  apply Set.Subset.antisymm
  · intro x hx
    by_contra hout
    obtain ⟨d, u, hcorners, hu⟩ := Vec3.exists_dot_lt (Set.toFinite {t.a, t.b, t.c}) hout
    -- the point lies further along the direction than the corner that lies furthest
    obtain ⟨i, hi, -⟩ := t.exists_support_eq_corner d
    have hreach : d.dot x ≤ d.dot (t.corner i) := by
      rw [← hi]
      exact hx d
    have hshort : d.dot (t.corner i) < u := by
      apply hcorners
      cases i <;> simp [corner]
    exact absurd (hu.trans_le hreach) hshort.not_gt
  · exact t.isSupport.subset_solid

end Triangle

end ConvexCollision
