import Mathlib.Algebra.Group.Pointwise.Set.Basic
import Mathlib.Analysis.Convex.Basic
import ConvexCollision.Placement
import ConvexCollision.Simplex
import ConvexCollision.Proofs.Exact.Vector

/-!
# ConvexCollision.Proofs.Exact.Support -- sets of points and their support functions

A support function is exact for a set when the point that it gives for a direction belongs to the
set and no point of the set lies further along that direction. The points that the searches ask for
are then exact support points of the difference of two sets. The support function of a box is exact
for the box, and so it stays when the box is moved.
-/

namespace ConvexCollision

open scoped Pointwise

/-- The function gives, for every direction, a point of the set that lies furthest along it. -/
structure IsSupport (a : Support ℝ) (A : Set (Vec3 ℝ)) : Prop where
  /-- The point belongs to the set. -/
  mem (d : Vec3 ℝ) : a d ∈ A
  /-- No point of the set lies further along the direction. -/
  le (d : Vec3 ℝ) : ∀ x ∈ A, d.dot x ≤ d.dot (a d)

variable {a b : Support ℝ} {A B : Set (Vec3 ℝ)}

/-- The points of the searches are support points of the difference of the two sets. -/
theorem IsSupport.sub (ha : IsSupport a A) (hb : IsSupport b B) :
    IsSupport (fun d => (SupportPoint.along a b d).diff) (A - B) where
  mem d := Set.sub_mem_sub (ha.mem d) (hb.mem (-d))
  le d := by
    rintro _ ⟨x, hx, y, hy, rfl⟩
    have hax := ha.le d x hx
    have hby := hb.le (-d) y hy
    simp only [SupportPoint.along, Vec3.dot_sub, Vec3.neg_dot] at hby ⊢
    linarith

/-- The support function of a set that is moved is exact for the moved set. -/
theorem IsSupport.translate (ha : IsSupport a A) (offset : Vec3 ℝ) :
    IsSupport (Support.translate a offset) ((· + offset) '' A) where
  mem d := Set.mem_image_of_mem _ (ha.mem d)
  le d := by
    rintro _ ⟨x, hx, rfl⟩
    simp only [Support.translate, Vec3.dot_add]
    exact add_le_add_left (ha.le d x hx) _

/-- The points of a box. -/
def boxPoints (half : Vec3 ℝ) : Set (Vec3 ℝ) :=
  {x | |x.x| ≤ half.x ∧ |x.y| ≤ half.y ∧ |x.z| ≤ half.z}

theorem convex_boxPoints (half : Vec3 ℝ) : Convex ℝ (boxPoints half) := by
  intro x hx y hy s t hs ht hst
  have hbetween {u v c : ℝ} (hu : |u| ≤ c) (hv : |v| ≤ c) : |s * u + t * v| ≤ c :=
    abs_le.mpr (convex_Icc (-c) c (abs_le.mp hu) (abs_le.mp hv) hs ht hst)
  refine ⟨?_, ?_, ?_⟩
  · simpa using hbetween hx.1 hy.1
  · simpa using hbetween hx.2.1 hy.2.1
  · simpa using hbetween hx.2.2 hy.2.2

/-- No point of a box is further away than its corners. -/
theorem lengthSq_le_of_mem_boxPoints {half x : Vec3 ℝ} (hx : x ∈ boxPoints half) :
    x.lengthSq ≤ half.lengthSq := by
  have hsq {u c : ℝ} (hu : |u| ≤ c) : u * u ≤ c * c := by
    rw [← abs_mul_abs_self u]
    exact mul_self_le_mul_self (abs_nonneg u) hu
  exact add_le_add (add_le_add (hsq hx.1) (hsq hx.2.1)) (hsq hx.2.2)

/-- The end of an interval on the side of a number is as far along it as any point of the interval. -/
theorem mul_le_mul_signSelect {v x extent : ℝ} (hx : |x| ≤ extent) :
    v * x ≤ v * signSelect v extent := by
  obtain ⟨hlow, hhigh⟩ := abs_le.mp hx
  simp only [signSelect, Scalar.zero_real]
  split
  · exact mul_le_mul_of_nonneg_left hhigh (le_of_lt ‹_›)
  · exact mul_le_mul_of_nonpos_left hlow (not_lt.mp ‹_›)

theorem abs_signSelect_le {v extent : ℝ} (h : 0 ≤ extent) : |signSelect v extent| ≤ extent := by
  simp only [signSelect]
  split
  · exact (abs_of_nonneg h).le
  · rw [abs_neg, abs_of_nonneg h]

/-- The support function of a box is exact. -/
theorem isSupport_box {half : Vec3 ℝ} (hx : 0 ≤ half.x) (hy : 0 ≤ half.y) (hz : 0 ≤ half.z) :
    IsSupport (Shape.box half).support (boxPoints half) where
  mem _ := ⟨abs_signSelect_le hx, abs_signSelect_le hy, abs_signSelect_le hz⟩
  le _ := by
    rintro x ⟨hx, hy, hz⟩
    exact add_le_add (add_le_add (mul_le_mul_signSelect hx) (mul_le_mul_signSelect hy))
      (mul_le_mul_signSelect hz)

end ConvexCollision
