import ConvexCollision.Mesh.Triangle
import ConvexCollision.Proofs.Order

/-!
# ConvexCollision.Proofs.Nulls -- numbers that are neither above nor below zero

A number that is neither above nor below zero is one of the zeros, or undefined. Such numbers stay among
themselves (`Scalar.Nulls`): rounding, overflow and undefined operands do not lead out of them. What is
computed from a vector of such numbers is therefore known without any bound on the other operands. The
vector has no direction, and a triangle with two corners in one place has no normal
(`Triangle.normal_eq_zero`).
-/

namespace ConvexCollision

variable {α : Type} [Scalar α]

/-- Neither above nor below zero: one of the zeros, or undefined. -/
def Scalar.IsNull (a : α) : Prop := ¬ a < 0 ∧ ¬ 0 < a

/-- What is made of numbers that are neither above nor below zero is not either. -/
class Scalar.Nulls (α : Type) [Scalar α] : Prop where
  /-- Zero is neither above nor below itself. -/
  isNull_zero : IsNull (0 : α)
  /-- The difference of a number from itself. It is undefined if the number is infinite. -/
  isNull_sub_self : ∀ a : α, IsNull (a - a)
  /-- A sum. -/
  isNull_add : ∀ {a b : α}, IsNull a → IsNull b → IsNull (a + b)
  /-- A difference. -/
  isNull_sub : ∀ {a b : α}, IsNull a → IsNull b → IsNull (a - b)
  /-- Any multiple. -/
  isNull_mul_left : ∀ {a : α} (b : α), IsNull a → IsNull (a * b)
  /-- Any multiple, with the factors exchanged. -/
  isNull_mul_right : ∀ (a : α) {b : α}, IsNull b → IsNull (a * b)
  /-- The root has no finite positive inverse. -/
  not_pos_one_div_sqrt : ∀ {a : α}, IsNull a → ¬ (isFinite (1 / sqrt a) = true ∧ 0 < 1 / sqrt a)

open Scalar

/-- Nothing above zero is exceeded by a number that is not. -/
theorem Scalar.IsNull.not_lt [Scalar.Ordered α] {a b : α} (ha : IsNull a) (hb : 0 < b) : ¬ b < a := by
  intro hlt
  obtain ⟨h0b, hb0⟩ := Scalar.Ordered.lt_iff.mp hb
  obtain ⟨hba, -⟩ := Scalar.Ordered.lt_iff.mp hlt
  exact ha.2 (Scalar.Ordered.lt_iff.mpr
    ⟨Scalar.Ordered.le_trans h0b hba, fun ha0 => hb0 (Scalar.Ordered.le_trans hba ha0)⟩)

namespace Vec3

/-- No coordinate is above or below zero. -/
structure IsNull (v : Vec3 α) : Prop where
  x : Scalar.IsNull v.x
  y : Scalar.IsNull v.y
  z : Scalar.IsNull v.z

variable [Scalar.Nulls α]

theorem isNull_zero : (zero : Vec3 α).IsNull := ⟨Nulls.isNull_zero, Nulls.isNull_zero, Nulls.isNull_zero⟩

theorem isNull_sub_self (v : Vec3 α) : (v - v).IsNull :=
  ⟨Nulls.isNull_sub_self _, Nulls.isNull_sub_self _, Nulls.isNull_sub_self _⟩

/-- The vector product of a vector with itself. -/
theorem isNull_cross_self (v : Vec3 α) : (v.cross v).IsNull :=
  ⟨Nulls.isNull_sub_self _, Nulls.isNull_sub_self _, Nulls.isNull_sub_self _⟩

theorem IsNull.cross_left {v : Vec3 α} (hv : v.IsNull) (w : Vec3 α) : (v.cross w).IsNull :=
  ⟨Nulls.isNull_sub (Nulls.isNull_mul_left _ hv.y) (Nulls.isNull_mul_right _ hv.z),
    Nulls.isNull_sub (Nulls.isNull_mul_left _ hv.z) (Nulls.isNull_mul_right _ hv.x),
    Nulls.isNull_sub (Nulls.isNull_mul_left _ hv.x) (Nulls.isNull_mul_right _ hv.y)⟩

theorem IsNull.cross_right {w : Vec3 α} (hw : w.IsNull) (v : Vec3 α) : (v.cross w).IsNull :=
  ⟨Nulls.isNull_sub (Nulls.isNull_mul_right _ hw.z) (Nulls.isNull_mul_left _ hw.y),
    Nulls.isNull_sub (Nulls.isNull_mul_right _ hw.x) (Nulls.isNull_mul_left _ hw.z),
    Nulls.isNull_sub (Nulls.isNull_mul_right _ hw.y) (Nulls.isNull_mul_left _ hw.x)⟩

theorem IsNull.dot_left {v : Vec3 α} (hv : v.IsNull) (w : Vec3 α) : Scalar.IsNull (v.dot w) :=
  Nulls.isNull_add (Nulls.isNull_add (Nulls.isNull_mul_left _ hv.x) (Nulls.isNull_mul_left _ hv.y))
    (Nulls.isNull_mul_left _ hv.z)

/-- The vector product of two vectors that have nothing on an axis lies along it. -/
theorem isNull_cross {axis other : Axis} (hother : other ≠ axis) {v w : Vec3 α}
    (hv : Scalar.IsNull (v.coord axis)) (hw : Scalar.IsNull (w.coord axis)) :
    Scalar.IsNull ((v.cross w).coord other) := by
  cases axis <;> cases other
  all_goals first | exact absurd rfl hother | skip
  · exact Nulls.isNull_sub (Nulls.isNull_mul_right _ hw) (Nulls.isNull_mul_right _ hv)
  · exact Nulls.isNull_sub (Nulls.isNull_mul_left _ hv) (Nulls.isNull_mul_left _ hw)
  · exact Nulls.isNull_sub (Nulls.isNull_mul_left _ hv) (Nulls.isNull_mul_left _ hw)
  · exact Nulls.isNull_sub (Nulls.isNull_mul_right _ hw) (Nulls.isNull_mul_right _ hv)
  · exact Nulls.isNull_sub (Nulls.isNull_mul_right _ hw) (Nulls.isNull_mul_right _ hv)
  · exact Nulls.isNull_sub (Nulls.isNull_mul_left _ hv) (Nulls.isNull_mul_left _ hw)

/-- Of two vectors one has nothing on an axis, and the other one lies along it. -/
theorem isNull_dot {axis : Axis} {v w : Vec3 α} (hv : Scalar.IsNull (v.coord axis))
    (hw : ∀ other, other ≠ axis → Scalar.IsNull (w.coord other)) : Scalar.IsNull (v.dot w) := by
  have hterm (other : Axis) : Scalar.IsNull (v.coord other * w.coord other) := by
    by_cases h : other = axis
    · rw [h]
      exact Nulls.isNull_mul_left _ hv
    · exact Nulls.isNull_mul_right _ (hw other h)
  exact Nulls.isNull_add (Nulls.isNull_add (hterm .x) (hterm .y)) (hterm .z)

/-- A vector that is nowhere above or below zero has no direction. -/
theorem IsNull.normalizeOrZero_eq {v : Vec3 α} (hv : v.IsNull) : v.normalizeOrZero = zero :=
  if_neg (Nulls.not_pos_one_div_sqrt (hv.dot_left v))

end Vec3

/-- **A triangle with two corners in one place has no normal**, wherever its corners are. -/
theorem Triangle.normal_eq_zero [Scalar.Nulls α] {t : Triangle α}
    (h : t.a = t.b ∨ t.b = t.c ∨ t.c = t.a) : t.normal = Vec3.zero := by
  refine Vec3.IsNull.normalizeOrZero_eq ?_
  rcases h with hab | hbc | hca
  · rw [hab]
    exact (Vec3.isNull_sub_self t.b).cross_left _
  · rw [hbc]
    exact Vec3.isNull_cross_self _
  · rw [hca]
    exact (Vec3.isNull_sub_self t.a).cross_right _

end ConvexCollision
