import ConvexCollision.Approach
import ConvexCollision.Proofs.Bounds

/-!
# ConvexCollision.Proofs.Signs -- undefined numbers, and numbers that are not negative

What is made of an undefined number is undefined (`Scalar.Strict`). Of defined numbers, squares, roots, and
sums, products and quotients of what is not negative are not negative, rounding and overflow included
(`Scalar.Signed`). Nothing here asks how exact an operation is.

Two things follow for vectors. A vector that is undefined throughout makes every vector undefined that it
enters, and has no direction. And a motion that closes in on something by more than it grazes does so at a
positive speed, if that speed is defined (`Approach.closing_pos`).
-/

namespace ConvexCollision

/-- What is made of an undefined number is undefined, and finite numbers are defined. -/
class Scalar.Strict (α : Type) [Scalar α] : Prop extends Scalar.Ordered α where
  /-- The terms of a sum that is defined. -/
  defined_add : ∀ {a b : α}, a + b ≤ a + b → a ≤ a ∧ b ≤ b
  /-- The terms of a difference that is defined. -/
  defined_sub : ∀ {a b : α}, a - b ≤ a - b → a ≤ a ∧ b ≤ b
  /-- The factors of a product that is defined. -/
  defined_mul : ∀ {a b : α}, a * b ≤ a * b → a ≤ a ∧ b ≤ b
  /-- The terms of a quotient that is defined. -/
  defined_div : ∀ {a b : α}, a / b ≤ a / b → a ≤ a ∧ b ≤ b
  /-- A number whose opposite is defined. -/
  defined_neg : ∀ {a : α}, -a ≤ -a → a ≤ a
  /-- A number whose root is defined. -/
  defined_sqrt : ∀ {a : α}, sqrt a ≤ sqrt a → a ≤ a
  /-- A finite number is defined. -/
  defined_of_isFinite : ∀ {a : α}, isFinite a = true → a ≤ a

/-- Signs of results, and what zero does to them. -/
class Scalar.Signed (α : Type) [Scalar α] : Prop extends Scalar.Strict α where
  /-- Zero comes before one. -/
  zero_le_one : (0 : α) ≤ 1
  /-- What a part of one leaves of it is finite. -/
  isFinite_one_sub : ∀ {t : α}, 0 ≤ t → t ≤ 1 → isFinite (1 - t) = true
  /-- A sum of numbers that are not negative. -/
  add_nonneg : ∀ {a b : α}, 0 ≤ a → 0 ≤ b → 0 ≤ a + b
  /-- A difference from a finite number that is not larger. -/
  sub_nonneg : ∀ {a b : α}, isFinite b = true → b ≤ a → 0 ≤ a - b
  /-- A square. -/
  mul_self_nonneg : ∀ {a : α}, a ≤ a → 0 ≤ a * a
  /-- A multiple of a number that is not negative by a finite positive one. -/
  mul_nonneg : ∀ {a b : α}, 0 ≤ a → 0 < b → isFinite b = true → 0 ≤ a * b
  /-- A quotient by a positive number. Of two infinite ones there is none. -/
  div_nonneg : ∀ {a b : α}, 0 ≤ a → 0 < b → a / b ≤ a / b → 0 ≤ a / b
  /-- A root. -/
  sqrt_nonneg : ∀ {a : α}, 0 ≤ a → 0 ≤ sqrt a
  /-- The difference of two numbers that are the same is zero. -/
  sub_same : ∀ {a b : α}, isFinite b = true → same a b = true → same (a - b) 0 = true
  /-- The opposite of zero is zero. -/
  neg_same_zero : ∀ {a : α}, same a 0 = true → same (-a) 0 = true
  /-- A finite multiple of zero is zero. -/
  mul_same_zero : ∀ {a b : α}, same a 0 = true → isFinite b = true → same (a * b) 0 = true
  /-- Adding zero changes no value. -/
  add_same : ∀ {a b : α}, a ≤ a → same b 0 = true → same (a + b) a = true

namespace Scalar

variable {α : Type} [Scalar α]

theorem same_iff {a b : α} : same a b = true ↔ a ≤ b ∧ b ≤ a := by
  simp only [same, Bool.and_eq_true, decide_eq_true_eq]

theorem same_trans [Ordered α] {a b c : α} (h : same a b = true) (g : same b c = true) :
    same a c = true := by
  obtain ⟨hab, hba⟩ := same_iff.mp h
  obtain ⟨hbc, hcb⟩ := same_iff.mp g
  exact same_iff.mpr ⟨Ordered.le_trans hab hbc, Ordered.le_trans hcb hba⟩

end Scalar

namespace Vec3

variable {α : Type} [Scalar α]

/-! ## §A Undefined vectors -/

/-- No coordinate is a number. -/
structure Undefined (v : Vec3 α) : Prop where
  /-- Not the first. -/
  x : ¬ v.x ≤ v.x
  /-- Not the second. -/
  y : ¬ v.y ≤ v.y
  /-- Not the third. -/
  z : ¬ v.z ≤ v.z

section Strict

variable [Scalar.Strict α] {v : Vec3 α}

open Scalar.Strict

theorem Undefined.add_right (h : v.Undefined) (w : Vec3 α) : (w + v).Undefined :=
  ⟨fun hx => h.x (defined_add hx).2, fun hy => h.y (defined_add hy).2, fun hz => h.z (defined_add hz).2⟩

theorem Undefined.sub_left (h : v.Undefined) (w : Vec3 α) : (v - w).Undefined :=
  ⟨fun hx => h.x (defined_sub hx).1, fun hy => h.y (defined_sub hy).1, fun hz => h.z (defined_sub hz).1⟩

theorem Undefined.sub_right (h : v.Undefined) (w : Vec3 α) : (w - v).Undefined :=
  ⟨fun hx => h.x (defined_sub hx).2, fun hy => h.y (defined_sub hy).2, fun hz => h.z (defined_sub hz).2⟩

theorem Undefined.mul (h : v.Undefined) (s : α) : (v * s).Undefined :=
  ⟨fun hx => h.x (defined_mul hx).1, fun hy => h.y (defined_mul hy).1, fun hz => h.z (defined_mul hz).1⟩

/-- An undefined multiple of any vector. -/
theorem undefined_mul (v : Vec3 α) {s : α} (hs : ¬ s ≤ s) : (v * s).Undefined :=
  ⟨fun hx => hs (defined_mul hx).2, fun hy => hs (defined_mul hy).2, fun hz => hs (defined_mul hz).2⟩

/-- The coordinates of the first vector of an inner product that is defined. -/
theorem defined_of_dot {w : Vec3 α} (h : v.dot w ≤ v.dot w) : v.x ≤ v.x ∧ v.y ≤ v.y ∧ v.z ≤ v.z := by
  obtain ⟨hxy, hz⟩ := defined_add h
  obtain ⟨hx, hy⟩ := defined_add hxy
  exact ⟨(defined_mul hx).1, (defined_mul hy).1, (defined_mul hz).1⟩

/-- An undefined vector has no direction. -/
theorem Undefined.normalizeOrZero_eq (h : v.Undefined) : v.normalizeOrZero = zero := by
  unfold normalizeOrZero
  refine if_neg fun hunit => ?_
  have hlength : v.length ≤ v.length := (defined_div (defined_of_isFinite hunit.1)).2
  exact h.x (defined_of_dot (defined_sqrt hlength)).1

end Strict

/-! ## §B Lengths -/

section Signed

variable [Scalar.Signed α] {v : Vec3 α}

open Scalar.Signed

theorem lengthSq_nonneg (hx : v.x ≤ v.x) (hy : v.y ≤ v.y) (hz : v.z ≤ v.z) : 0 ≤ v.lengthSq :=
  add_nonneg (add_nonneg (mul_self_nonneg hx) (mul_self_nonneg hy)) (mul_self_nonneg hz)

end Signed

/-! ## §C Places -/

/-- The two are the same vector, or the same in value. -/
def Agrees (v w : Vec3 α) : Prop := v = w ∨ v.same w = true

theorem same_iff {v w : Vec3 α} :
    v.same w = true ↔ ∀ axis, Scalar.same (v.coord axis) (w.coord axis) = true := by
  simp only [same, Bool.and_eq_true]
  constructor
  · rintro ⟨⟨hx, hy⟩, hz⟩ axis
    cases axis
    · exact hx
    · exact hy
    · exact hz
  · intro h
    exact ⟨⟨h .x, h .y⟩, h .z⟩

theorem Agrees.refl (v : Vec3 α) : v.Agrees v := .inl rfl

theorem Agrees.trans [Scalar.Ordered α] {u v w : Vec3 α} (h : u.Agrees v) (g : v.Agrees w) :
    u.Agrees w := by
  rcases h with rfl | h
  · exact g
  · rcases g with rfl | g
    · exact .inr h
    · exact .inr (same_iff.mpr fun axis => Scalar.same_trans (same_iff.mp h axis) (same_iff.mp g axis))

section Still

variable [Scalar.Signed α] {p q : Vec3 α}

open Scalar.Signed

/-- Of two vectors that agree and of which one is finite, the values are the same. -/
theorem Agrees.same (h : p.Agrees q) (hq : q.IsFinite) : p.same q = true := by
  rcases h with rfl | h
  · refine same_iff.mpr fun axis => Scalar.same_iff.mpr ?_
    have hdefined := Scalar.Strict.defined_of_isFinite (hq axis)
    exact ⟨hdefined, hdefined⟩
  · exact h

/-- What did not leave its place is not moved by going back a finite part of its way. -/
theorem Agrees.rewind (h : p.Agrees q) (hq : q.IsFinite) {s : α} (hs : Scalar.isFinite s = true) :
    (p + -(p - q) * s).Agrees p := by
  refine .inr (same_iff.mpr fun axis => ?_)
  have hsame := same_iff.mp (h.same hq) axis
  have hdefined : p.coord axis ≤ p.coord axis := Scalar.Ordered.defined_left (Scalar.same_iff.mp hsame).1
  have hstay := add_same hdefined (mul_same_zero (neg_same_zero (sub_same (hq axis) hsame)) hs)
  cases axis <;> exact hstay

end Still

end Vec3

/-! ## §D Closing in -/

/-- The fixed numbers of an approach are in order, and nothing has no direction. -/
class Approach.Tuned (α : Type) [Scalar α] : Prop where
  /-- A grazing motion closes in by something. -/
  grazing_pos : (0 : α) < grazing
  /-- It is a finite part of the length. -/
  isFinite_grazing : Scalar.isFinite (grazing : α) = true
  /-- The gap that is left is finite. -/
  isFinite_skin : Scalar.isFinite (skin : α) = true
  /-- It is not wider than what counts as touching. -/
  skin_le_touching : (skin : α) ≤ touching
  /-- There is no direction from the origin to itself. -/
  nowhere : (Vec3.zero - Vec3.zero : Vec3 α).normalizeOrZero = Vec3.zero

/-- A speed that is defined and above what counts as grazing is positive. -/
theorem Approach.closing_pos {α : Type} [Scalar α] [Scalar.Signed α] [Approach.Tuned α]
    {motion normal : Vec3 α} (hdefined : -(motion.dot normal) ≤ -(motion.dot normal))
    (hcloses : ¬ -(motion.dot normal) ≤ motion.length * grazing) : 0 < -(motion.dot normal) := by
  obtain ⟨hx, hy, hz⟩ := Vec3.defined_of_dot (Scalar.Strict.defined_neg hdefined)
  have hlength : 0 ≤ motion.length := Scalar.Signed.sqrt_nonneg (Vec3.lengthSq_nonneg hx hy hz)
  have hbound : 0 ≤ motion.length * grazing :=
    Scalar.Signed.mul_nonneg hlength Tuned.grazing_pos Tuned.isFinite_grazing
  have hle : motion.length * grazing ≤ -(motion.dot normal) :=
    (Scalar.Ordered.le_total hdefined (Scalar.Ordered.defined_right hbound)).resolve_left hcloses
  exact Scalar.lt_of_le_of_lt hbound (Scalar.Ordered.lt_iff.mpr ⟨hle, hcloses⟩)

end ConvexCollision
