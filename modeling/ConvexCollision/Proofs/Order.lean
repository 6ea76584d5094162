import Mathlib.Tactic.ByContra
import ConvexCollision.Scalar

/-!
# ConvexCollision.Proofs.Order -- what the geometry may rely on about its numbers

The definitions of the library need no law of `Scalar`. Some of their properties do, and the laws
that they need are named here, a class for each group, so that a statement shows what it rests on.

An undefined number is below nothing, so `a ≤ a` says that `a` is defined. The order laws speak of
defined numbers only, and the infinite ones are among them.
-/

namespace ConvexCollision

/-- Comparisons put the defined numbers in one order, and undefined numbers outside of it. -/
class Scalar.Ordered (α : Type) [Scalar α] : Prop where
  /-- The order is transitive. -/
  le_trans : ∀ {a b c : α}, a ≤ b → b ≤ c → a ≤ c
  /-- What is below something is defined. -/
  defined_left : ∀ {a b : α}, a ≤ b → a ≤ a
  /-- What is above something is defined. -/
  defined_right : ∀ {a b : α}, a ≤ b → b ≤ b
  /-- Defined numbers can be compared. -/
  le_total : ∀ {a b : α}, a ≤ a → b ≤ b → a ≤ b ∨ b ≤ a
  /-- The strict order is the order in one direction only. -/
  lt_iff : ∀ {a b : α}, a < b ↔ a ≤ b ∧ ¬ b ≤ a

/-- Rounding to whole numbers keeps the order, and rounding down ends no higher than rounding up. -/
class Scalar.WholeParts (α : Type) [Scalar α] : Prop extends Scalar.Ordered α where
  /-- Rounding down keeps the order. -/
  floor_mono : ∀ {a b : α}, a ≤ b → floor a ≤ floor b
  /-- Rounding up keeps the order. -/
  ceil_mono : ∀ {a b : α}, a ≤ b → ceil a ≤ ceil b
  /-- A defined number lies between its two roundings, so these are in order. -/
  floor_le_ceil : ∀ {a : α}, a ≤ a → floor a ≤ ceil a

/-- The finite numbers lie between two of them. -/
class Scalar.FiniteRange (α : Type) [Scalar α] : Prop extends Scalar.Ordered α where
  /-- The upper end of the range is finite. -/
  isFinite_maxFinite : isFinite (maxFinite : α) = true
  /-- The lower end of the range is finite. -/
  isFinite_neg_maxFinite : isFinite (-maxFinite : α) = true
  /-- A finite number is not above the range. -/
  le_maxFinite : ∀ {a : α}, isFinite a = true → a ≤ maxFinite
  /-- A finite number is not below the range. -/
  neg_maxFinite_le : ∀ {a : α}, isFinite a = true → -maxFinite ≤ a

/-- Finite numbers are defined, and so are the two ends of the range. The range may go on beyond them,
as it does among the real numbers. -/
class Scalar.FiniteEnds (α : Type) [Scalar α] : Prop extends Scalar.Ordered α where
  /-- The upper end is finite. -/
  isFinite_maxFinite : isFinite (maxFinite : α) = true
  /-- The lower end is finite. -/
  isFinite_neg_maxFinite : isFinite (-maxFinite : α) = true
  /-- A finite number is defined. -/
  defined : ∀ {a : α}, isFinite a = true → a ≤ a

namespace Scalar

variable {α : Type} [Scalar α]

instance [FiniteRange α] : FiniteEnds α where
  isFinite_maxFinite := FiniteRange.isFinite_maxFinite
  isFinite_neg_maxFinite := FiniteRange.isFinite_neg_maxFinite
  defined h := Ordered.defined_left (FiniteRange.le_maxFinite h)

theorem isUndefined_eq_false {a : α} (ha : a ≤ a) : isUndefined a = false := by
  unfold isUndefined
  rw [decide_eq_true ha]
  rfl

theorem maxNum_eq {a b : α} (ha : a ≤ a) (hb : b ≤ b) : maxNum a b = if b < a then a else b := by
  unfold maxNum
  rw [isUndefined_eq_false ha, isUndefined_eq_false hb]
  rfl

theorem minNum_eq {a b : α} (ha : a ≤ a) (hb : b ≤ b) : minNum a b = if a < b then a else b := by
  unfold minNum
  rw [isUndefined_eq_false ha, isUndefined_eq_false hb]
  rfl

variable [Ordered α]

theorem le_of_not_lt {a b : α} (ha : a ≤ a) (hb : b ≤ b) (h : ¬ b < a) : a ≤ b := by
  rcases Ordered.le_total ha hb with hab | hba
  · exact hab
  · by_contra hab
    exact h (Ordered.lt_iff.mpr ⟨hba, hab⟩)

theorem lt_irrefl (a : α) : ¬ a < a := fun h =>
  (Ordered.lt_iff.mp h).2 (Ordered.lt_iff.mp h).1

theorem lt_of_lt_of_le {a b c : α} (h : a < b) (g : b ≤ c) : a < c := by
  obtain ⟨hab, hba⟩ := Ordered.lt_iff.mp h
  exact Ordered.lt_iff.mpr ⟨Ordered.le_trans hab g, fun hca => hba (Ordered.le_trans g hca)⟩

theorem lt_of_le_of_lt {a b c : α} (h : a ≤ b) (g : b < c) : a < c := by
  obtain ⟨hbc, hcb⟩ := Ordered.lt_iff.mp g
  exact Ordered.lt_iff.mpr ⟨Ordered.le_trans h hbc, fun hca => hcb (Ordered.le_trans hca h)⟩

/-- The greater of two numbers is not below the second one, whatever the first. -/
theorem le_maxNum_right {a b : α} (hb : b ≤ b) : b ≤ maxNum a b := by
  unfold maxNum
  split
  · next hlt => exact (Ordered.lt_iff.mp hlt).1
  · rw [isUndefined_eq_false hb]
    split <;> exact hb

theorem le_maxNum_left {a b : α} (ha : a ≤ a) (hb : b ≤ b) : a ≤ maxNum a b := by
  rw [maxNum_eq ha hb]
  split
  · exact ha
  · next hlt => exact le_of_not_lt ha hb hlt

theorem maxNum_le {a b c : α} (ha : a ≤ c) (hb : b ≤ c) : maxNum a b ≤ c := by
  rw [maxNum_eq (Ordered.defined_left ha) (Ordered.defined_left hb)]
  split
  · exact ha
  · exact hb

theorem minNum_le_left {a b : α} (ha : a ≤ a) (hb : b ≤ b) : minNum a b ≤ a := by
  rw [minNum_eq ha hb]
  split
  · exact ha
  · next hlt => exact le_of_not_lt hb ha hlt

theorem minNum_le_right {a b : α} (ha : a ≤ a) (hb : b ≤ b) : minNum a b ≤ b := by
  rw [minNum_eq ha hb]
  split
  · next hlt => exact (Ordered.lt_iff.mp hlt).1
  · exact hb

theorem le_minNum {a b c : α} (ha : c ≤ a) (hb : c ≤ b) : c ≤ minNum a b := by
  rw [minNum_eq (Ordered.defined_right ha) (Ordered.defined_right hb)]
  split
  · exact ha
  · exact hb

/-- An undefined number gives way. -/
theorem maxNum_of_undefined {a : α} (b : α) (ha : ¬ a ≤ a) : maxNum a b = b := by
  unfold maxNum
  have hlt : ¬ b < a := fun hlt => ha (Ordered.defined_right (Ordered.lt_iff.mp hlt).1)
  have hundefined : isUndefined a = true := by
    unfold isUndefined
    rw [decide_eq_false ha]
    rfl
  rw [if_neg hlt, hundefined, if_pos rfl]

end Scalar

theorem Scalar.floor_le_ceil_of_le {α : Type} [Scalar α] [WholeParts α] {a b : α} (h : a ≤ b) :
    floor a ≤ ceil b :=
  Ordered.le_trans (WholeParts.floor_mono h) (WholeParts.floor_le_ceil (Ordered.defined_right h))

end ConvexCollision
