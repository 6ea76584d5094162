import ConvexCollision.Proofs.Single.Error
import ConvexCollision.Proofs.Single.Positive

/-!
# ConvexCollision.Proofs.Single.Sum -- sums and the order of single precision

Adding one number to both sides keeps the order of two numbers, rounding and overflow included, wherever both
sums are defined: a finite number is added as its opposite is taken away, and an infinite one leaves nothing
else of either side. The ends of the finite range are two numbers.
-/

namespace ConvexCollision

/-- The finite range is not one number. -/
class Scalar.ProperRange (α : Type) [Scalar α] : Prop extends Scalar.FiniteRange α where
  /-- Its lower end is below its upper end. -/
  neg_maxFinite_lt : (-maxFinite : α) < maxFinite

/-- Sums keep the order of their terms, where they are defined. -/
class Scalar.SumOrdered (α : Type) [Scalar α] : Prop extends Scalar.Signed α where
  /-- The terms of a sum may be exchanged. -/
  add_comm : ∀ a b : α, a + b = b + a
  /-- Adding the same number keeps the order. -/
  add_le_add_right : ∀ {a b d : α}, a ≤ b → a + d ≤ a + d → b + d ≤ b + d → a + d ≤ b + d
  /-- A finite number and any defined one have a sum. -/
  defined_add_of_isFinite : ∀ {a d : α}, isFinite a = true → d ≤ d → a + d ≤ a + d

namespace Scalar

variable {α : Type} [Scalar α] [SumOrdered α] {a d : α}

theorem zero_le_zero : (0 : α) ≤ 0 := Ordered.defined_left Signed.zero_le_one

/-- Zero changes no value on the left of a sum either. -/
theorem zero_add_same (ha : a ≤ a) : same (0 + a) a = true := by
  rw [SumOrdered.add_comm]
  exact Signed.add_same ha (same_iff.mpr ⟨zero_le_zero, zero_le_zero⟩)

/-- What is not negative raises a number, if at all. -/
theorem le_add_of_nonneg (hd : 0 ≤ d) (h : a + d ≤ a + d) : a ≤ a + d := by
  have hzero := same_iff.mp (zero_add_same (Strict.defined_add h).1)
  rw [SumOrdered.add_comm a d] at h ⊢
  exact Ordered.le_trans hzero.2 (SumOrdered.add_le_add_right hd (Ordered.defined_left hzero.1) h)

/-- What is not positive lowers a number, if at all. -/
theorem add_le_of_nonpos (hd : d ≤ 0) (h : a + d ≤ a + d) : a + d ≤ a := by
  have hzero := same_iff.mp (zero_add_same (Strict.defined_add h).1)
  rw [SumOrdered.add_comm a d] at h ⊢
  exact Ordered.le_trans (SumOrdered.add_le_add_right hd h (Ordered.defined_left hzero.1)) hzero.1

end Scalar

namespace Single

open Float.Model Float.Model.UnpackedFloat

variable {x y d : Float32} {f g : UnpackedFloat}

theorem sum_eq_sub_neg (x y : Float32) : x + y = x - -y := by
  show ofParts (UnpackedFloat.add _ (parts x) (parts y)) =
    ofParts (UnpackedFloat.sub _ (parts x) (parts (-y)))
  rw [parts_neg, add_eq_sub_neg]

theorem add_comm_parts (f g : UnpackedFloat) :
    UnpackedFloat.add Format.binary32 f g = UnpackedFloat.add Format.binary32 g f := by
  cases f with
  | notANumber => cases g <;> rfl
  | infinity s =>
    cases g with
    | infinity t => cases s <;> cases t <;> rfl
    | _ => rfl
  | zero s =>
    cases g with
    | zero t => cases s <;> cases t <;> rfl
    | _ => rfl
  | finite s m e hm =>
    cases g with
    | finite t m' e' hm' =>
      simp only [UnpackedFloat.add]
      rw [Int.min_comm, Int.add_comm]
    | _ => rfl

/-- An infinite number leaves nothing else of a sum that is defined. -/
theorem at_add_infinity {t : Sign} (h : Defined (ofParts (UnpackedFloat.add Format.binary32 f (.infinity t)))) :
    At (UnpackedFloat.add Format.binary32 f (.infinity t)) (t.apply beyond) := by
  cases f with
  | notANumber => exact absurd h not_defined_notANumber
  | infinity s =>
    cases s <;> cases t
    · exact at_infinity .negative
    · exact absurd h not_defined_notANumber
    · exact absurd h not_defined_notANumber
    · exact at_infinity .positive
  | zero s => exact at_infinity t
  | finite s m e hm => exact at_infinity t

theorem add_le_add_right (h : x ≤ y) (hx : x + d ≤ x + d) (hy : y + d ≤ y + d) : x + d ≤ y + d := by
  have dd : Defined d := le_self_iff.mp (Scalar.Strict.defined_add hx).2
  rcases finite_or_infinity dd with hfinite | ⟨t, ht⟩
  · rw [sum_eq_sub_neg, sum_eq_sub_neg]
    exact sub_le_sub_right (isFinite_neg hfinite) h
  · have hat {z : Float32} (hz : z + d ≤ z + d) :
        At (UnpackedFloat.add Format.binary32 (parts z) (.infinity t)) (t.apply beyond) := by
      refine at_add_infinity ?_
      rw [← ht]
      exact le_self_iff.mp hz
    show ofParts (UnpackedFloat.add _ (parts x) (parts d)) ≤ ofParts (UnpackedFloat.add _ (parts y) (parts d))
    rw [ht]
    exact le_of_at (hat hx) (hat hy) (Int.le_refl _)

/-- A sum with a finite term is defined when the other term is. -/
theorem defined_add_of_isFinite (hx : (parts x).isFinite = true) (hd : Defined d) : Defined (x + d) := by
  rcases finite_or_infinity hd with hfinite | ⟨t, ht⟩
  · rw [sum_eq_sub_neg]
    exact (at_sub (held_parts x) (held_parts (-d)) hx (isFinite_neg hfinite)).defined
  · show Defined (ofParts (UnpackedFloat.add _ (parts x) (parts d)))
    rw [ht]
    cases hparts : parts x with
    | notANumber =>
      rw [hparts] at hx
      exact absurd hx Bool.false_ne_true
    | infinity s =>
      rw [hparts] at hx
      exact absurd hx Bool.false_ne_true
    | zero s => exact (at_infinity t).defined
    | finite s m e hm => exact (at_infinity t).defined

end Single

instance : Scalar.ProperRange Float32 where
  neg_maxFinite_lt := by decide +kernel

instance : Scalar.SumOrdered Float32 where
  add_comm x y := congrArg Single.ofParts (Single.add_comm_parts (Single.parts x) (Single.parts y))
  add_le_add_right := Single.add_le_add_right
  defined_add_of_isFinite ha hd :=
    Single.le_self_iff.mpr (Single.defined_add_of_isFinite ha (Single.le_self_iff.mp hd))

end ConvexCollision
