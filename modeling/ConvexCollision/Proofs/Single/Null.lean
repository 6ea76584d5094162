import ConvexCollision.Proofs.Nulls
import ConvexCollision.Proofs.Single.Laws
import ConvexCollision.Proofs.Single.Sign

/-!
# ConvexCollision.Proofs.Single.Null -- zeros and undefined numbers of single precision

A number of single precision that is neither above nor below zero is one of the two zeros or the undefined
number (`isNull_iff`), and each operation tells what becomes of these before it rounds anything. The exact
difference of a finite number from itself is zero, so that nothing is rounded there either.
-/

namespace ConvexCollision

namespace Single

open Float.Model Float.Model.UnpackedFloat Scalar

variable {f g : UnpackedFloat} {x y : Float32}

/-! ## §A What is neither above nor below zero -/

/-- A zero, or undefined. -/
inductive Nothing : UnpackedFloat → Prop
  | notANumber : Nothing .notANumber
  | zero (sign : Sign) : Nothing (.zero sign)

theorem held_of_nothing (hf : Nothing f) : Held f := by
  cases hf <;> trivial

theorem isNull_iff : IsNull x ↔ Nothing (parts x) := by
  have hbeyond := beyond_pos
  have hzero : Defined (0 : Float32) := trivial
  show ¬ x < (0 : Float32) ∧ ¬ (0 : Float32) < x ↔ _
  rw [lt_iff, lt_iff, value_zero, Defined, value]
  constructor
  · intro h
    cases hparts : parts x with
    | notANumber => exact .notANumber
    | zero s => exact .zero s
    | infinity s =>
      rw [hparts, place_infinity] at h
      cases s
      · exact absurd ⟨trivial, hzero, show -(beyond : Int) < 0 by omega⟩ h.1
      · exact absurd ⟨hzero, trivial, show 0 < (beyond : Int) by omega⟩ h.2
    | finite s m e hm =>
      obtain ⟨n, hn, hplace⟩ := place_finite_sign s e hm
      rw [hparts, hplace] at h
      cases s
      · exact absurd ⟨trivial, hzero, show -(n : Int) < 0 by omega⟩ h.1
      · exact absurd ⟨hzero, trivial, show 0 < (n : Int) by omega⟩ h.2
  · intro h
    generalize parts x = f at h
    cases h with
    | notANumber => exact ⟨fun h => h.1, fun h => h.2.1⟩
    | zero s => exact ⟨fun h => Int.lt_irrefl 0 h.2.2, fun h => Int.lt_irrefl 0 h.2.2⟩

theorem isNull_ofParts (hf : Nothing f) : IsNull (ofParts f) := by
  rw [isNull_iff, parts_ofParts (held_of_nothing hf)]
  exact hf

/-! ## §B What is made of it -/

theorem nothing_sub_self (f : UnpackedFloat) : Nothing (UnpackedFloat.sub Format.binary32 f f) := by
  cases f with
  | notANumber => exact .notANumber
  | infinity s => cases s <;> exact .notANumber
  | zero s => cases s <;> exact .zero _
  | finite s m e hm =>
    simp only [UnpackedFloat.sub, Int.sub_self, UnpackedFloat.normalize]
    exact .zero _

theorem nothing_add (hf : Nothing f) (hg : Nothing g) :
    Nothing (UnpackedFloat.add Format.binary32 f g) := by
  cases hf with
  | notANumber => exact .notANumber
  | zero s =>
    cases hg with
    | notANumber => exact .notANumber
    | zero t => cases s <;> cases t <;> exact .zero _

theorem nothing_sub (hf : Nothing f) (hg : Nothing g) :
    Nothing (UnpackedFloat.sub Format.binary32 f g) := by
  cases hf with
  | notANumber => exact .notANumber
  | zero s =>
    cases hg with
    | notANumber => exact .notANumber
    | zero t => cases s <;> cases t <;> exact .zero _

theorem nothing_mul (hf : Nothing f) (g : UnpackedFloat) :
    Nothing (UnpackedFloat.mul Format.binary32 f g) := by
  cases hf with
  | notANumber => exact .notANumber
  | zero s =>
    cases g with
    | notANumber => exact .notANumber
    | infinity t => exact .notANumber
    | zero t => exact .zero _
    | finite t => exact .zero _

theorem mul_comm_parts (f g : UnpackedFloat) :
    UnpackedFloat.mul Format.binary32 f g = UnpackedFloat.mul Format.binary32 g f := by
  have hsign (s t : Sign) : s * t = t * s := by cases s <;> cases t <;> rfl
  cases f with
  | notANumber => cases g <;> rfl
  | infinity s =>
    cases g with
    | notANumber => rfl
    | zero t => rfl
    | infinity t => exact congrArg _ (hsign s t)
    | finite t => exact congrArg _ (hsign s t)
  | zero s =>
    cases g with
    | notANumber => rfl
    | infinity t => rfl
    | zero t => exact congrArg _ (hsign s t)
    | finite t => exact congrArg _ (hsign s t)
  | finite s m e hm =>
    cases g with
    | notANumber => rfl
    | infinity t => exact congrArg _ (hsign s t)
    | zero t => exact congrArg _ (hsign s t)
    | finite t m' e' hm' =>
      show roundWithAccuracy _ (s * t) (m * m') (e + e') .exact =
        roundWithAccuracy _ (t * s) (m' * m) (e' + e) .exact
      rw [hsign, Nat.mul_comm, Int.add_comm]

/-- Products do not depend on the order of their factors. -/
theorem product_comm (x y : Float32) : x * y = y * x :=
  congrArg ofParts (mul_comm_parts (parts x) (parts y))

/-- One divided by the root is infinite, or undefined. -/
theorem isFinite_one_div_sqrt (hx : Nothing (parts x)) :
    (1 / Scalar.sqrt x : Float32).isFinite = false := by
  have hroot : parts (Scalar.sqrt x) = parts x := by
    show parts (ofParts (UnpackedFloat.sqrt Format.binary32 (parts x))) = _
    generalize parts x = f at hx
    cases hx with
    | notANumber => rfl
    | zero s => cases s <;> rfl
  show (parts (ofParts (UnpackedFloat.div Format.binary32 (parts 1) (parts (Scalar.sqrt x))))).isFinite = _
  rw [hroot]
  generalize parts x = f at hx
  cases hx with
  | notANumber => rfl
  | zero s => cases s <;> rfl

end Single

open Single

instance : Scalar.Nulls Float32 where
  isNull_zero := isNull_iff.mpr (.zero .positive)
  isNull_sub_self x := isNull_ofParts (nothing_sub_self (parts x))
  isNull_add hx hy := isNull_ofParts (nothing_add (isNull_iff.mp hx) (isNull_iff.mp hy))
  isNull_sub hx hy := isNull_ofParts (nothing_sub (isNull_iff.mp hx) (isNull_iff.mp hy))
  isNull_mul_left y hx := isNull_ofParts (nothing_mul (isNull_iff.mp hx) (parts y))
  isNull_mul_right x y hy := by
    rw [product_comm]
    exact isNull_ofParts (nothing_mul (isNull_iff.mp hy) (parts x))
  not_pos_one_div_sqrt hx h :=
    Bool.false_ne_true ((isFinite_one_div_sqrt (isNull_iff.mp hx)).symm.trans h.1)

end ConvexCollision
