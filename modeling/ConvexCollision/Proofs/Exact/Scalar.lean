import Mathlib.Analysis.SpecialFunctions.Trigonometric.Basic
import ConvexCollision.Scalar

/-!
# ConvexCollision.Proofs.Exact.Scalar -- the real numbers as numbers of the geometry

The geometry is written over any type of numbers. Here it is read over the real numbers, where no
operation rounds and every number is finite. What the definitions of the geometry say over `ℝ` is
then a matter of exact arithmetic, and the laws of an ordered field apply to it.

The operations of the instance are the real ones themselves, so that only the numerals of the
geometry have to be brought into the usual form.
-/

namespace ConvexCollision

/-- The real numbers, with exact operations. Truncation to a machine word goes to the nearer end of
the word's range, as it does in single precision. -/
noncomputable instance : Scalar ℝ where
  decidableLt := Real.decidableLT
  decidableLe := Real.decidableLE
  ofInt := fun n => n
  abs := fun x => |x|
  sqrt := Real.sqrt
  floor := fun x => ⌊x⌋
  ceil := fun x => ⌈x⌉
  sin := Real.sin
  cos := Real.cos
  tan := Real.tan
  isFinite := fun _ => true
  toUInt16 := fun x => UInt16.ofNat (min 65535 ⌊x⌋₊)
  toInt32 := fun x =>
    Int32.ofInt (max (-2147483648) (min 2147483647 (if x < 0 then ⌈x⌉ else ⌊x⌋)))

/-- Numerals keep their usual meaning among the real numbers: this instance is found before the one
that reads them through the geometry. -/
noncomputable instance instOfNatReal (n : ℕ) : OfNat ℝ (n + 2) := instOfNatAtLeastTwo

/-- So do decimals, in whatever order a module imports the two meanings. -/
noncomputable instance instOfScientificReal : OfScientific ℝ := NNRatCast.toOfScientific

/-- So do quotients. -/
noncomputable instance instDivReal : Div ℝ := DivInvMonoid.toDiv

namespace Scalar

@[simp] theorem zero_real : @OfNat.ofNat ℝ 0 Scalar.instOfNat = 0 := by
  change (OfScientific.ofScientific 0 false 0 : ℝ) = 0
  norm_num

@[simp] theorem one_real : @OfNat.ofNat ℝ 1 Scalar.instOfNat = 1 := by
  change (OfScientific.ofScientific 1 false 0 : ℝ) = 1
  norm_num

@[simp] theorem ofNat_real (n : ℕ) [n.AtLeastTwo] :
    @OfNat.ofNat ℝ n Scalar.instOfNat = @OfNat.ofNat ℝ n instOfNatAtLeastTwo := by
  change (OfScientific.ofScientific n false 0 : ℝ) = (n : ℝ)
  rw [NNRatCast.ofScientific_eq_ite, if_neg Bool.false_ne_true]
  norm_cast
  simp

@[simp] theorem abs_real (x : ℝ) : Scalar.abs x = |x| := rfl

@[simp] theorem sqrt_real (x : ℝ) : Scalar.sqrt x = Real.sqrt x := rfl

@[simp] theorem ofInt_real (n : ℤ) : (Scalar.ofInt n : ℝ) = n := rfl

/-- Two real numbers that are the same are equal. -/
@[simp] theorem same_real (x y : ℝ) : Scalar.same x y = true ↔ x = y := by
  simp only [Scalar.same, Bool.and_eq_true, decide_eq_true_eq]
  exact le_antisymm_iff.symm

/-- The larger of two real numbers is their maximum. -/
@[simp] theorem maxNum_real (x y : ℝ) : Scalar.maxNum x y = max x y := by
  have hdef (t : ℝ) : Scalar.isUndefined t = false := by simp [Scalar.isUndefined]
  simp only [Scalar.maxNum, hdef, Bool.false_eq_true, if_false]
  split
  · exact (max_eq_left (le_of_lt ‹_›)).symm
  · exact (max_eq_right (le_of_not_gt ‹_›)).symm

end Scalar

end ConvexCollision
