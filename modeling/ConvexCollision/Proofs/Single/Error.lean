import Mathlib
import ConvexCollision.Proofs.Exact.Scalar
import ConvexCollision.Proofs.Single.Laws
import ConvexCollision.Proofs.Single.Sign

/-!
# ConvexCollision.Proofs.Single.Error -- how far a result is from the exact one

A finite number of single precision stands for a real number (`toReal`). Each operation on finite numbers
whose exact result is not too large gives a finite number near the exact result: a part of it away that is at
most `relative`, and where the result may be very small `absolute` besides. Quotients and roots are cut off
before they are rounded, and are told here with twice the error.
-/

namespace ConvexCollision.Single

open Float.Model Float.Model.UnpackedFloat

/-! ## §A The error of rounding -/

/-- The nearest quotient is off by half a unit at most. -/
theorem nearest_error (x n : Nat) :
    2 * (nearest x n * 2 ^ n) ≤ 2 * x + 2 ^ n ∧ 2 * x ≤ 2 * (nearest x n * 2 ^ n) + 2 ^ n := by
  have hx := Nat.div_add_mod x (2 ^ n)
  have hlt : x % 2 ^ n < 2 ^ n := Nat.mod_lt x (Nat.two_pow_pos n)
  generalize hq : x / 2 ^ n = q at hx
  generalize hr : x % 2 ^ n = r at hx hlt
  unfold nearest
  rw [hq, hr]
  split
  · constructor <;> nlinarith
  · split
    · rcases Nat.mod_two_eq_zero_or_one q with hodd | hodd <;> rw [hodd] <;> constructor <;> nlinarith
    · constructor <;> nlinarith

/-- The part of a result that rounding may be off by: half a unit of the last of 24 bits. -/
noncomputable def relative : ℝ := (2 ^ 24 : ℕ)⁻¹

/-- What a very small result may be off by: half of the smallest positive number. -/
noncomputable def absolute : ℝ := (2 * unit : ℕ)⁻¹

theorem relative_eq : relative = 1 / 16777216 := by norm_num [relative]

theorem relative_nonneg : 0 ≤ relative := by norm_num [relative_eq]

theorem absolute_eq : absolute = 2⁻¹ ^ 150 := by norm_num [absolute, unit]

theorem absolute_pos : 0 < absolute := by rw [absolute_eq]; positivity

theorem absolute_lt_one : absolute < 1 := by norm_num [absolute_eq]

/-- On the scale of the unit. -/
theorem rounded_mul_two_pow (x s : Nat) :
    rounded x s * 2 ^ s = nearest x (lastBit x s) * 2 ^ lastBit x s := by
  have hle := le_lastBit x s
  unfold rounded
  rw [Nat.mul_assoc, ← Nat.pow_add]
  congr 2
  omega

/-- Rounding is off by half of the last bit that is kept. -/
theorem rounded_error_lastBit (x s : Nat) : |(rounded x s : ℝ) * 2 ^ s - x| ≤ 2 ^ lastBit x s / 2 := by
  obtain ⟨hhigh, hlow⟩ := nearest_error x (lastBit x s)
  rw [← rounded_mul_two_pow] at hhigh hlow
  have hhigh : (2 * (rounded x s * 2 ^ s) : ℝ) ≤ 2 * x + 2 ^ lastBit x s := by exact_mod_cast hhigh
  have hlow : (2 * x : ℝ) ≤ 2 * (rounded x s * 2 ^ s) + 2 ^ lastBit x s := by exact_mod_cast hlow
  rw [abs_le]
  constructor <;> linarith

/-- Above the unit that is a small part of the number. -/
theorem lastBit_le_relative {x s : Nat} (h : s < lastBit x s) : (2 ^ lastBit x s / 2 : ℝ) ≤ relative * x := by
  have hlog : lastBit x s + 23 = x.log2 := by
    unfold lastBit at h ⊢
    omega
  have hpos : x ≠ 0 := by
    rintro rfl
    rw [Nat.log2_zero] at hlog
    omega
  have hx : 2 ^ lastBit x s * 2 ^ 23 ≤ x := by
    rw [← Nat.pow_add, hlog]
    exact Nat.log2_self_le hpos
  have hx : (2 ^ lastBit x s * 2 ^ 23 : ℝ) ≤ x := by exact_mod_cast hx
  rw [relative_eq]
  linarith

theorem relative_mul_nonneg (x : Nat) : (0 : ℝ) ≤ relative * x :=
  mul_nonneg relative_nonneg (Nat.cast_nonneg x)

theorem rounded_error (x s : Nat) :
    |(rounded x s : ℝ) * 2 ^ s - x| ≤ relative * x + 2 ^ s / 2 := by
  refine (rounded_error_lastBit x s).trans ?_
  have hx := relative_mul_nonneg x
  rcases Nat.lt_or_eq_of_le (le_lastBit x s) with hlt | heq
  · have hs : (0 : ℝ) < 2 ^ s := by positivity
    linarith [lastBit_le_relative hlt]
  · rw [← heq]
    linarith

/-- A whole number of units is only rounded where it is long. -/
theorem rounded_error_whole (x : Nat) : |(rounded x 0 : ℝ) - x| ≤ relative * x := by
  rcases Nat.lt_or_eq_of_le (le_lastBit x 0) with hlt | heq
  · have herror := (rounded_error_lastBit x 0).trans (lastBit_le_relative hlt)
    rwa [pow_zero, mul_one] at herror
  · have hsame : rounded x 0 = x := by
      have h := nearest_mul_two_pow x 0
      rw [Nat.pow_zero, Nat.mul_one] at h
      unfold rounded
      rw [← heq, h, Nat.sub_zero, Nat.pow_zero, Nat.mul_one]
    rw [hsame, sub_self, abs_zero]
    exact relative_mul_nonneg x

/-! ## §B Numbers near a real number -/

/-- The real number that a finite number stands for. -/
noncomputable def toReal (x : Float32) : ℝ := value x / unit

theorem toReal_eq (x : Float32) : toReal x = value x / 2 ^ 149 := by
  unfold toReal unit
  rw [Nat.cast_pow, Nat.cast_ofNat]

theorem toReal_lt_toReal {x y : Float32} (h : x < y) : toReal x < toReal y := by
  have hvalue : (value x : ℝ) < value y := by exact_mod_cast (lt_iff.mp h).2.2
  rw [toReal_eq, toReal_eq]
  exact div_lt_div_of_pos_right hvalue (by positivity)

theorem toReal_zero : toReal 0 = 0 := by
  rw [toReal_eq, value_zero, Int.cast_zero, zero_div]

/-- A number that is a whole number of units. -/
theorem toReal_of_value {x : Float32} {n : Int} (h : value x = n * 2 ^ 149) : toReal x = n := by
  rw [toReal_eq, h, Int.cast_mul, Int.cast_pow, Int.cast_ofNat]
  exact mul_div_cancel_right₀ _ (pow_ne_zero 149 two_ne_zero)

theorem toReal_one : toReal 1 = 1 := by
  have h := toReal_of_value (x := 1) (n := 1) (by decide +kernel)
  rwa [Int.cast_one] at h

/-- A finite number not farther from a real number than some error. -/
structure Near (x : Float32) (r error : ℝ) : Prop where
  /-- It is finite. -/
  finite : x.isFinite = true
  /-- How far it is. -/
  error_le : |toReal x - r| ≤ error

theorem exists_apply (z : Int) : ∃ (sign : Sign) (n : Nat), z = sign.apply n := by
  rcases Int.le_total 0 z with h | h
  · exact ⟨.positive, z.toNat, by rw [apply_positive]; omega⟩
  · exact ⟨.negative, (-z).toNat, by rw [apply_negative]; omega⟩

theorem abs_apply_sub (sign : Sign) (m n : Nat) (c : ℝ) :
    |((sign.apply m : Int) : ℝ) * c - (sign.apply n : Int)| = |m * c - n| := by
  cases sign
  · rw [apply_negative, apply_negative, ← abs_neg]
    congr 1
    push_cast
    ring
  · rfl

/-- Far below the infinite numbers nothing is rounded up to them. -/
theorem rounded_lt_beyond {n s : Nat} (h : n ≤ 2 ^ 249 * 2 ^ s) : rounded n s < beyond := by
  have hn : (n : ℝ) ≤ 2 ^ 249 * 2 ^ s := by exact_mod_cast h
  have herror := (abs_le.mp (rounded_error n s)).2
  have hs : (0 : ℝ) < 2 ^ s := by positivity
  have hlarge : (2 : ℝ) ^ s ≤ 2 ^ 249 * 2 ^ s := le_mul_of_one_le_left hs.le (by norm_num)
  have hlt : (rounded n s : ℝ) * 2 ^ s < 2 ^ 250 * 2 ^ s := by
    rw [relative_eq] at herror
    linarith
  have hlt : rounded n s < 2 ^ 250 := by exact_mod_cast lt_of_mul_lt_mul_right hlt hs.le
  exact hlt.trans_le (by decide)

/-- The exact result of an operation, on the scale of the unit, and what becomes of it. -/
theorem near_of_at {f : UnpackedFloat} {z : Int} {s : Nat} {error : ℝ} (h : At f (settle z s))
    (hz : z.natAbs ≤ 2 ^ 249 * 2 ^ s)
    (herror : |(rounded z.natAbs s : ℝ) * 2 ^ s - z.natAbs| ≤ error * 2 ^ (149 + s)) :
    Near (ofParts f) (z / 2 ^ (149 + s)) error := by
  obtain ⟨sign, n, rfl⟩ := exists_apply z
  rw [natAbs_apply] at hz herror
  have hlt := rounded_lt_beyond hz
  rw [settle_apply, Nat.min_eq_left hlt.le] at h
  refine ⟨isFinite_of_bounds h.defined ?_, ?_⟩
  · show (value (ofParts f)).natAbs < beyond
    rwa [h.value_eq, natAbs_apply]
  · have hscale : toReal (ofParts f) - ((sign.apply n : Int) : ℝ) / 2 ^ (149 + s) =
        (((sign.apply (rounded n s) : Int) : ℝ) * 2 ^ s - (sign.apply n : Int)) / 2 ^ (149 + s) := by
      rw [toReal_eq, h.value_eq, pow_add]
      field_simp
    rw [hscale, abs_div, abs_apply_sub, abs_of_pos (by positivity : (0 : ℝ) < 2 ^ (149 + s)),
      div_le_iff₀ (by positivity)]
    exact herror

variable {x y : Float32}

/-! ## §C Differences, sums and products -/

/-- A result that is not smaller than the unit. -/
theorem near_whole {f : UnpackedFloat} {z : Int} (h : At f (settle z 0))
    (hz : |(z : ℝ) / 2 ^ 149| ≤ 2 ^ 100) :
    Near (ofParts f) (z / 2 ^ 149) (relative * |(z : ℝ) / 2 ^ 149|) := by
  have habs : |(z : ℝ) / 2 ^ 149| = (z.natAbs : ℝ) / 2 ^ 149 := by
    rw [abs_div, abs_of_pos (by positivity : (0 : ℝ) < 2 ^ 149), Nat.cast_natAbs, Int.cast_abs]
  rw [habs] at hz ⊢
  refine near_of_at (s := 0) h ?_ ?_
  · rw [div_le_iff₀ (by positivity)] at hz
    have hz : (z.natAbs : ℝ) ≤ 2 ^ 249 * 2 ^ 0 := hz.trans (by norm_num)
    exact_mod_cast hz
  · rw [pow_zero, mul_one, mul_assoc, div_mul_cancel₀ _ (by positivity)]
    exact rounded_error_whole z.natAbs

/-- A result that may be smaller. -/
theorem near_scaled {f : UnpackedFloat} {z : Int} {s : Nat} (h : At f (settle z s))
    (hz : |(z : ℝ) / 2 ^ (149 + s)| ≤ 2 ^ 100) :
    Near (ofParts f) (z / 2 ^ (149 + s)) (relative * |(z : ℝ) / 2 ^ (149 + s)| + absolute) := by
  have habs : |(z : ℝ) / 2 ^ (149 + s)| = (z.natAbs : ℝ) / 2 ^ (149 + s) := by
    rw [abs_div, abs_of_pos (by positivity : (0 : ℝ) < 2 ^ (149 + s)), Nat.cast_natAbs, Int.cast_abs]
  rw [habs] at hz ⊢
  refine near_of_at h ?_ ?_
  · rw [div_le_iff₀ (by positivity), pow_add, ← mul_assoc, ← pow_add] at hz
    exact_mod_cast hz
  · have hunit : absolute * 2 ^ (149 + s) = 2 ^ s / 2 := by
      rw [absolute_eq]
      rw [pow_add]
      norm_num
      ring
    rw [add_mul, mul_assoc, div_mul_cancel₀ _ (by positivity), hunit]
    exact rounded_error z.natAbs s

/-- A difference. -/
theorem near_sub (hx : x.isFinite = true) (hy : y.isFinite = true) (h : |toReal x - toReal y| ≤ 2 ^ 100) :
    Near (x - y) (toReal x - toReal y) (relative * |toReal x - toReal y|) := by
  have hexact : toReal x - toReal y = ((value x - value y : Int) : ℝ) / 2 ^ 149 := by
    rw [toReal_eq, toReal_eq]
    push_cast
    ring
  rw [hexact] at h ⊢
  exact near_whole (at_sub (held_parts x) (held_parts y) hx hy) h

theorem add_eq_sub_neg (f g : UnpackedFloat) :
    UnpackedFloat.add Format.binary32 f g = UnpackedFloat.sub Format.binary32 f g.neg := by
  cases f with
  | notANumber => rfl
  | infinity s =>
    cases g with
    | infinity t => cases s <;> cases t <;> rfl
    | _ => rfl
  | zero s =>
    cases g with
    | zero t => cases s <;> cases t <;> rfl
    | infinity t => cases t <;> rfl
    | finite t m e hm => cases t <;> rfl
    | notANumber => rfl
  | finite s m e hm =>
    cases g with
    | infinity t => cases t <;> rfl
    | finite t m' e' hm' =>
      simp only [UnpackedFloat.add, UnpackedFloat.sub, UnpackedFloat.neg, apply_neg, Int.sub_neg]
    | _ => rfl

/-- A sum. -/
theorem near_add (hx : x.isFinite = true) (hy : y.isFinite = true) (h : |toReal x + toReal y| ≤ 2 ^ 100) :
    Near (x + y) (toReal x + toReal y) (relative * |toReal x + toReal y|) := by
  have hneg : toReal (-y) = -toReal y := by
    rw [toReal_eq, toReal_eq, value_neg]
    push_cast
    ring
  have hsum : x + y = x - -y := by
    show ofParts (UnpackedFloat.add _ (parts x) (parts y)) =
      ofParts (UnpackedFloat.sub _ (parts x) (parts (-y)))
    rw [parts_neg, add_eq_sub_neg]
  have hnear := near_sub hx (isFinite_neg hy) (by rwa [hneg, sub_neg_eq_add])
  rwa [hneg, sub_neg_eq_add, ← hsum] at hnear

/-- A product. -/
theorem near_mul (hx : x.isFinite = true) (hy : y.isFinite = true) (h : |toReal x * toReal y| ≤ 2 ^ 100) :
    Near (x * y) (toReal x * toReal y) (relative * |toReal x * toReal y| + absolute) := by
  have hexact : toReal x * toReal y = ((value x * value y : Int) : ℝ) / 2 ^ (149 + 149) := by
    rw [toReal_eq, toReal_eq, pow_add]
    push_cast
    ring
  rw [hexact] at h ⊢
  exact near_scaled (at_mul (held_parts x) (held_parts y) hx hy) h

end ConvexCollision.Single
