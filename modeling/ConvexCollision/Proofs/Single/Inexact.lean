import Mathlib
import ConvexCollision.Proofs.Single.Error

/-!
# ConvexCollision.Proofs.Single.Inexact -- the error of quotients and roots

Quotients and roots are cut off to a whole mantissa before they are rounded, and a note is kept on which side
of the half the rest lies. Such a mantissa is rounded like one with two more bits
(`roundWithAccuracy_inexact`), which stands a quarter of a unit from the exact result at most. The mantissa is
long enough for that to be half of the error of rounding, or the result is very small.
-/

namespace ConvexCollision.Single

open Float.Model Float.Model.UnpackedFloat

/-! ## §A Two more bits -/

/-- The two bits that stand for what is known of the rest. -/
def quarters : Accuracy → Nat
  | .exact => 0
  | .inexact .lt => 1
  | .inexact .eq => 2
  | .inexact .gt => 3

theorem quarters_le (acc : Accuracy) : quarters acc ≤ 3 := by
  rcases acc with _ | (_ | _ | _) <;> decide

theorem ofMantissaAndAccuracy_eq (m : Nat) (acc : Accuracy) :
    ExtendedMantissa.ofMantissaAndAccuracy m acc = shifted (4 * m + quarters acc) 2 := by
  have hdiv (k : Nat) (hk : k ≤ 3) : (4 * m + k) / 4 = m := by omega
  have hmod (k : Nat) (hk : k ≤ 3) : (4 * m + k) % 4 = k := by omega
  rcases acc with _ | (_ | _ | _) <;>
    simp [ExtendedMantissa.ofMantissaAndAccuracy, shifted, quarters, hdiv, hmod]

theorem shiftRight_inexact (m n : Nat) (acc : Accuracy) :
    ExtendedMantissa.ofMantissaAndAccuracy m acc >>> n = shifted (4 * m + quarters acc) (n + 2) := by
  show n.repeat ExtendedMantissa.shiftRightOne _ = _
  induction n with
  | zero => exact ofMantissaAndAccuracy_eq m acc
  | succ n ih => rw [Nat.repeat, ih, shiftRightOne_shifted, Nat.add_right_comm]

/-- The longer mantissa is cut at the same place. -/
theorem shiftToTargetExponent_inexact {m : Nat} {e : Int} (acc : Accuracy) (h : 2 ^ 23 ≤ m ∨ e ≤ -149) :
    shiftToTargetExponent Format.binary32 m e acc =
      shiftToTargetExponent Format.binary32 (4 * m + quarters acc) (e - 2) .exact := by
  have hk := quarters_le acc
  have htarget : max ((m.log2 : Int) - 23 + e) (-149) =
        max (((4 * m + quarters acc).log2 : Int) - 23 + (e - 2)) (-149) ∧
      e ≤ max ((m.log2 : Int) - 23 + e) (-149) := by
    rcases Nat.eq_zero_or_pos m with rfl | hm
    · have he : e ≤ -149 := h.resolve_left (by decide)
      have hlog : (4 * 0 + quarters acc).log2 ≤ 1 := by
        generalize quarters acc = k at hk
        interval_cases k <;> decide
      rw [Nat.log2_zero]
      omega
    · have hlog : (4 * m + quarters acc).log2 = m.log2 + 2 := by
        obtain ⟨hle, hlt⟩ := (Nat.log2_eq_iff (Nat.ne_of_gt hm)).mp rfl
        refine (Nat.log2_eq_iff (by omega)).mpr ?_
        rw [Nat.pow_succ] at hlt
        constructor
        · rw [Nat.pow_add]
          omega
        · rw [Nat.pow_succ, Nat.pow_add]
          omega
      rw [← Nat.le_log2 (Nat.ne_of_gt hm)] at h
      rw [hlog]
      omega
  have hshift : (max (((4 * m + quarters acc).log2 : Int) - 23 + (e - 2)) (-149) - (e - 2)).toNat =
      (max ((m.log2 : Int) - 23 + e) (-149) - e).toNat + 2 := by
    rw [← htarget.1]
    omega
  rw [shiftToTargetExponent_exact, hshift]
  unfold shiftToTargetExponent shiftToExponent
  simp only [targetExponent_eq, shiftRight_inexact]
  congr 1
  omega

/-- **What was cut off is rounded like two more bits.** -/
theorem roundWithAccuracy_inexact (sign : Sign) {m : Nat} {e : Int} (acc : Accuracy)
    (h : 2 ^ 23 ≤ m ∨ e ≤ -149) : roundWithAccuracy Format.binary32 sign m e acc =
      roundWithAccuracy Format.binary32 sign (4 * m + quarters acc) (e - 2) .exact := by
  unfold roundWithAccuracy
  rw [shiftToTargetExponent_inexact acc h]

/-! ## §B The error of a mantissa that was cut off -/

/-- One, or minus one. -/
noncomputable def factor (sign : Sign) : ℝ := (sign.apply 1 : Int)

@[simp] theorem factor_positive : factor .positive = 1 := by norm_num [factor]

@[simp] theorem factor_negative : factor .negative = -1 := by norm_num [factor]

theorem apply_eq_factor (sign : Sign) (n : Nat) : ((sign.apply n : Int) : ℝ) = factor sign * n := by
  cases sign
  · rw [apply_negative, factor_negative]
    push_cast
    ring
  · rw [apply_positive, factor_positive, one_mul]
    rfl

theorem abs_factor (sign : Sign) : |factor sign| = 1 := by
  cases sign <;> simp

/-- What a mantissa with two more bits stands for. -/
theorem apply_quarters (sign : Sign) (n : Nat) {e : Int} {s : Nat} (hs : -149 - (s : Int) ≤ e - 2) :
    ((sign.apply (n * 2 ^ (e - 2 + 149 + s).toNat : Nat) : Int) : ℝ) / 2 ^ (149 + s) =
      factor sign * (n / 4 * (2 : ℝ) ^ e) := by
  have hunit : (2 : ℝ) ^ (e - 2 + 149 + s).toNat = (2 : ℝ) ^ e / 4 * 2 ^ (149 + s) := by
    have hplace : e - 2 + 149 + s = e + ((149 + s : Nat) : Int) - 2 := by
      push_cast
      ring
    rw [← zpow_natCast, ← zpow_natCast, Int.toNat_of_nonneg (by omega), hplace, zpow_sub₀ two_ne_zero,
      zpow_add₀ two_ne_zero]
    norm_num
    ring
  rw [apply_eq_factor]
  push_cast
  rw [hunit]
  field_simp

/-- A quarter of a unit is half of what rounding is off by. -/
theorem quarter_le {m : Nat} {e : Int} {r : ℝ} (hlong : 2 ^ 23 ≤ m ∨ e ≤ -149) (hm : m * (2 : ℝ) ^ e ≤ r) :
    (2 : ℝ) ^ e / 4 ≤ (relative * r + absolute) / 2 := by
  have hr : 0 ≤ r := le_trans (by positivity) hm
  rw [relative_eq]
  rcases hlong with hlong | hsmall
  · have hm23 : (2 ^ 23 : ℝ) ≤ m := by exact_mod_cast hlong
    have hunit : (2 : ℝ) ^ 23 * (2 : ℝ) ^ e ≤ m * (2 : ℝ) ^ e := by gcongr
    have habsolute := absolute_pos
    linarith
  · have hunit : (2 : ℝ) ^ e ≤ (2 : ℝ) ^ (-149 : Int) := zpow_le_zpow_right₀ one_le_two hsmall
    have habsolute : (2 : ℝ) ^ (-149 : Int) = 2 * absolute := by
      rw [absolute_eq]
      norm_num
    linarith

/-- A mantissa with a note on its rest stands for a number a quarter of a unit away at most. -/
theorem near_inexact (sign : Sign) {m : Nat} {e : Int} {acc : Accuracy} {r : ℝ}
    (hlong : 2 ^ 23 ≤ m ∨ e ≤ -149) (hpos : 0 < 4 * m + quarters acc) (hm : m * (2 : ℝ) ^ e ≤ r)
    (hr : |r - (4 * m + quarters acc : ℕ) / 4 * (2 : ℝ) ^ e| ≤ (2 : ℝ) ^ e / 4) (hle : r ≤ 2 ^ 99) :
    Near (ofParts (roundWithAccuracy Format.binary32 sign m e acc)) (factor sign * r)
      (2 * (relative * r + absolute)) := by
  obtain ⟨s, hs⟩ : ∃ s : Nat, -149 - (s : Int) ≤ e - 2 := ⟨(-147 - e).toNat, by omega⟩
  obtain ⟨N, hN⟩ : ∃ N, N = 4 * m + quarters acc := ⟨_, rfl⟩
  rw [← hN] at hpos hr
  have hout := (roundWithAccuracy_exact sign s hpos hs (by omega)).at
  rw [hN, ← roundWithAccuracy_inexact sign acc hlong, ← hN] at hout
  have hexact := apply_quarters sign N hs
  have hmagnitude : |factor sign * (N / 4 * (2 : ℝ) ^ e)| = N / 4 * (2 : ℝ) ^ e := by
    rw [abs_mul, abs_factor, one_mul, abs_of_nonneg (by positivity)]
  have hquarter := quarter_le hlong hm
  obtain ⟨hlow, hhigh⟩ := abs_le.mp hr
  have hbound : N / 4 * (2 : ℝ) ^ e ≤ 2 ^ 100 := by
    have habsolute := absolute_lt_one
    rw [relative_eq] at hquarter
    linarith
  have hnear := near_scaled hout (by rwa [hexact, hmagnitude])
  rw [hexact, hmagnitude] at hnear
  refine ⟨hnear.finite, ?_⟩
  have hfactor : |factor sign * (N / 4 * (2 : ℝ) ^ e) - factor sign * r| ≤ (2 : ℝ) ^ e / 4 := by
    rw [← mul_sub, abs_mul, abs_factor, one_mul, abs_sub_comm]
    exact hr
  have hrounded := hnear.error_le
  rw [relative_eq] at hrounded hquarter ⊢
  calc |toReal _ - factor sign * r|
      ≤ |toReal _ - factor sign * (N / 4 * (2 : ℝ) ^ e)| +
          |factor sign * (N / 4 * (2 : ℝ) ^ e) - factor sign * r| := abs_sub_le _ _ _
    _ ≤ 2 * (1 / 16777216 * r + absolute) := by linarith

/-! ## §C Quotients -/

theorem targetExponent_diff (m₁ m₂ : Nat) (e₁ e₂ : Int) :
    Format.binary32.targetExponent (totalExponent m₁ e₁ - totalExponent m₂ e₂) =
      max ((m₁.log2 : Int) + e₁ - m₂.log2 - e₂ - 24) (-149) := by
  have hbits : Format.binary32.mantissaBits = 24 := rfl
  have hleast : Format.binary32.minExponent = -149 := rfl
  unfold Format.targetExponent totalExponent
  rw [hbits, hleast]
  omega

/-- The note on the rest of a division. -/
theorem quarters_accuracyOfFraction {n d : Nat} (h : n < d) :
    4 * n ≤ (quarters (accuracyOfFraction n d) + 1) * d ∧
      quarters (accuracyOfFraction n d) * d ≤ 4 * n + d ∧
      (0 < n → 0 < quarters (accuracyOfFraction n d)) := by
  unfold accuracyOfFraction
  split
  · next hzero => simp [quarters, hzero]
  · next hpos =>
    rcases Nat.lt_trichotomy (2 * n) d with hlt | heq | hgt
    · rw [Nat.compare_eq_lt.mpr hlt]
      simp only [quarters]
      omega
    · rw [Nat.compare_eq_eq.mpr heq]
      simp only [quarters]
      omega
    · rw [Nat.compare_eq_gt.mpr hgt]
      simp only [quarters]
      omega

/-- A quotient of mantissas is long, or its exponent is the least one. -/
theorem divCore_long {m₁ m₂ : Nat} (e₁ e₂ : Int) (h₁ : 0 < m₁) (h₂ : 0 < m₂) :
    2 ^ 23 ≤ (divCore Format.binary32 m₁ e₁ m₂ e₂).1 ∨
      (divCore Format.binary32 m₁ e₁ m₂ e₂).2.1 ≤ -149 := by
  unfold divCore
  simp only [targetExponent_diff, Nat.shiftLeft_eq]
  generalize hte : min (e₁ - e₂) (max ((m₁.log2 : Int) + e₁ - m₂.log2 - e₂ - 24) (-149)) = te
  generalize hj : (e₁ - e₂ - te).toNat = j
  rcases lt_or_ge (-149) te with hlarge | hleast
  · left
    have hbits : 23 + (m₂.log2 + 1) ≤ m₁.log2 + j := by omega
    rw [Nat.le_div_iff_mul_le h₂]
    calc 2 ^ 23 * m₂ ≤ 2 ^ 23 * 2 ^ (m₂.log2 + 1) := Nat.mul_le_mul_left _ Nat.lt_log2_self.le
      _ = 2 ^ (23 + (m₂.log2 + 1)) := (Nat.pow_add 2 23 _).symm
      _ ≤ 2 ^ (m₁.log2 + j) := Nat.pow_le_pow_right (by decide) hbits
      _ = 2 ^ m₁.log2 * 2 ^ j := Nat.pow_add 2 _ _
      _ ≤ m₁ * 2 ^ j := Nat.mul_le_mul_right _ (Nat.log2_self_le (Nat.ne_of_gt h₁))
  · exact .inr hleast

/-- A whole quotient is below the exact one, and the note on its rest tells the quarter it is in. -/
theorem div_quarter {n d : Nat} (hn : 0 < n) (hd : 0 < d) :
    0 < 4 * (n / d) + quarters (accuracyOfFraction (n % d) d) ∧ ((n / d : ℕ) : ℝ) ≤ (n : ℝ) / d ∧
      |(n : ℝ) / d - ((4 * (n / d) + quarters (accuracyOfFraction (n % d) d) : ℕ) : ℝ) / 4| ≤ 1 / 4 := by
  have hbelow : ((n / d : ℕ) : ℝ) ≤ (n : ℝ) / d := Nat.cast_div_le
  have hdiv := Nat.div_add_mod n d
  have hlt : n % d < d := Nat.mod_lt n hd
  obtain ⟨hhigh, hlow, hrest⟩ := quarters_accuracyOfFraction hlt
  generalize accuracyOfFraction (n % d) d = acc at hhigh hlow hrest
  generalize n / d = q at hdiv hbelow
  generalize n % d = rest at hdiv hhigh hlow hrest hlt
  have hd : (0 : ℝ) < d := by exact_mod_cast hd
  have hdiv_real : (d * q + rest : ℝ) = n := by exact_mod_cast hdiv
  have hhigh : (4 * rest : ℝ) ≤ (quarters acc + 1) * d := by exact_mod_cast hhigh
  have hlow : (quarters acc * d : ℝ) ≤ 4 * rest + d := by exact_mod_cast hlow
  refine ⟨?_, hbelow, ?_⟩
  · rcases Nat.eq_zero_or_pos q with rfl | hq
    · have hrest := hrest (by omega)
      omega
    · omega
  · have hquotient : (n : ℝ) / d - ((4 * q + quarters acc : ℕ) : ℝ) / 4 =
        (4 * rest - quarters acc * d) / (4 * d) := by
      rw [← hdiv_real]
      push_cast
      field_simp
      ring
    rw [hquotient, abs_div, abs_of_pos (by positivity : (0 : ℝ) < 4 * d), div_le_iff₀ (by positivity), abs_le]
    constructor <;> linarith

/-- A quotient of mantissas is cut off below the exact one, and its note tells the quarter it is in. -/
theorem divCore_quarter {m₁ m₂ : Nat} (e₁ e₂ : Int) (h₁ : 0 < m₁) (h₂ : 0 < m₂) :
    let (m, e, acc) := divCore Format.binary32 m₁ e₁ m₂ e₂
    let r := m₁ * (2 : ℝ) ^ e₁ / (m₂ * (2 : ℝ) ^ e₂)
    0 < 4 * m + quarters acc ∧ m * (2 : ℝ) ^ e ≤ r ∧
      |r - (4 * m + quarters acc : ℕ) / 4 * (2 : ℝ) ^ e| ≤ (2 : ℝ) ^ e / 4 := by
  unfold divCore
  simp only [targetExponent_diff, Nat.shiftLeft_eq]
  generalize hte : min (e₁ - e₂) (max ((m₁.log2 : Int) + e₁ - m₂.log2 - e₂ - 24) (-149)) = te
  obtain ⟨j, hj⟩ : ∃ j : Nat, e₁ - e₂ - te = j := ⟨(e₁ - e₂ - te).toNat, by omega⟩
  rw [hj, Int.toNat_natCast]
  have hm : 0 < m₁ * 2 ^ j := Nat.mul_pos h₁ (Nat.two_pow_pos j)
  -- the quotient of the longer mantissas
  have hr : m₁ * (2 : ℝ) ^ e₁ / (m₂ * (2 : ℝ) ^ e₂) = (m₁ * 2 ^ j : ℕ) / (m₂ : ℝ) * (2 : ℝ) ^ te := by
    have hpow : (2 : ℝ) ^ e₁ = 2 ^ j * (2 : ℝ) ^ te * (2 : ℝ) ^ e₂ := by
      rw [← zpow_natCast, ← zpow_add₀ two_ne_zero, ← zpow_add₀ two_ne_zero]
      congr 1
      omega
    rw [hpow]
    push_cast
    field_simp
  rw [hr]
  obtain ⟨hsome, hbelow, hquarter⟩ := div_quarter hm h₂
  have hpow : (0 : ℝ) < (2 : ℝ) ^ te := by positivity
  refine ⟨hsome, mul_le_mul_of_nonneg_right hbelow hpow.le, ?_⟩
  rw [← sub_mul, abs_mul, abs_of_pos hpow]
  linarith [mul_le_mul_of_nonneg_right hquarter hpow.le]

theorem toReal_finite {x : Float32} {s : Sign} {m : Nat} {e : Int} {hm : 0 < m}
    (h : parts x = .finite s m e hm) : toReal x = factor s * (m * (2 : ℝ) ^ e) := by
  have hheld := held_parts x
  rw [h] at hheld
  have hleast := hheld.1.least
  have hunit : (2 : ℝ) ^ (e + 149).toNat = (2 : ℝ) ^ e * 2 ^ 149 := by
    rw [← zpow_natCast, Int.toNat_of_nonneg (by omega), zpow_add₀ two_ne_zero]
    rfl
  rw [toReal_eq]
  unfold value
  rw [h, place_finite hheld.1 hheld.2, apply_eq_factor]
  push_cast
  rw [hunit]
  field_simp

theorem factor_div (s t : Sign) : factor (s / t) = factor s / factor t := by
  cases s <;> cases t
  · show factor .positive = factor .negative / factor .negative
    norm_num
  · show factor .negative = factor .negative / factor .positive
    norm_num
  · show factor .negative = factor .positive / factor .negative
    norm_num
  · show factor .positive = factor .positive / factor .positive
    norm_num

variable {x y : Float32}

theorem zero_or_finite (hx : x.isFinite = true) : (∃ s, parts x = .zero s) ∨
    ∃ s m e hm, parts x = .finite s m e hm := by
  have hfinite : (parts x).isFinite = true := hx
  cases hparts : parts x with
  | notANumber =>
    rw [hparts] at hfinite
    exact absurd hfinite Bool.false_ne_true
  | infinity s =>
    rw [hparts] at hfinite
    exact absurd hfinite Bool.false_ne_true
  | zero s => exact .inl ⟨s, rfl⟩
  | finite s m e hm => exact .inr ⟨s, m, e, hm, rfl⟩

theorem toReal_of_zero {s : Sign} (h : parts x = .zero s) : toReal x = 0 := by
  rw [toReal_eq]
  unfold value
  rw [h]
  show ((0 : Int) : ℝ) / 2 ^ 149 = 0
  norm_num

theorem near_zero (s : Sign) {error : ℝ} (h : 0 ≤ error) : Near (ofParts (.zero s)) 0 error := by
  have hparts : parts (ofParts (.zero s)) = .zero s := parts_ofParts (f := .zero s) trivial
  refine ⟨?_, ?_⟩
  · show (parts (ofParts (.zero s))).isFinite = true
    rw [hparts]
    rfl
  · rw [toReal_of_zero hparts, sub_zero, abs_zero]
    exact h

/-- A quotient. -/
theorem near_div (hx : x.isFinite = true) (hy : y.isFinite = true) (hne : toReal y ≠ 0)
    (hle : |toReal x / toReal y| ≤ 2 ^ 99) :
    Near (x / y) (toReal x / toReal y) (2 * (relative * |toReal x / toReal y| + absolute)) := by
  have hquotient : x / y = ofParts (UnpackedFloat.div Format.binary32 (parts x) (parts y)) := rfl
  rcases zero_or_finite hy with ⟨t, hpy⟩ | ⟨t, m₂, e₂, h₂, hpy⟩
  · exact absurd (toReal_of_zero hpy) hne
  rcases zero_or_finite hx with ⟨s, hpx⟩ | ⟨s, m₁, e₁, h₁, hpx⟩
  · rw [hquotient, hpx, hpy, toReal_of_zero hpx, zero_div, abs_zero, mul_zero, zero_add]
    exact near_zero (s / t) (mul_pos two_pos absolute_pos).le
  · have hexact : toReal x / toReal y =
        factor (s / t) * (m₁ * (2 : ℝ) ^ e₁ / (m₂ * (2 : ℝ) ^ e₂)) := by
      rw [toReal_finite hpx, toReal_finite hpy, factor_div, mul_div_mul_comm]
    have hpos : 0 ≤ m₁ * (2 : ℝ) ^ e₁ / (m₂ * (2 : ℝ) ^ e₂) := by positivity
    obtain ⟨hsome, hbelow, hquarter⟩ := divCore_quarter e₁ e₂ h₁ h₂
    rw [hexact, abs_mul, abs_factor, one_mul, abs_of_nonneg hpos] at hle
    rw [hquotient, hpx, hpy, hexact, abs_mul, abs_factor, one_mul, abs_of_nonneg hpos]
    exact near_inexact (s / t) (divCore_long e₁ e₂ h₁ h₂) hsome hbelow hquarter hle

/-! ## §D Roots -/

theorem targetExponent_half (m : Nat) (e : Int) :
    Format.binary32.targetExponent ((totalExponent m e + 1).ediv 2) =
      max (((m.log2 : Int) + e + 2) / 2 - 24) (-149) := by
  have hbits : Format.binary32.mantissaBits = 24 := rfl
  have hleast : Format.binary32.minExponent = -149 := rfl
  unfold Format.targetExponent totalExponent
  rw [hbits, hleast]
  have hsum : (m.log2 : Int) + 1 + e + 1 = (m.log2 : Int) + e + 2 := by omega
  have hhalf : ((m.log2 : Int) + e + 2).ediv 2 = ((m.log2 : Int) + e + 2) / 2 := rfl
  rw [hsum, hhalf]
  omega

/-- The note on the rest of a root. It never lies in the middle. -/
def rootAccuracy (n root : Nat) : Accuracy :=
  if n - root * root = 0 then .exact
  else .inexact (if n - root * root ≤ root then .lt else .gt)

theorem sqrt_quarter {n root : Nat} (hle : root * root ≤ n) (hlt : n < (root + 1) * (root + 1)) :
    root ≤ Real.sqrt n ∧
      |Real.sqrt n - ((4 * root + quarters (rootAccuracy n root) : ℕ) : ℝ) / 4| ≤ 1 / 4 := by
  have hroot : (root : ℝ) ≤ Real.sqrt n := Real.le_sqrt_of_sq_le (by rw [pow_two]; exact_mod_cast hle)
  have hnext : Real.sqrt n ≤ root + 1 := Real.sqrt_le_iff.mpr
    ⟨by positivity, by rw [pow_two]; exact_mod_cast hlt.le⟩
  refine ⟨hroot, ?_⟩
  push_cast
  unfold rootAccuracy
  split
  · next hzero =>
    have hsquare : n = root * root := by omega
    have hexact : Real.sqrt n = root := by
      rw [hsquare, Nat.cast_mul, Real.sqrt_mul_self (Nat.cast_nonneg root)]
    rw [hexact, abs_le]
    constructor <;> simp [quarters]
  · split
    -- below the half, and above it
    · next hlow =>
      have hbelow : (n : ℝ) ≤ root * root + root := by exact_mod_cast (show n ≤ root * root + root by omega)
      have hhalf : Real.sqrt n ≤ root + 1 / 2 :=
        Real.sqrt_le_iff.mpr ⟨by positivity, by nlinarith⟩
      rw [abs_le]
      constructor <;> simp only [quarters, Nat.cast_one] <;> linarith
    · next hhigh =>
      have habove : (root * root + root + 1 : ℝ) ≤ n := by
        exact_mod_cast (show root * root + root + 1 ≤ n by omega)
      have hhalf : (root + 1 / 2 : ℝ) ≤ Real.sqrt n := Real.le_sqrt_of_sq_le (by nlinarith)
      rw [abs_le]
      constructor <;> simp only [quarters, Nat.cast_ofNat] <;> linarith

/-- A root is cut off below the exact one, and its note tells the quarter it is in. -/
theorem sqrtCore_quarter {m : Nat} {e : Int} (hm : 0 < m) (hfits : Fits m e) :
    let (root, e', acc) := sqrtCore Format.binary32 m e
    let r := Real.sqrt (m * (2 : ℝ) ^ e)
    2 ^ 23 ≤ root ∧ root * (2 : ℝ) ^ e' ≤ r ∧
      |r - (4 * root + quarters acc : ℕ) / 4 * (2 : ℝ) ^ e'| ≤ (2 : ℝ) ^ e' / 4 := by
  have hleast := hfits.least
  have hshort : m.log2 ≤ 23 := Nat.le_of_lt_succ ((Nat.log2_lt (Nat.ne_of_gt hm)).mpr hfits.short)
  unfold sqrtCore
  have hhalf : e.ediv 2 = e / 2 := rfl
  simp only [targetExponent_half, Nat.shiftLeft_eq, hhalf]
  generalize hte : min (e / 2) (max (((m.log2 : Int) + e + 2) / 2 - 24) (-149)) = te
  obtain ⟨j, hj⟩ : ∃ j : Nat, e - 2 * te = j := ⟨(e - 2 * te).toNat, by omega⟩
  have hbits : 46 ≤ m.log2 + j := by omega
  rw [hj, Int.toNat_natCast]
  -- the root of the longer mantissa
  have hr : Real.sqrt (m * (2 : ℝ) ^ e) = Real.sqrt (m * 2 ^ j : ℕ) * (2 : ℝ) ^ te := by
    have hpow : (m : ℝ) * (2 : ℝ) ^ e = (m * 2 ^ j : ℕ) * ((2 : ℝ) ^ te * (2 : ℝ) ^ te) := by
      have hsplit : (2 : ℝ) ^ e = 2 ^ j * ((2 : ℝ) ^ te * (2 : ℝ) ^ te) := by
        rw [← zpow_natCast, ← zpow_add₀ two_ne_zero, ← zpow_add₀ two_ne_zero]
        congr 1
        omega
      rw [hsplit]
      push_cast
      ring
    rw [hpow, Real.sqrt_mul (Nat.cast_nonneg _), Real.sqrt_mul_self (by positivity)]
  rw [hr]
  have hlong : 2 ^ 46 ≤ m * 2 ^ j := by
    calc 2 ^ 46 ≤ 2 ^ (m.log2 + j) := Nat.pow_le_pow_right (by decide) hbits
      _ = 2 ^ m.log2 * 2 ^ j := Nat.pow_add 2 _ _
      _ ≤ m * 2 ^ j := Nat.mul_le_mul_right _ (Nat.log2_self_le (Nat.ne_of_gt hm))
  generalize m * 2 ^ j = n at hlong
  have hle : Nat.sqrt n * Nat.sqrt n ≤ n := Nat.sqrt_le n
  have hlt : n < (Nat.sqrt n + 1) * (Nat.sqrt n + 1) := Nat.lt_succ_sqrt n
  have hroot : 2 ^ 23 ≤ Nat.sqrt n := Nat.le_sqrt.mpr (le_trans (by norm_num) hlong)
  obtain ⟨hbelow, hquarter⟩ := sqrt_quarter hle hlt
  have hpow : (0 : ℝ) < (2 : ℝ) ^ te := by positivity
  refine ⟨hroot, mul_le_mul_of_nonneg_right hbelow hpow.le, ?_⟩
  rw [← sub_mul, abs_mul, abs_of_pos hpow]
  have hscaled := mul_le_mul_of_nonneg_right hquarter hpow.le
  unfold rootAccuracy at hscaled
  linarith

/-- A root of a positive number. -/
theorem near_sqrt (hx : x.isFinite = true) (hpos : 0 < toReal x) :
    Near (Scalar.sqrt x) (Real.sqrt (toReal x)) (2 * (relative * Real.sqrt (toReal x) + absolute)) := by
  have hroot : Scalar.sqrt x = ofParts (UnpackedFloat.sqrt Format.binary32 (parts x)) := rfl
  rcases zero_or_finite hx with ⟨s, hparts⟩ | ⟨s, m, e, hm, hparts⟩
  · exact absurd (toReal_of_zero hparts) hpos.ne'
  have hheld := held_parts x
  rw [hparts] at hheld
  have hexact := toReal_finite hparts
  have hmantissa : 0 < m * (2 : ℝ) ^ e := by positivity
  cases s with
  | negative =>
    rw [hexact, factor_negative] at hpos
    linarith
  | positive =>
    rw [factor_positive, one_mul] at hexact
    obtain ⟨hlong, hbelow, hquarter⟩ := sqrtCore_quarter hm hheld.1
    have hle : Real.sqrt (m * (2 : ℝ) ^ e) ≤ 2 ^ 99 := by
      have hm24 : (m : ℝ) ≤ 2 ^ 24 := by exact_mod_cast hheld.1.short.le
      have he104 : (2 : ℝ) ^ e ≤ (2 : ℝ) ^ (104 : Int) := zpow_le_zpow_right₀ one_le_two hheld.2
      refine Real.sqrt_le_iff.mpr ⟨by positivity, ?_⟩
      calc m * (2 : ℝ) ^ e ≤ 2 ^ 24 * (2 : ℝ) ^ (104 : Int) := by gcongr
        _ ≤ (2 ^ 99) ^ 2 := by norm_num
    have hnear := near_inexact .positive (.inl hlong) (by omega) hbelow hquarter hle
    rw [factor_positive, one_mul] at hnear
    rw [hroot, hparts, hexact]
    exact hnear

end ConvexCollision.Single
