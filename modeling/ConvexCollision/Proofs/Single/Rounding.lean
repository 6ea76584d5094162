import Mathlib
import ConvexCollision.Scalar

/-!
# ConvexCollision.Proofs.Single.Rounding -- rounding to single precision keeps the order

A result is rounded by cutting its mantissa to 24 bits, to the nearest whole number of the last bit
that is kept, a tie to the even one. Everything is told in whole numbers here: `rounded x s` is what
becomes of `x / 2 ^ s`, where the unit is the smallest positive number of single precision.

The main results are `rounded_mono`, and `roundWithAccuracy_exact`, which says that the rounding of
the number format is this one.
-/

namespace ConvexCollision.Single

open Float.Model Float.Model.UnpackedFloat

/-! ## §A The nearest quotient -/

/-- The quotient of `x` by `2 ^ n`, rounded to the nearest whole number, a tie to the even one. -/
def nearest (x n : Nat) : Nat :=
  if 2 * (x % 2 ^ n) < 2 ^ n then x / 2 ^ n
  else if 2 * (x % 2 ^ n) = 2 ^ n then x / 2 ^ n + x / 2 ^ n % 2
  else x / 2 ^ n + 1

theorem div_le_nearest (x n : Nat) : x / 2 ^ n ≤ nearest x n := by
  unfold nearest
  split
  · exact Nat.le_refl _
  · split <;> omega

theorem nearest_le_div_succ (x n : Nat) : nearest x n ≤ x / 2 ^ n + 1 := by
  unfold nearest
  split
  · omega
  · split <;> omega

theorem nearest_mul_two_pow (q n : Nat) : nearest (q * 2 ^ n) n = q := by
  have hpos : 0 < 2 ^ n := Nat.two_pow_pos n
  unfold nearest
  rw [Nat.mul_mod_left, Nat.mul_div_cancel q hpos, if_pos (by omega)]

/-- Scaling the number and the unit alike changes nothing. -/
theorem nearest_scale (x n k : Nat) : nearest (x * 2 ^ k) (n + k) = nearest x n := by
  have hk : 0 < 2 ^ k := Nat.two_pow_pos k
  have hdiv : x * 2 ^ k / 2 ^ (n + k) = x / 2 ^ n := by
    rw [Nat.pow_add, Nat.mul_div_mul_right _ _ hk]
  have hmod : x * 2 ^ k % 2 ^ (n + k) = x % 2 ^ n * 2 ^ k := by
    rw [Nat.pow_add, Nat.mul_mod_mul_right]
  have hlt : 2 * (x % 2 ^ n * 2 ^ k) < 2 ^ (n + k) ↔ 2 * (x % 2 ^ n) < 2 ^ n := by
    rw [Nat.pow_add, ← Nat.mul_assoc]
    exact Nat.mul_lt_mul_right hk
  have heq : 2 * (x % 2 ^ n * 2 ^ k) = 2 ^ (n + k) ↔ 2 * (x % 2 ^ n) = 2 ^ n := by
    rw [Nat.pow_add, ← Nat.mul_assoc]
    exact Nat.mul_left_inj (Nat.ne_of_gt hk)
  unfold nearest
  simp only [hdiv, hmod, hlt, heq]

theorem nearest_mono {x y : Nat} (n : Nat) (h : x ≤ y) : nearest x n ≤ nearest y n := by
  rcases Nat.lt_or_eq_of_le (Nat.div_le_div_right h : x / 2 ^ n ≤ y / 2 ^ n) with hlt | heq
  · exact Nat.le_trans (nearest_le_div_succ x n) (Nat.le_trans hlt (div_le_nearest y n))
  -- equal quotients: the larger number has the larger rest
  · have hx := Nat.div_add_mod x (2 ^ n)
    have hy := Nat.div_add_mod y (2 ^ n)
    rw [heq] at hx
    have hrem : x % 2 ^ n ≤ y % 2 ^ n := by omega
    unfold nearest
    rw [heq]
    split_ifs <;> omega

/-! ## §B Cutting to 24 bits -/

/-- The place of the last bit that is kept of `x`, and that of the unit at least. -/
def lastBit (x s : Nat) : Nat := max (x.log2 - 23) s

/-- What becomes of `x / 2 ^ s` when it is rounded. -/
def rounded (x s : Nat) : Nat := nearest x (lastBit x s) * 2 ^ (lastBit x s - s)

theorem lt_two_pow_lastBit (x s : Nat) : x < 2 ^ (lastBit x s + 24) := by
  rcases Nat.eq_zero_or_pos x with rfl | hpos
  · exact Nat.two_pow_pos _
  · refine (Nat.log2_lt (Nat.ne_of_gt hpos)).mp ?_
    unfold lastBit
    omega

/-- No more than 24 bits are kept, or one more unit. -/
theorem nearest_lastBit_le (x s : Nat) : nearest x (lastBit x s) ≤ 2 ^ 24 := by
  refine Nat.le_trans (nearest_le_div_succ x _) ?_
  refine (Nat.div_lt_iff_lt_mul (Nat.two_pow_pos _)).mpr ?_
  rw [← Nat.pow_add, Nat.add_comm]
  exact lt_two_pow_lastBit x s

/-- All of the 24 bits are in use where the cut is not at the unit. -/
theorem le_nearest_lastBit {x s : Nat} (h : s < lastBit x s) : 2 ^ 23 ≤ nearest x (lastBit x s) := by
  refine Nat.le_trans ?_ (div_le_nearest x _)
  rw [Nat.le_div_iff_mul_le (Nat.two_pow_pos _), ← Nat.pow_add]
  have hlog : lastBit x s = x.log2 - 23 := by
    unfold lastBit at h ⊢
    omega
  have hpos : x ≠ 0 := by
    rintro rfl
    rw [Nat.log2_zero] at hlog
    omega
  refine (Nat.le_log2 hpos).mp ?_
  omega

theorem lastBit_mono {x y : Nat} (s : Nat) (h : x ≤ y) : lastBit x s ≤ lastBit y s := by
  rcases Nat.eq_zero_or_pos x with rfl | hpos
  · unfold lastBit
    rw [Nat.log2_zero]
    omega
  · have hlog : x.log2 ≤ y.log2 :=
      (Nat.le_log2 (by omega)).mpr (Nat.le_trans (Nat.log2_self_le (by omega)) h)
    unfold lastBit
    omega

theorem le_lastBit (x s : Nat) : s ≤ lastBit x s := by
  unfold lastBit
  omega

/-- **Rounding keeps the order.** Two numbers cut at the same bit are rounded to the same unit. Of
two that are not, a power of two lies between the results. -/
theorem rounded_mono {x y : Nat} (s : Nat) (h : x ≤ y) : rounded x s ≤ rounded y s := by
  rcases Nat.lt_or_eq_of_le (lastBit_mono s h) with hlt | heq
  -- the smaller number is rounded to no more than the power of two at which the larger
  -- one's bits start
  · have hs : s ≤ lastBit x s := le_lastBit x s
    calc rounded x s ≤ 2 ^ 24 * 2 ^ (lastBit x s - s) :=
          Nat.mul_le_mul_right _ (nearest_lastBit_le x s)
      _ = 2 ^ (24 + (lastBit x s - s)) := (Nat.pow_add 2 24 _).symm
      _ ≤ 2 ^ (23 + (lastBit y s - s)) := Nat.pow_le_pow_right (by omega) (by omega)
      _ = 2 ^ 23 * 2 ^ (lastBit y s - s) := Nat.pow_add 2 23 _
      _ ≤ rounded y s := Nat.mul_le_mul_right _ (le_nearest_lastBit (by omega))
  · unfold rounded
    rw [heq]
    exact Nat.mul_le_mul_right _ (nearest_mono _ h)

/-- A number of at most 24 bits is not changed by rounding. -/
theorem rounded_of_fits {m k : Nat} (hm : m < 2 ^ 24) : rounded (m * 2 ^ k) 0 = m * 2 ^ k := by
  have hcut : lastBit (m * 2 ^ k) 0 ≤ k := by
    rcases Nat.eq_zero_or_pos m with rfl | hpos
    · simp [lastBit, Nat.log2_zero]
    · have hlog : (m * 2 ^ k).log2 < 24 + k := by
        refine (Nat.log2_lt (Nat.ne_of_gt (Nat.mul_pos hpos (Nat.two_pow_pos k)))).mpr ?_
        rw [Nat.pow_add]
        exact Nat.mul_lt_mul_of_pos_right hm (Nat.two_pow_pos k)
      unfold lastBit
      omega
  obtain ⟨d, hd⟩ := Nat.exists_eq_add_of_le' hcut
  unfold rounded
  rw [Nat.sub_zero]
  nth_rewrite 1 [hd]
  rw [Nat.pow_add, ← Nat.mul_assoc, nearest_mul_two_pow, Nat.mul_assoc, ← Nat.pow_add, ← hd]

/-! ## §C The rounding of the number format -/

/-- The bits of `m` after `n` of them were shifted out: the quotient, whether the rest is at least
half a unit, and whether it is neither nothing nor just the half. -/
def shifted (m n : Nat) : ExtendedMantissa where
  mantissa := m / 2 ^ n
  roundBit := decide (2 ^ n ≤ 2 * (m % 2 ^ n))
  stickyBit := decide (2 * (m % 2 ^ n) % 2 ^ n ≠ 0)

theorem shifted_zero (m : Nat) : shifted m 0 = .ofMantissaAndAccuracy m .exact := by
  simp [shifted, ExtendedMantissa.ofMantissaAndAccuracy, Nat.mod_one]

theorem shiftRightOne_shifted (m n : Nat) : (shifted m n).shiftRightOne = shifted m (n + 1) := by
  have hpos : 0 < 2 ^ n := Nat.two_pow_pos n
  have hlt : m % 2 ^ n < 2 ^ n := Nat.mod_lt m hpos
  have hmod : m % 2 ^ (n + 1) = m % 2 ^ n + 2 ^ n * (m / 2 ^ n % 2) := by
    rw [Nat.pow_succ, Nat.mod_mul]
  have hsucc : 2 ^ (n + 1) = 2 * 2 ^ n := by rw [Nat.pow_succ, Nat.mul_comm]
  have hbit : m / 2 ^ n % 2 = 0 ∨ m / 2 ^ n % 2 = 1 := by omega
  unfold ExtendedMantissa.shiftRightOne shifted
  congr 1
  · rw [Nat.pow_succ, Nat.div_div_eq_div_mul]
  · rw [hmod, hsucc]
    rcases hbit with h | h
    · rw [h]
      exact (decide_eq_false (by omega)).symm
    · rw [h]
      exact (decide_eq_true (by omega)).symm
  · have hrest : 2 * (m % 2 ^ (n + 1)) % 2 ^ (n + 1) = 2 * (m % 2 ^ n) := by
      rw [hmod, hsucc, Nat.mul_add, ← Nat.mul_assoc, Nat.add_mul_mod_self_left]
      exact Nat.mod_eq_of_lt (by omega)
    rw [hrest]
    by_cases hhalf : 2 ^ n ≤ 2 * (m % 2 ^ n)
    · rw [decide_eq_true hhalf, Bool.true_or]
      exact (decide_eq_true (by omega)).symm
    · rw [decide_eq_false hhalf, Bool.false_or, Nat.mod_eq_of_lt (Nat.lt_of_not_le hhalf)]

/-- Shifting bit by bit. -/
theorem shiftRight_exact (m n : Nat) :
    ExtendedMantissa.ofMantissaAndAccuracy m .exact >>> n = shifted m n := by
  show n.repeat ExtendedMantissa.shiftRightOne _ = _
  induction n with
  | zero => exact (shifted_zero m).symm
  | succ n ih => rw [Nat.repeat, ih, shiftRightOne_shifted]

theorem roundedMantissa_shifted (m n : Nat) : (shifted m n).roundedMantissa = nearest m n := by
  have hlt : m % 2 ^ n < 2 ^ n := Nat.mod_lt m (Nat.two_pow_pos n)
  unfold nearest
  rcases Nat.lt_trichotomy (2 * (m % 2 ^ n)) (2 ^ n) with hbelow | htie | habove
  · have hround : decide (2 ^ n ≤ 2 * (m % 2 ^ n)) = false := decide_eq_false (Nat.not_le.mpr hbelow)
    rw [if_pos hbelow]
    unfold shifted
    rw [hround]
    cases decide (2 * (m % 2 ^ n) % 2 ^ n ≠ 0) <;> rfl
  · have hround : decide (2 ^ n ≤ 2 * (m % 2 ^ n)) = true := decide_eq_true (Nat.le_of_eq htie.symm)
    have hsticky : decide (2 * (m % 2 ^ n) % 2 ^ n ≠ 0) = false := by
      rw [htie, Nat.mod_self]
      rfl
    rw [if_neg (by omega), if_pos htie]
    unfold shifted
    rw [hround, hsticky]
    rfl
  · have hround : decide (2 ^ n ≤ 2 * (m % 2 ^ n)) = true := decide_eq_true (Nat.le_of_lt habove)
    have hsticky : decide (2 * (m % 2 ^ n) % 2 ^ n ≠ 0) = true := by
      rw [decide_eq_true_eq, Nat.mod_eq_sub_mod (Nat.le_of_lt habove), Nat.mod_eq_of_lt (by omega)]
      omega
    rw [if_neg (by omega), if_neg (by omega)]
    unfold shifted
    rw [hround, hsticky]
    rfl

/-- The exponent to which a mantissa is cut. -/
theorem targetExponent_eq (m : Nat) (e : Int) :
    Format.binary32.targetExponent (totalExponent m e) = max ((m.log2 : Int) - 23 + e) (-149) := by
  have hbits : Format.binary32.mantissaBits = 24 := rfl
  have hleast : Format.binary32.minExponent = -149 := rfl
  unfold Format.targetExponent totalExponent
  rw [hbits, hleast]
  omega

theorem shiftToTargetExponent_exact (m : Nat) (e : Int) :
    shiftToTargetExponent Format.binary32 m e .exact =
      (shifted m (max ((m.log2 : Int) - 23 + e) (-149) - e).toNat,
        e + (max ((m.log2 : Int) - 23 + e) (-149) - e).toNat) := by
  unfold shiftToTargetExponent shiftToExponent
  simp only [targetExponent_eq, shiftRight_exact]

/-- A mantissa and an exponent as the format holds them: 24 bits, all in use unless the exponent is
the least one. -/
structure Fits (m : Nat) (e : Int) : Prop where
  /-- The mantissa has no more than 24 bits. -/
  short : m < 2 ^ 24
  /-- The exponent is not below the least one. -/
  least : -149 ≤ e
  /-- The leading bit is in use, or the exponent is the least one. -/
  full : e = -149 ∨ 2 ^ 23 ≤ m

/-- An outcome of rounding, of the given sign and the given distance from zero. -/
inductive Outcome (sign : Sign) : Nat → UnpackedFloat → Prop
  | zero : Outcome sign 0 (.zero sign)
  | finite {m : Nat} {e : Int} (hm : 0 < m) (h : Fits m e) :
      Outcome sign (m * 2 ^ (e + 149).toNat) (.finite sign m e hm)

/-- What is left of a rounded mantissa after the second cut. -/
def settled (sign : Sign) (cut : ExtendedMantissa × Int) : UnpackedFloat :=
  if h : cut.1.mantissa = 0 then .zero sign
  else .finite sign cut.1.mantissa cut.2 (Nat.pos_of_ne_zero h)

/-- The second cut finds at most one bit too many, and that bit is zero. -/
theorem outcome_settled (sign : Sign) {r : Nat} {e : Int} (hr : r ≤ 2 ^ 24) (he : -149 ≤ e)
    (hfull : e = -149 ∨ 2 ^ 23 ≤ r) :
    Outcome sign (r * 2 ^ (e + 149).toNat)
      (settled sign (shiftToTargetExponent Format.binary32 r e .exact)) := by
  rw [shiftToTargetExponent_exact]
  rcases Nat.lt_or_eq_of_le hr with hlt | rfl
  · have hlog : r.log2 ≤ 23 := by
      rcases Nat.eq_zero_or_pos r with rfl | hpos
      · rw [Nat.log2_zero]
        omega
      · exact Nat.le_of_lt_succ ((Nat.log2_lt (Nat.ne_of_gt hpos)).mpr hlt)
    have hnone : (max ((r.log2 : Int) - 23 + e) (-149) - e).toNat = 0 := by omega
    rw [hnone, shifted_zero, Int.natCast_zero, Int.add_zero]
    rcases Nat.eq_zero_or_pos r with rfl | hpos
    · rw [Nat.zero_mul]
      exact .zero
    · have hsettled : settled sign (.ofMantissaAndAccuracy r .exact, e) = .finite sign r e hpos :=
        dif_neg (Nat.ne_of_gt hpos)
      rw [hsettled]
      exact .finite hpos ⟨hlt, he, hfull⟩
  -- rounding up has carried: one bit too many, and it is a power of two
  · have hone : (max (((2 ^ 24 : Nat).log2 : Int) - 23 + e) (-149) - e).toNat = 1 := by
      rw [Nat.log2_two_pow]
      omega
    have hvalue : 2 ^ 24 * 2 ^ (e + 149).toNat = 2 ^ 23 * 2 ^ (e + 1 + 149).toNat := by
      rw [← Nat.pow_add, ← Nat.pow_add]
      congr 1
      omega
    rw [hone, hvalue]
    exact .finite (by decide) ⟨by decide, by omega, .inr (by decide)⟩

/-- **The rounding of the format is this one.** The mantissa must be long enough to be cut, or the
exponent small enough: a short mantissa is not extended here. -/
theorem roundWithAccuracy_exact (sign : Sign) {m : Nat} {e : Int} (s : Nat) (hm : 0 < m)
    (hlow : -149 - s ≤ e) (hlong : 2 ^ 23 ≤ m ∨ e ≤ -149) :
    Outcome sign (rounded (m * 2 ^ (e + 149 + s).toNat) s)
      (roundWithAccuracy Format.binary32 sign m e .exact) := by
  have hlog : 2 ^ 23 ≤ m ↔ 23 ≤ m.log2 := (Nat.le_log2 (Nat.ne_of_gt hm)).symm
  rw [hlog] at hlong
  obtain ⟨k, hk⟩ : ∃ k : Nat, e + 149 + s = k := ⟨(e + 149 + s).toNat, by omega⟩
  obtain ⟨n, hn⟩ : ∃ n : Nat, max ((m.log2 : Int) - 23 + e) (-149) - e = n :=
    ⟨(max ((m.log2 : Int) - 23 + e) (-149) - e).toNat, by omega⟩
  have hx : (m * 2 ^ k).log2 = m.log2 + k := by
    refine (Nat.log2_eq_iff (Nat.ne_of_gt (Nat.mul_pos hm (Nat.two_pow_pos k)))).mpr ?_
    obtain ⟨hle, hlt⟩ := (Nat.log2_eq_iff (Nat.ne_of_gt hm)).mp rfl
    constructor
    · rw [Nat.pow_add]
      exact Nat.mul_le_mul_right _ hle
    · rw [Nat.add_right_comm, Nat.pow_add]
      exact Nat.mul_lt_mul_of_pos_right hlt (Nat.two_pow_pos k)
  -- on the scale of the unit the cut stands `k` bits higher than in the mantissa
  have hcut : lastBit (m * 2 ^ k) s = n + k := by
    unfold lastBit
    rw [hx]
    omega
  have hnearest : nearest (m * 2 ^ k) (lastBit (m * 2 ^ k) s) = nearest m n := by
    rw [hcut, nearest_scale]
  have hvalue : rounded (m * 2 ^ k) s = nearest m n * 2 ^ (e + n + 149).toNat := by
    unfold rounded
    rw [hnearest, hcut]
    congr 2
    omega
  rw [hk, Int.toNat_natCast, hvalue]
  have hround : roundWithAccuracy Format.binary32 sign m e .exact =
      settled sign (shiftToTargetExponent Format.binary32 (nearest m n) (e + n) .exact) := by
    have hfirst := shiftToTargetExponent_exact m e
    rw [hn, Int.toNat_natCast] at hfirst
    unfold roundWithAccuracy
    rw [hfirst, ← roundedMantissa_shifted]
    rfl
  rw [hround]
  refine outcome_settled sign ?_ (by omega) ?_
  · rw [← hnearest]
    exact nearest_lastBit_le _ s
  · by_cases hs : s < lastBit (m * 2 ^ k) s
    · right
      rw [← hnearest]
      exact le_nearest_lastBit hs
    · left
      omega

/-- A number on either side of the cut: its mantissa is extended first where it is too short. -/
theorem round_exact (sign : Sign) {m : Nat} {e : Int} (hm : 0 < m) (hlow : -149 ≤ e) :
    Outcome sign (rounded (m * 2 ^ (e + 149).toNat) 0) (round Format.binary32 sign m e) := by
  obtain ⟨k, hk⟩ : ∃ k : Nat, (e - max ((m.log2 : Int) - 23 + e) (-149)).toNat = k := ⟨_, rfl⟩
  have hround : round Format.binary32 sign m e =
      roundWithAccuracy Format.binary32 sign (m * 2 ^ k) (e - k) .exact := by
    unfold UnpackedFloat.round decreaseExponent
    simp only [targetExponent_eq, hk, Nat.shiftLeft_eq]
  have hvalue : m * 2 ^ (e + 149).toNat = m * 2 ^ k * 2 ^ (e - k + 149 + (0 : Nat)).toNat := by
    rw [Nat.mul_assoc, ← Nat.pow_add]
    congr 2
    omega
  rw [hround, hvalue]
  refine roundWithAccuracy_exact sign 0 (Nat.mul_pos hm (Nat.two_pow_pos k)) (by omega) ?_
  by_cases hshort : 23 ≤ m.log2
  · left
    refine Nat.le_trans ((Nat.le_log2 (Nat.ne_of_gt hm)).mp hshort) ?_
    exact Nat.le_mul_of_pos_right m (Nat.two_pow_pos k)
  · by_cases hleast : e - k ≤ -149
    · exact .inr hleast
    · left
      have hk' : 23 = m.log2 + k := by omega
      rw [hk', Nat.pow_add]
      exact Nat.mul_le_mul_right _ (Nat.log2_self_le (Nat.ne_of_gt hm))

end ConvexCollision.Single
