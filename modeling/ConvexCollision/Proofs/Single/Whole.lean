import ConvexCollision.Proofs.Single.Arithmetic

/-!
# ConvexCollision.Proofs.Single.Whole -- whole parts and casts of single-precision numbers

One is `unit` on the scale of places, so the whole part of a number is the quotient of its place by
`unit`. The casts cut off, and hold at the ends of their range (`toNat_toUInt16`, `toInt_toInt32`).
`floor` goes through the 32-bit cast where that is exact (`value_floor`).
-/

namespace ConvexCollision.Single

open Float.Model Float.Model.UnpackedFloat

/-! ## §A Casts to whole numbers -/

/-- The place of one. -/
def unit : Nat := 2 ^ 149

theorem unit_pos : 0 < unit := Nat.two_pow_pos 149

/-- All casts hold at their ends long before infinity. -/
theorem beyond_eq : beyond = 2 ^ 128 * unit := by
  unfold beyond unit
  norm_num

theorem roundToInt_eq (sign : Sign) (m : Nat) {e : Int} (he : -149 ≤ e) :
    roundToInt sign m e = sign.apply (m * 2 ^ (e + 149).toNat / unit : Nat) := by
  unfold roundToInt decreaseExponent shiftToExponent
  dsimp only
  rw [shiftRight_exact]
  show sign.apply (_ / _ : Nat) = _
  congr 2
  rw [Nat.shiftLeft_eq, Int.sub_zero]
  unfold unit
  -- a negative exponent shifts bits out, one that is not shifts zeros in
  by_cases hneg : e < 0
  · have hzero : e.toNat = 0 := by omega
    have hsplit : 2 ^ 149 = 2 ^ (0 - (e - e.toNat)).toNat * 2 ^ (e + 149).toNat := by
      rw [← Nat.pow_add]
      congr 1
      omega
    rw [hsplit, Nat.mul_div_mul_right _ _ (Nat.two_pow_pos _), hzero, Nat.pow_zero, Nat.mul_one]
  · have hzero : (0 - (e - e.toNat)).toNat = 0 := by omega
    have hsplit : (e + 149).toNat = e.toNat + 149 := by omega
    rw [hzero, hsplit, Nat.pow_add, ← Nat.mul_assoc, Nat.mul_div_cancel _ (Nat.two_pow_pos _),
      Nat.pow_zero, Nat.div_one]

/-- Cutting off and holding at the ends of a range of whole numbers, which starts at zero. The
undefined number goes to zero, as its place does. -/
theorem min_toNat_toInt {f : UnpackedFloat} (h : Held f) {n : Nat} (hn : n < 2 ^ 128) :
    min (f.toInt 0 n).toNat n = min (place f / unit).toNat n := by
  have hunit : (0 : Int) < unit := Int.natCast_pos.mpr unit_pos
  cases f with
  | notANumber => rfl
  | infinity s =>
    have hbeyond : (beyond : Int) / unit = 2 ^ 128 := by
      rw [beyond_eq, Int.natCast_mul, Int.mul_ediv_cancel _ (Int.ne_of_gt hunit)]
      rfl
    cases s
    · have hneg : -(beyond : Int) / unit ≤ 0 := Int.ediv_nonpos_of_nonpos_of_neg (by omega) hunit
      rw [place_infinity, apply_negative, Int.toNat_of_nonpos hneg]
      rfl
    · rw [place_infinity, apply_positive, hbeyond]
      show min n n = _
      omega
  | zero s => rfl
  | finite s m e hm =>
    rw [place_finite h.1 h.2]
    show min (roundToInt s m e).toNat n = _
    rw [roundToInt_eq s m h.1.least]
    generalize m * 2 ^ (e + 149).toNat = x
    cases s
    · have hneg : -(x : Int) / unit ≤ 0 := Int.ediv_nonpos_of_nonpos_of_neg (by omega) hunit
      have hquotient : (0 : Int) ≤ (x / unit : Nat) := Int.natCast_nonneg _
      rw [apply_negative, apply_negative, Int.toNat_of_nonpos hneg, Int.toNat_of_nonpos (by omega)]
    · rfl

/-- The cast to 16 bits. -/
theorem toNat_toUInt16 (x : Float32) : x.toUInt16.toNat = min (value x / unit).toNat 65535 := by
  have h := min_toNat_toInt (held_parts x) (show 65535 < 2 ^ 128 by decide)
  have hcast : x.toUInt16 = UInt16.ofNatClamp ((parts x).toInt 0 (65535 : Nat)).toNat := rfl
  rw [hcast, value, ← h]
  unfold UInt16.ofNatClamp
  split
  · next hlt =>
    rw [UInt16.toNat_ofNatLT]
    have hsize : UInt16.size = 65536 := rfl
    omega
  · next hlt =>
    rw [UInt16.toNat_ofNatLT]
    have hsize : UInt16.size = 65536 := rfl
    omega

/-- The cast to 32 bits. -/
theorem toNat_toUInt32 (x : Float32) :
    x.toUInt32.toNat = min (value x / unit).toNat 4294967295 := by
  have h := min_toNat_toInt (held_parts x) (show 4294967295 < 2 ^ 128 by decide)
  have hcast : x.toUInt32 = UInt32.ofNatClamp ((parts x).toInt 0 (4294967295 : Nat)).toNat := rfl
  rw [hcast, value, ← h]
  unfold UInt32.ofNatClamp
  split
  · next hlt =>
    rw [UInt32.toNat_ofNatLT]
    have hsize : UInt32.size = 4294967296 := rfl
    omega
  · next hlt =>
    rw [UInt32.toNat_ofNatLT]
    have hsize : UInt32.size = 4294967296 := rfl
    omega

/-! ## §B Whole numbers of at most 24 bits -/

/-- A whole number of at most 24 bits is held exactly. -/
theorem settle_whole (sign : Sign) {n : Nat} (h : n < 2 ^ 24) :
    settle (sign.apply (n * unit : Nat)) 0 = sign.apply (n * unit : Nat) := by
  have hle : n * unit ≤ beyond := by
    rw [beyond_eq]
    exact Nat.mul_le_mul_right _ (Nat.le_trans (Nat.le_of_lt h) (by decide))
  rw [settle_apply, unit, rounded_of_fits h, ← unit, Nat.min_eq_left hle]

theorem toFloat32_whole (n : UInt32) (h : n.toNat < 2 ^ 24) :
    Defined n.toFloat32 ∧ value n.toFloat32 = (n.toNat * unit : Nat) := by
  have hat := at_normalize n.toNat (show -149 ≤ (0 : Int) by decide) .positive
  have hplace : ((n.toNat : Int) * 2 ^ (0 + 149 : Int).toNat) = (n.toNat * unit : Nat) := by
    rw [Int.natCast_mul, unit, Int.natCast_pow]
    rfl
  have hwhole := settle_whole .positive h
  rw [apply_positive] at hwhole
  rw [hplace, hwhole] at hat
  exact ⟨hat.defined, hat.value_eq⟩

theorem value_wholeFrom : value wholeFrom = (2 ^ 23 * unit : Nat) := by decide

theorem value_one : value (1 : Float32) = (1 * unit : Nat) := by decide

theorem value_zero : value (0 : Float32) = 0 := by decide

/-- From here on all numbers are whole. -/
theorem whole_of_large {x : Float32} (h : (2 ^ 23 * unit : Nat) ≤ (value x).natAbs) :
    value x / unit * unit = value x := by
  refine Int.ediv_mul_cancel ?_
  have hpos : 0 < 2 ^ 23 * unit := Nat.mul_pos (by decide) unit_pos
  have happly : ∀ (s : Sign) (n : Nat), unit ∣ n → (unit : Int) ∣ s.apply n := by
    intro s n hn
    cases s
    · exact Int.dvd_neg.mpr (Int.natCast_dvd_natCast.mpr hn)
    · exact Int.natCast_dvd_natCast.mpr hn
  have hheld := held_parts x
  unfold value at h ⊢
  cases hparts : parts x with
  | notANumber => exact Int.dvd_zero _
  | zero s => exact Int.dvd_zero _
  | infinity s =>
    refine happly s beyond ?_
    rw [beyond_eq]
    exact Nat.dvd_mul_left unit _
  | finite s m e hm =>
    rw [hparts] at h hheld
    rw [place_finite hheld.1 hheld.2, natAbs_apply] at h
    rw [place_finite hheld.1 hheld.2]
    -- a mantissa of 24 bits gets this far only with an exponent that is not negative
    have hexponent : 0 ≤ e := by
      by_contra hneg
      have hlt : m * 2 ^ (e + 149).toNat < 2 ^ 23 * unit := by
        calc m * 2 ^ (e + 149).toNat < 2 ^ 24 * 2 ^ (e + 149).toNat :=
              Nat.mul_lt_mul_of_pos_right hheld.1.short (Nat.two_pow_pos _)
          _ ≤ 2 ^ 24 * 2 ^ 148 := Nat.mul_le_mul_left _ (Nat.pow_le_pow_right (by decide) (by omega))
          _ = 2 ^ 23 * unit := rfl
      omega
    exact happly s _ (Nat.dvd_mul_left_of_dvd (Nat.pow_dvd_pow 2 (by omega)) m)

/-- The whole part of a number that is not negative and not too large for the cast. -/
theorem truncNonneg_eq {x : Float32} (hpos : 0 ≤ value x) (hlt : value x < (2 ^ 23 * unit : Nat)) :
    Defined (truncNonneg x) ∧ value (truncNonneg x) = value x / unit * unit := by
  have hunit : (0 : Int) < unit := Int.natCast_pos.mpr unit_pos
  have hlt : value x / unit < 2 ^ 23 := Int.ediv_lt_of_lt_mul hunit hlt
  have hge : 0 ≤ value x / unit := Int.ediv_nonneg hpos (Int.le_of_lt hunit)
  have hcast : x.toUInt32.toNat = (value x / unit).toNat := by
    rw [toNat_toUInt32]
    omega
  obtain ⟨hdefined, hvalue⟩ := toFloat32_whole x.toUInt32 (by omega)
  refine ⟨hdefined, hvalue.trans ?_⟩
  rw [hcast, Int.natCast_mul, Int.toNat_of_nonneg hge]

/-! ## §C Rounding down and up -/

/-- The next whole number below one that is not positive. -/
theorem sub_one_whole {t : Float32} {n : Nat} (ht : Defined t) (hvalue : value t = -(n * unit : Nat))
    (hn : n < 2 ^ 23) : Defined (t - 1) ∧ value (t - 1) = -((n + 1) * unit : Nat) := by
  have hfinite : (parts t).isFinite = true := by
    refine isFinite_of_bounds ht ?_
    show (value t).natAbs < beyond
    rw [hvalue, Int.natAbs_neg, Int.natAbs_natCast, beyond_eq]
    exact Nat.mul_lt_mul_of_pos_right (Nat.lt_trans hn (by decide)) unit_pos
  have hat := at_sub (held_parts t) (held_parts 1) hfinite rfl
  have hexact : place (parts t) - place (parts 1) = Sign.negative.apply ((n + 1) * unit : Nat) := by
    show value t - value 1 = _
    rw [hvalue, value_one, apply_negative, Nat.add_mul]
    omega
  rw [hexact, settle_whole .negative (show n + 1 < 2 ^ 24 by omega), apply_negative] at hat
  exact ⟨hat.defined, hat.value_eq⟩

/-- Rounding down through the whole part of the negated number, which was rounded toward zero. -/
theorem ediv_of_neg_ediv (v : Int) {u : Int} (hu : 0 < u) :
    v / u = if v < -(-v / u * u) then -(-v / u) - 1 else -(-v / u) := by
  have hle := Int.ediv_mul_le (-v) (Int.ne_of_gt hu)
  have hlt := Int.lt_ediv_add_one_mul_self (-v) hu
  rw [Int.add_mul, Int.one_mul] at hlt
  split
  · refine Int.le_antisymm ?_ ?_
    · refine Int.le_of_lt_add_one ((Int.ediv_lt_iff_lt_mul hu).mpr ?_)
      rw [Int.sub_add_cancel, Int.neg_mul]
      omega
    · refine (Int.le_ediv_iff_mul_le hu).mpr ?_
      rw [Int.sub_mul, Int.neg_mul, Int.one_mul]
      omega
  · refine Int.le_antisymm ?_ ?_
    · refine Int.le_of_lt_add_one ((Int.ediv_lt_iff_lt_mul hu).mpr ?_)
      rw [Int.add_mul, Int.neg_mul, Int.one_mul]
      omega
    · refine (Int.le_ediv_iff_mul_le hu).mpr ?_
      rw [Int.neg_mul]
      omega

/-- Below zero the cast rounds toward zero, so a number that is not whole goes one further. -/
theorem value_floor_of_neg {x : Float32} (h : Defined x) (hneg : value x < 0)
    (hsmall : -value x < (2 ^ 23 * unit : Nat)) :
    let t := -truncNonneg (-x)
    Defined (if x < t then t - 1 else t) ∧
      value (if x < t then t - 1 else t) = value x / unit * unit := by
  have hunit : (0 : Int) < unit := Int.natCast_pos.mpr unit_pos
  obtain ⟨ht, hvalue⟩ := truncNonneg_eq (x := -x) (by rw [value_neg]; omega) (by rwa [value_neg])
  replace ht : Defined (-truncNonneg (-x)) := (defined_neg _).mpr ht
  replace hvalue : value (-truncNonneg (-x)) = -(-value x / unit * unit) := by
    rw [value_neg, hvalue, value_neg]
  have hq : -value x / unit < 2 ^ 23 := Int.ediv_lt_of_lt_mul hunit hsmall
  obtain ⟨n, hn⟩ : ∃ n : Nat, -value x / unit = n :=
    ⟨_, (Int.toNat_of_nonneg (Int.ediv_nonneg (by omega) (Int.le_of_lt hunit))).symm⟩
  rw [ediv_of_neg_ediv (value x) hunit]
  dsimp only
  split
  · next hbelow =>
    have hbelow : value x < -(-value x / unit * unit) := by
      have hlt := (lt_iff.mp hbelow).2.2
      rwa [hvalue] at hlt
    rw [hn] at hvalue hbelow hq ⊢
    obtain ⟨hdefined, hdifference⟩ := sub_one_whole ht
      (hvalue.trans (by rw [Int.natCast_mul])) (by omega)
    refine ⟨hdefined, hdifference.trans ?_⟩
    rw [if_pos hbelow, Int.natCast_mul, ← Int.neg_mul]
    congr 1
    omega
  · next hexact =>
    have hexact : ¬ value x < -(-value x / unit * unit) := by
      intro hlt
      refine hexact (lt_iff.mpr ⟨h, ht, ?_⟩)
      rwa [hvalue]
    rw [if_neg hexact, Int.neg_mul]
    exact ⟨ht, hvalue⟩

/-- **Rounding down** goes to the next whole number below. -/
theorem value_floor {x : Float32} (h : Defined x) :
    Defined (floor x) ∧ value (floor x) = value x / unit * unit := by
  unfold floor
  split
  · next hsmall =>
    have hsmall : ((value x).natAbs : Int) < (2 ^ 23 * unit : Nat) := by
      have hlt := (lt_iff.mp hsmall).2.2
      rwa [value_abs, value_wholeFrom] at hlt
    split
    · next hneg =>
      have hneg : value x < 0 := by
        have hlt := (lt_iff.mp hneg).2.2
        rwa [value_zero] at hlt
      exact value_floor_of_neg h hneg (by omega)
    · next hneg =>
      have hpos : 0 ≤ value x := by
        by_contra hlt
        refine hneg (lt_iff.mpr ⟨h, trivial, ?_⟩)
        rw [value_zero]
        omega
      exact truncNonneg_eq hpos (by omega)
  · next hlarge =>
    refine ⟨h, (whole_of_large ?_).symm⟩
    by_contra hlt
    refine hlarge (lt_iff.mpr ⟨(defined_abs x).mpr h, trivial, ?_⟩)
    rw [value_abs, value_wholeFrom]
    omega

/-- **Rounding up** goes to the next whole number above. -/
theorem value_ceil {x : Float32} (h : Defined x) :
    Defined (ceil x) ∧ value (ceil x) = -(-value x / unit * unit) := by
  obtain ⟨hdefined, hvalue⟩ := value_floor ((defined_neg x).mpr h)
  refine ⟨(defined_neg _).mpr hdefined, ?_⟩
  unfold ceil
  rw [value_neg, hvalue, value_neg]

/-! ## §D The signed cast -/

theorem lt_zero_iff {x : Float32} : x < 0 ↔ value x < 0 := by
  rw [lt_iff, value_zero]
  refine ⟨fun h => h.2.2, fun h => ⟨?_, trivial, h⟩⟩
  unfold Defined
  unfold value at h
  cases hparts : parts x with
  | notANumber =>
    rw [hparts] at h
    exact absurd h (Int.lt_irrefl 0)
  | _ => trivial

/-- The cast to 32 signed bits cuts toward zero. -/
theorem toInt_toInt32 (x : Float32) : (toInt32 x).toInt =
    if value x < 0 then -((min (-value x / unit).toNat (2 ^ 31) : Nat) : Int)
    else ((min (value x / unit).toNat (2 ^ 31 - 1) : Nat) : Int) := by
  unfold toInt32
  dsimp only
  by_cases hneg : value x < 0
  · have hcast := toNat_toUInt32 (-x)
    rw [value_neg] at hcast
    rw [if_pos (lt_zero_iff.mpr hneg), if_pos hneg]
    split
    · rw [Int32.toInt_minValue]
      omega
    · rw [Int32.toInt_ofInt_of_le (by omega) (by omega)]
      omega
  · have hcast := toNat_toUInt32 x
    rw [if_neg (mt lt_zero_iff.mp hneg), if_neg hneg]
    split
    · rw [Int32.toInt_maxValue]
      omega
    · rw [Int32.toInt_ofInt_of_le (by omega) (by omega)]
      omega

/-! ## §E The order is kept -/

theorem floor_le_floor {x y : Float32} (h : x ≤ y) : floor x ≤ floor y := by
  obtain ⟨hx, hy, hxy⟩ := le_iff.mp h
  have hunit : (0 : Int) < unit := Int.natCast_pos.mpr unit_pos
  obtain ⟨dx, vx⟩ := value_floor hx
  obtain ⟨dy, vy⟩ := value_floor hy
  refine le_iff.mpr ⟨dx, dy, ?_⟩
  rw [vx, vy]
  exact Int.mul_le_mul_of_nonneg_right (Int.ediv_le_ediv hunit hxy) (Int.le_of_lt hunit)

theorem neg_le_neg {x y : Float32} (h : x ≤ y) : -y ≤ -x := by
  obtain ⟨hx, hy, hxy⟩ := le_iff.mp h
  refine le_iff.mpr ⟨(defined_neg y).mpr hy, (defined_neg x).mpr hx, ?_⟩
  rw [value_neg, value_neg]
  exact Int.neg_le_neg hxy

theorem ceil_le_ceil {x y : Float32} (h : x ≤ y) : ceil x ≤ ceil y :=
  neg_le_neg (floor_le_floor (neg_le_neg h))

theorem floor_le_ceil {x : Float32} (h : x ≤ x) : floor x ≤ ceil x := by
  obtain ⟨hx, -, -⟩ := le_iff.mp h
  have hunit : (0 : Int) < unit := Int.natCast_pos.mpr unit_pos
  obtain ⟨df, vf⟩ := value_floor hx
  obtain ⟨dc, vc⟩ := value_ceil hx
  refine le_iff.mpr ⟨df, dc, ?_⟩
  have hbelow := Int.ediv_mul_le (value x) (Int.ne_of_gt hunit)
  have habove := Int.ediv_mul_le (-value x) (Int.ne_of_gt hunit)
  rw [vf, vc]
  omega

theorem toUInt16_le_toUInt16 {x y : Float32} (h : x ≤ y) : x.toUInt16 ≤ y.toUInt16 := by
  obtain ⟨-, -, hxy⟩ := le_iff.mp h
  have hunit : (0 : Int) < unit := Int.natCast_pos.mpr unit_pos
  have hquotient := Int.ediv_le_ediv hunit hxy
  rw [UInt16.le_iff_toNat_le, toNat_toUInt16, toNat_toUInt16]
  omega

theorem toInt32_le_toInt32 {x y : Float32} (h : x ≤ y) : toInt32 x ≤ toInt32 y := by
  obtain ⟨-, -, hxy⟩ := le_iff.mp h
  have hunit : (0 : Int) < unit := Int.natCast_pos.mpr unit_pos
  have hquotient := Int.ediv_le_ediv hunit hxy
  have hnegated := Int.ediv_le_ediv hunit (Int.neg_le_neg hxy)
  rw [Int32.le_iff_toInt_le, toInt_toInt32, toInt_toInt32]
  split
  · split
    · omega
    · omega
  · rw [if_neg (by omega)]
    omega

end ConvexCollision.Single
