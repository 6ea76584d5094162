import ConvexCollision.Proofs.Single.Rounding

/-!
# ConvexCollision.Proofs.Single.Value -- where a single-precision number stands

Every finite number of single precision is a whole multiple of the smallest positive one. `place` is
that multiple. The infinite numbers stand where the numbers would go on if there were larger ones, so
that a result which is too large stands where it is put.

`le_iff` says that comparison is comparison of places, and `place_unpack_pack` that writing a rounded
result in 32 bits does not move it.
-/

namespace ConvexCollision.Single

open Float.Model Float.Model.UnpackedFloat

/-! ## §A Places -/

/-- The first number that is too large, in units of the smallest positive one. -/
def beyond : Nat := 2 ^ 24 * 2 ^ 253

@[simp] theorem apply_negative (n : Int) : Sign.negative.apply n = -n := rfl

@[simp] theorem apply_positive (n : Int) : Sign.positive.apply n = n := rfl

/-- The place of a number on the scale, in units of the smallest positive one. -/
def place : UnpackedFloat → Int
  | .infinity sign => sign.apply beyond
  | .notANumber => 0
  | .zero _ => 0
  | .finite sign m e _ => sign.apply (min (m * 2 ^ (e + 149).toNat) beyond : Nat)

/-- Everything but the undefined number. -/
def IsNumber : UnpackedFloat → Prop
  | .notANumber => False
  | _ => True

/-- A finite number is cut to the format. It may still be too large for it. -/
def Cut : UnpackedFloat → Prop
  | .finite _ m e _ => Fits m e
  | _ => True

/-- A finite number is in the format. -/
def Held : UnpackedFloat → Prop
  | .finite _ m e _ => Fits m e ∧ e ≤ 104
  | _ => True

theorem beyond_pos : 0 < beyond := Nat.mul_pos (Nat.two_pow_pos 24) (Nat.two_pow_pos 253)

/-- The numbers of the format are not too large. -/
theorem Fits.lt_beyond {m : Nat} {e : Int} (h : Fits m e) (he : e ≤ 104) :
    m * 2 ^ (e + 149).toNat < beyond := by
  calc m * 2 ^ (e + 149).toNat < 2 ^ 24 * 2 ^ (e + 149).toNat :=
        Nat.mul_lt_mul_of_pos_right h.short (Nat.two_pow_pos _)
    _ ≤ 2 ^ 24 * 2 ^ 253 := Nat.mul_le_mul_left _ (Nat.pow_le_pow_right (by decide) (by omega))
    _ = beyond := rfl

/-- A number whose exponent does not fit is too large. -/
theorem Fits.beyond_le {m : Nat} {e : Int} (h : Fits m e) (he : 105 ≤ e) :
    beyond ≤ m * 2 ^ (e + 149).toNat := by
  have hm : 2 ^ 23 ≤ m := h.full.resolve_left (by omega)
  have hcarry : beyond = 2 ^ 23 * 2 ^ 254 := by
    unfold beyond
    norm_num
  calc beyond = 2 ^ 23 * 2 ^ 254 := hcarry
    _ ≤ 2 ^ 23 * 2 ^ (e + 149).toNat :=
        Nat.mul_le_mul_left _ (Nat.pow_le_pow_right (by decide) (by omega))
    _ ≤ m * 2 ^ (e + 149).toNat := Nat.mul_le_mul_right _ hm

theorem Fits.pos {m : Nat} {e : Int} (_ : Fits m e) (hm : 0 < m) : 0 < m * 2 ^ (e + 149).toNat :=
  Nat.mul_pos hm (Nat.two_pow_pos _)

/-- The larger exponent belongs to the larger number. -/
theorem Fits.lt_of_exponent_lt {m₁ m₂ : Nat} {e₁ e₂ : Int} (h₁ : Fits m₁ e₁) (h₂ : Fits m₂ e₂)
    (h : e₁ < e₂) : m₁ * 2 ^ (e₁ + 149).toNat < m₂ * 2 ^ (e₂ + 149).toNat := by
  have hleast := h₁.least
  have hm : 2 ^ 23 ≤ m₂ := h₂.full.resolve_left (by omega)
  calc m₁ * 2 ^ (e₁ + 149).toNat < 2 ^ 24 * 2 ^ (e₁ + 149).toNat :=
        Nat.mul_lt_mul_of_pos_right h₁.short (Nat.two_pow_pos _)
    _ = 2 ^ 23 * 2 ^ ((e₁ + 149).toNat + 1) := by rw [← Nat.pow_add, ← Nat.pow_add]; congr 1; omega
    _ ≤ 2 ^ 23 * 2 ^ (e₂ + 149).toNat :=
        Nat.mul_le_mul_left _ (Nat.pow_le_pow_right (by decide) (by omega))
    _ ≤ m₂ * 2 ^ (e₂ + 149).toNat := Nat.mul_le_mul_right _ hm

/-- Comparing exponents first and mantissas then is comparing the numbers. -/
theorem Fits.compare_eq {m₁ m₂ : Nat} {e₁ e₂ : Int} (h₁ : Fits m₁ e₁) (h₂ : Fits m₂ e₂) :
    (compare e₁ e₂).then (compare m₁ m₂) =
      compare (m₁ * 2 ^ (e₁ + 149).toNat) (m₂ * 2 ^ (e₂ + 149).toNat) := by
  rcases Int.lt_trichotomy e₁ e₂ with hlt | rfl | hgt
  · rw [Int.compare_eq_lt.mpr hlt, Nat.compare_eq_lt.mpr (h₁.lt_of_exponent_lt h₂ hlt)]
    rfl
  · have hpos : 0 < 2 ^ (e₁ + 149).toNat := Nat.two_pow_pos _
    rw [Int.compare_eq_eq.mpr rfl]
    rcases Nat.lt_trichotomy m₁ m₂ with hlt | rfl | hgt
    · rw [Nat.compare_eq_lt.mpr hlt, Nat.compare_eq_lt.mpr (Nat.mul_lt_mul_of_pos_right hlt hpos)]
      rfl
    · rw [Nat.compare_eq_eq.mpr rfl, Nat.compare_eq_eq.mpr rfl]
      rfl
    · rw [Nat.compare_eq_gt.mpr hgt, Nat.compare_eq_gt.mpr (Nat.mul_lt_mul_of_pos_right hgt hpos)]
      rfl
  · rw [Int.compare_eq_gt.mpr hgt, Nat.compare_eq_gt.mpr (h₂.lt_of_exponent_lt h₁ hgt)]
    rfl

/-! ## §B Comparison -/

theorem place_finite {sign : Sign} {m : Nat} {e : Int} {hm : 0 < m} (h : Fits m e) (he : e ≤ 104) :
    place (.finite sign m e hm) = sign.apply (m * 2 ^ (e + 149).toNat : Nat) := by
  show sign.apply _ = _
  rw [Nat.min_eq_left (Nat.le_of_lt (h.lt_beyond he))]

theorem compare_negative (a b : Nat) : compare (-(a : Int)) (-(b : Int)) = (compare a b).swap := by
  rcases Nat.lt_trichotomy a b with hlt | rfl | hgt
  · rw [Nat.compare_eq_lt.mpr hlt, Int.compare_eq_gt.mpr (by omega)]
    rfl
  · rw [Nat.compare_eq_eq.mpr rfl, Int.compare_eq_eq.mpr rfl]
    rfl
  · rw [Nat.compare_eq_gt.mpr hgt, Int.compare_eq_lt.mpr (by omega)]
    rfl

theorem compare_positive (a b : Nat) : compare (a : Int) (b : Int) = compare a b := by
  rcases Nat.lt_trichotomy a b with hlt | rfl | hgt
  · rw [Nat.compare_eq_lt.mpr hlt, Int.compare_eq_lt.mpr (by omega)]
  · rw [Nat.compare_eq_eq.mpr rfl, Int.compare_eq_eq.mpr rfl]
  · rw [Nat.compare_eq_gt.mpr hgt, Int.compare_eq_gt.mpr (by omega)]

/-- The range of a finite number of the format. -/
theorem place_finite_bounds (sign : Sign) {m : Nat} {e : Int} (hm : 0 < m) (h : Fits m e)
    (he : e ≤ 104) : ∃ n : Nat, 0 < n ∧ n < beyond ∧ place (.finite sign m e hm) = sign.apply n :=
  ⟨_, h.pos hm, h.lt_beyond he, place_finite h he⟩

theorem above {a b : Int} (h : b < a) : some Ordering.gt = some (compare a b) :=
  congrArg some (Int.compare_eq_gt.mpr h).symm

theorem below {a b : Int} (h : a < b) : some Ordering.lt = some (compare a b) :=
  congrArg some (Int.compare_eq_lt.mpr h).symm

/-- An infinite number is farther out than all the others. -/
theorem compare_infinity {s : Sign} {g : UnpackedFloat} (hg : Held g) (ng : IsNumber g) :
    UnpackedFloat.compare (.infinity s) g = some (compare (s.apply beyond) (place g)) := by
  have hpos := beyond_pos
  cases g with
  | notANumber => exact ng.elim
  | infinity t =>
    cases s <;> cases t
    · exact congrArg some (Int.compare_eq_eq.mpr rfl).symm
    · exact below (show -(beyond : Int) < beyond by omega)
    · exact above (show -(beyond : Int) < beyond by omega)
    · exact congrArg some (Int.compare_eq_eq.mpr rfl).symm
  | zero t =>
    cases s
    · exact below (show -(beyond : Int) < 0 by omega)
    · exact above (show 0 < (beyond : Int) by omega)
  | finite t m e hm =>
    obtain ⟨n, -, hlt, hplace⟩ := place_finite_bounds t hm hg.1 hg.2
    rw [hplace]
    cases s
    · refine below ?_
      cases t <;> (simp only [Sign.apply]; omega)
    · refine above ?_
      cases t <;> (simp only [Sign.apply]; omega)

/-- Numbers of the format compare as their places do. -/
theorem compare_eq {f g : UnpackedFloat} (hf : Held f) (hg : Held g) (nf : IsNumber f)
    (ng : IsNumber g) : f.compare g = some (compare (place f) (place g)) := by
  have hpos := beyond_pos
  cases f with
  | notANumber => exact nf.elim
  | infinity s => exact compare_infinity hg ng
  | zero s =>
    cases g with
    | notANumber => exact ng.elim
    | infinity t =>
      cases t
      · exact above (show -(beyond : Int) < 0 by omega)
      · exact below (show 0 < (beyond : Int) by omega)
    | zero t => exact congrArg some (Int.compare_eq_eq.mpr rfl).symm
    | finite t m₂ e₂ h₂ =>
      obtain ⟨n, hn, -, hplace⟩ := place_finite_bounds t h₂ hg.1 hg.2
      rw [hplace]
      cases t
      · exact above (show -(n : Int) < 0 by omega)
      · exact below (show 0 < (n : Int) by omega)
  | finite s m₁ e₁ h₁ =>
    obtain ⟨n, hn, hlt, hplace⟩ := place_finite_bounds s h₁ hf.1 hf.2
    cases g with
    | notANumber => exact ng.elim
    | infinity t =>
      rw [hplace]
      cases s <;> cases t
      · exact above (show -(beyond : Int) < -(n : Int) by omega)
      · exact below (show -(n : Int) < (beyond : Int) by omega)
      · exact above (show -(beyond : Int) < (n : Int) by omega)
      · exact below (show (n : Int) < (beyond : Int) by omega)
    | zero t =>
      rw [hplace]
      cases s
      · exact below (show -(n : Int) < 0 by omega)
      · exact above (show 0 < (n : Int) by omega)
    | finite t m₂ e₂ h₂ =>
      cases s <;> cases t
      -- of two negative numbers the one farther from zero is the smaller one
      · rw [place_finite hf.1 hf.2, place_finite hg.1 hg.2]
        simp only [Sign.apply]
        rw [compare_negative, ← hf.1.compare_eq hg.1]
        rfl
      · obtain ⟨n₂, hn₂, -, hplace₂⟩ := place_finite_bounds .positive h₂ hg.1 hg.2
        rw [hplace, hplace₂]
        exact below (show -(n : Int) < (n₂ : Int) by omega)
      · obtain ⟨n₂, hn₂, -, hplace₂⟩ := place_finite_bounds .negative h₂ hg.1 hg.2
        rw [hplace, hplace₂]
        exact above (show -(n₂ : Int) < (n : Int) by omega)
      · rw [place_finite hf.1 hf.2, place_finite hg.1 hg.2]
        simp only [Sign.apply]
        rw [compare_positive, ← hf.1.compare_eq hg.1]
        rfl

theorem compare_eq_none {f g : UnpackedFloat} (h : ¬ (IsNumber f ∧ IsNumber g)) :
    f.compare g = none := by
  cases f with
  | notANumber => rfl
  | infinity s =>
    cases g with
    | notANumber => cases s <;> rfl
    | _ => exact absurd ⟨trivial, trivial⟩ h
  | zero s =>
    cases g with
    | notANumber => rfl
    | _ => exact absurd ⟨trivial, trivial⟩ h
  | finite s m e hm =>
    cases g with
    | notANumber => cases s <;> rfl
    | _ => exact absurd ⟨trivial, trivial⟩ h

/-! ## §C Thirty-two bits -/

theorem unpackSign_packComponents (spec : Format) (sign : Sign) (e : BitVec spec.exponentBits)
    (m : BitVec spec.mantissaBitsWithoutImplicit) :
    Sign.ofBitVec (unpackSign (packComponents spec sign e m)) = sign := by
  have hbit : unpackSign (packComponents spec sign e m) = sign.toBitVec := by
    ext i hi
    obtain rfl : i = 0 := by omega
    unfold unpackSign packComponents
    simp [BitVec.getLsbD_append, BitVec.getElem_append]
  rw [hbit]
  cases sign <;> rfl

theorem toNat_one_append (m : BitVec 23) : (1#1 ++ m).toNat = 2 ^ 23 + m.toNat := by
  rw [BitVec.toNat_append, ← Nat.shiftLeft_add_eq_or_of_lt m.isLt]
  rfl

/-- What a sign, an exponent and a mantissa stand for. -/
def fields (sign : Sign) (e : BitVec 8) (m : BitVec 23) : UnpackedFloat :=
  if e = -1#8 then if m = 0#23 then .infinity sign else .notANumber
  else if e = 0#8 then
    if h : 0 < m.toNat then .finite sign m.toNat (-149) h else .zero sign
  else .finite sign (2 ^ 23 + m.toNat) (e.toNat - 150) (by omega)

theorem unpack_eq_fields (b : BitVec Format.binary32.numBits) :
    unpack Format.binary32 b =
      fields (Sign.ofBitVec (unpackSign b)) (unpackExponent b) (unpackMantissa b) := by
  have hmantissa : unpackMantissa b = 0#23 ↔ ¬ 0 < (unpackMantissa b).toNat := by
    rw [← BitVec.toNat_inj, BitVec.toNat_zero]
    omega
  unfold UnpackedFloat.unpack fields
  dsimp only
  by_cases hlast : unpackExponent b = -1#8
  · rw [if_pos hlast, if_pos hlast]
  · rw [if_neg hlast, if_neg hlast]
    by_cases hfirst : unpackExponent b = 0#8
    · rw [if_pos hfirst, if_pos hfirst]
      by_cases h : 0 < (unpackMantissa b).toNat
      · rw [dif_neg (mt hmantissa.mp (not_not_intro h)), dif_pos h, hfirst]
        rfl
      · rw [dif_pos (hmantissa.mpr h), dif_neg h]
    · rw [if_neg hfirst, if_neg hfirst]
      exact (UnpackedFloat.finite.injEq ..).mpr ⟨rfl, toNat_one_append _, rfl⟩

theorem unpack_packComponents (sign : Sign) (e : BitVec 8) (m : BitVec 23) :
    unpack Format.binary32 (packComponents Format.binary32 sign e m) = fields sign e m := by
  rw [unpack_eq_fields, unpackSign_packComponents, unpackExponent_packComponents,
    unpackMantissa_packComponents]

theorem held_fields (sign : Sign) (e : BitVec 8) (m : BitVec 23) : Held (fields sign e m) := by
  have hm : m.toNat < 2 ^ 23 := m.isLt
  have he : e.toNat < 2 ^ 8 := e.isLt
  unfold fields
  split
  · split <;> trivial
  · next hlast =>
    split
    · split
      · exact ⟨⟨by omega, by omega, .inl rfl⟩, by omega⟩
      · trivial
    · next hfirst =>
      have hlast : e.toNat ≠ 255 := fun h => hlast (BitVec.eq_of_toNat_eq h)
      have hfirst : e.toNat ≠ 0 := fun h => hfirst (BitVec.eq_of_toNat_eq h)
      exact ⟨⟨by omega, by omega, .inr (by omega)⟩, by omega⟩

/-- What 32 bits stand for is in the format. -/
theorem held_unpack (b : BitVec Format.binary32.numBits) : Held (unpack Format.binary32 b) := by
  rw [unpack_eq_fields]
  exact held_fields _ _ _

/-- A cut number with an exponent of the format comes back as it was. -/
theorem unpack_pack_finite {sign : Sign} {m : Nat} {e : Int} {hm : 0 < m} (h : Fits m e)
    (he : e ≤ 104) : unpack Format.binary32 (pack Format.binary32 (.finite sign m e hm)) =
      .finite sign m e hm := by
  have hleast := h.least
  have hshort := h.short
  have hlog : m.log2 + 1 = Format.binary32.mantissaBits ↔ 2 ^ 23 ≤ m := by
    have hlt : m.log2 < 24 := (Nat.log2_lt (Nat.ne_of_gt hm)).mpr hshort
    rw [← Nat.le_log2 (Nat.ne_of_gt hm)]
    show m.log2 + 1 = 24 ↔ _
    omega
  have hbiased : (e + Format.binary32.exponentBias + (23 : Nat)).toNat = (e + 150).toNat := by
    show (e + (127 : Nat) + (23 : Nat)).toNat = _
    omega
  have hfit : ¬ 2 ^ 8 ≤ (e + 150).toNat + 1 := by omega
  unfold UnpackedFloat.pack
  dsimp only
  rw [hbiased, if_neg hfit]
  -- with its leading bit in use the mantissa is written without that bit, otherwise as it is,
  -- under the exponent zero
  by_cases hnormal : 2 ^ 23 ≤ m
  · have hexponent : (BitVec.ofNat 8 (e + 150).toNat).toNat = (e + 150).toNat := by
      rw [BitVec.toNat_ofNat, Nat.mod_eq_of_lt (by omega)]
    have hlast : BitVec.ofNat 8 (e + 150).toNat ≠ -1#8 := by
      rw [← BitVec.toNat_ne_iff_ne, hexponent]
      show _ ≠ 255
      omega
    have hfirst : BitVec.ofNat 8 (e + 150).toNat ≠ 0#8 := by
      rw [← BitVec.toNat_ne_iff_ne, hexponent]
      show _ ≠ 0
      omega
    rw [if_pos (hlog.mpr hnormal), unpack_packComponents]
    unfold fields
    rw [if_neg hlast, if_neg hfirst]
    congr 1
    · rw [BitVec.toNat_ofNat]
      omega
    · rw [hexponent]
      omega
  · have hmantissa : (BitVec.ofNat 23 m).toNat = m := by
      rw [BitVec.toNat_ofNat, Nat.mod_eq_of_lt (by omega)]
    obtain rfl : e = -149 := h.full.resolve_right hnormal
    rw [if_neg (mt hlog.mp hnormal), unpack_packComponents]
    unfold fields
    rw [if_neg (by decide), if_pos rfl, dif_pos (by omega)]
    congr 1

/-- A cut number with a larger exponent comes back as infinity. -/
theorem unpack_pack_infinity {sign : Sign} {m : Nat} {e : Int} {hm : 0 < m} (he : 105 ≤ e) :
    unpack Format.binary32 (pack Format.binary32 (.finite sign m e hm)) = .infinity sign := by
  have hbiased : (e + Format.binary32.exponentBias + (23 : Nat)).toNat = (e + 150).toNat := by
    show (e + (127 : Nat) + (23 : Nat)).toNat = _
    omega
  have hfit : 2 ^ 8 ≤ (e + 150).toNat + 1 := by omega
  unfold UnpackedFloat.pack
  dsimp only
  rw [hbiased, if_pos hfit]
  cases sign <;> rfl

/-- Writing a cut number in 32 bits does not move it. -/
theorem place_unpack_pack {f : UnpackedFloat} (h : Cut f) :
    place (unpack Format.binary32 (pack Format.binary32 f)) = place f ∧
      (IsNumber (unpack Format.binary32 (pack Format.binary32 f)) ↔ IsNumber f) := by
  cases f with
  | notANumber => exact ⟨rfl, Iff.rfl⟩
  | infinity s => cases s <;> exact ⟨rfl, Iff.rfl⟩
  | zero s => cases s <;> exact ⟨rfl, Iff.rfl⟩
  | finite s m e hm =>
    by_cases he : e ≤ 104
    · rw [unpack_pack_finite h he]
      exact ⟨rfl, Iff.rfl⟩
    · rw [unpack_pack_infinity (by omega)]
      refine ⟨?_, Iff.rfl⟩
      show s.apply beyond = s.apply _
      rw [Nat.min_eq_right (h.beyond_le (by omega))]

/-! ## §D The numbers themselves -/

/-- What the bits of a number stand for. -/
def parts (x : Float32) : UnpackedFloat := x.toModel.unpack

/-- The number written from a cut result. -/
def ofParts (f : UnpackedFloat) : Float32 := .ofModel (.pack f)

/-- The place of a number. -/
def value (x : Float32) : Int := place (parts x)

/-- The number is not the undefined one. -/
def Defined (x : Float32) : Prop := IsNumber (parts x)

theorem held_parts (x : Float32) : Held (parts x) := held_unpack _

theorem cut_of_held {f : UnpackedFloat} (h : Held f) : Cut f := by
  cases f with
  | finite s m e hm => exact h.1
  | _ => trivial

theorem value_ofParts {f : UnpackedFloat} (h : Cut f) : value (ofParts f) = place f :=
  (place_unpack_pack h).1

theorem defined_ofParts {f : UnpackedFloat} (h : Cut f) : Defined (ofParts f) ↔ IsNumber f :=
  (place_unpack_pack h).2

theorem le_iff_parts {x y : Float32} : x ≤ y ↔ (parts x).le (parts y) = true := by
  show decide (x.toModel ≤ y.toModel) = true ↔ _
  rw [decide_eq_true_iff]
  exact Iff.rfl

theorem lt_iff_parts {x y : Float32} : x < y ↔ (parts x).lt (parts y) = true := by
  show decide (x.toModel < y.toModel) = true ↔ _
  rw [decide_eq_true_iff]
  exact Iff.rfl

/-- **Comparison is comparison of places**, and no comparison holds of the undefined number. -/
theorem le_iff {x y : Float32} : x ≤ y ↔ Defined x ∧ Defined y ∧ value x ≤ value y := by
  rw [le_iff_parts, UnpackedFloat.le]
  by_cases h : Defined x ∧ Defined y
  · rw [compare_eq (held_parts x) (held_parts y) h.1 h.2]
    show (compare (value x) (value y)).isLE = true ↔ _
    rw [Int.isLE_compare]
    exact ⟨fun hle => ⟨h.1, h.2, hle⟩, fun hle => hle.2.2⟩
  · rw [compare_eq_none h]
    exact ⟨fun hle => absurd hle Bool.false_ne_true, fun hle => absurd ⟨hle.1, hle.2.1⟩ h⟩

theorem lt_iff {x y : Float32} : x < y ↔ Defined x ∧ Defined y ∧ value x < value y := by
  rw [lt_iff_parts, UnpackedFloat.lt]
  by_cases h : Defined x ∧ Defined y
  · rw [compare_eq (held_parts x) (held_parts y) h.1 h.2]
    show (some (compare (value x) (value y)) == some Ordering.lt) = true ↔ _
    rw [beq_iff_eq, Option.some.injEq, Int.compare_eq_lt]
    exact ⟨fun hlt => ⟨h.1, h.2, hlt⟩, fun hlt => hlt.2.2⟩
  · rw [compare_eq_none h]
    exact ⟨fun hlt => absurd hlt Bool.false_ne_true, fun hlt => absurd ⟨hlt.1, hlt.2.1⟩ h⟩

/-! ## §E Sign -/

theorem apply_neg (s : Sign) (n : Int) : (-s).apply n = -s.apply n := by
  cases s
  · exact (Int.neg_neg n).symm
  · rfl

theorem place_neg (f : UnpackedFloat) : place f.neg = -place f := by
  cases f with
  | notANumber => rfl
  | zero s => rfl
  | infinity s => exact apply_neg s _
  | finite s m e hm => exact apply_neg s _

theorem cut_neg {f : UnpackedFloat} (h : Cut f) : Cut f.neg := by
  cases f with
  | finite s m e hm => exact h
  | _ => trivial

theorem isNumber_neg (f : UnpackedFloat) : IsNumber f.neg ↔ IsNumber f := by
  cases f <;> exact Iff.rfl

@[simp] theorem value_neg (x : Float32) : value (-x) = -value x :=
  (value_ofParts (cut_neg (cut_of_held (held_parts x)))).trans (place_neg (parts x))

@[simp] theorem defined_neg (x : Float32) : Defined (-x) ↔ Defined x :=
  (defined_ofParts (cut_neg (cut_of_held (held_parts x)))).trans (isNumber_neg (parts x))

@[simp] theorem natAbs_apply (s : Sign) (n : Nat) : (s.apply n).natAbs = n := by
  cases s
  · rw [apply_negative, Int.natAbs_neg]
    rfl
  · rfl

theorem place_abs (f : UnpackedFloat) : place f.abs = (place f).natAbs := by
  cases f with
  | notANumber => rfl
  | zero s => rfl
  | infinity s => exact congrArg Int.ofNat (natAbs_apply s beyond).symm
  | finite s m e hm => exact congrArg Int.ofNat (natAbs_apply s _).symm

theorem cut_abs {f : UnpackedFloat} (h : Cut f) : Cut f.abs := by
  cases f with
  | finite s m e hm => exact h
  | _ => trivial

theorem isNumber_abs (f : UnpackedFloat) : IsNumber f.abs ↔ IsNumber f := by
  cases f <;> exact Iff.rfl

@[simp] theorem value_abs (x : Float32) : value x.abs = (value x).natAbs :=
  (value_ofParts (cut_abs (cut_of_held (held_parts x)))).trans (place_abs (parts x))

@[simp] theorem defined_abs (x : Float32) : Defined x.abs ↔ Defined x :=
  (defined_ofParts (cut_abs (cut_of_held (held_parts x)))).trans (isNumber_abs (parts x))

end ConvexCollision.Single
