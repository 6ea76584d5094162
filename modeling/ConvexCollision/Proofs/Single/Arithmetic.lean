import ConvexCollision.Proofs.Single.Value

/-!
# ConvexCollision.Proofs.Single.Arithmetic -- sums and products keep the order

The exact difference or product of two finite places, rounded, is the place of the result
(`at_sub`, `at_mul`), and rounding keeps the order (`settle_mono`). The infinite numbers stay
where they are, at the two ends.
-/

namespace ConvexCollision.Single

open Float.Model Float.Model.UnpackedFloat

/-! ## §A Rounding with a sign -/

/-- What becomes of `x / 2 ^ s` when it is rounded: no result lies outside the infinite numbers. -/
def settle (x : Int) (s : Nat) : Int :=
  if 0 ≤ x then (min (rounded x.toNat s) beyond : Nat)
  else -(min (rounded (-x).toNat s) beyond : Nat)

theorem settle_mono {x y : Int} (s : Nat) (h : x ≤ y) : settle x s ≤ settle y s := by
  unfold settle
  split
  · have hle := rounded_mono s (show x.toNat ≤ y.toNat by omega)
    rw [if_pos (by omega)]
    omega
  · split
    · omega
    · have hle := rounded_mono s (show (-y).toNat ≤ (-x).toNat by omega)
      omega

theorem settle_le_beyond (x : Int) (s : Nat) : settle x s ≤ beyond := by
  unfold settle
  split <;> omega

theorem neg_beyond_le_settle (x : Int) (s : Nat) : -(beyond : Int) ≤ settle x s := by
  unfold settle
  split <;> omega

theorem rounded_zero (s : Nat) : rounded 0 s = 0 := by
  have h : nearest 0 (lastBit 0 s) = 0 := by
    have h := nearest_mul_two_pow 0 (lastBit 0 s)
    rwa [Nat.zero_mul] at h
  unfold rounded
  rw [h, Nat.zero_mul]

@[simp] theorem settle_zero (s : Nat) : settle 0 s = 0 := by
  unfold settle
  rw [if_pos (Int.le_refl 0), Int.toNat_zero, rounded_zero, Nat.zero_min]
  rfl

theorem settle_apply (sign : Sign) (n s : Nat) :
    settle (sign.apply n) s = sign.apply (min (rounded n s) beyond : Nat) := by
  cases sign
  · rw [apply_negative, apply_negative]
    unfold settle
    split
    · next h =>
      obtain rfl : n = 0 := by omega
      rw [Int.natCast_zero, Int.neg_zero, Int.toNat_zero, rounded_zero, Nat.zero_min]
      rfl
    · rw [Int.neg_neg, Int.toNat_natCast]
  · rw [apply_positive, apply_positive]
    unfold settle
    rw [if_pos (Int.natCast_nonneg n), Int.toNat_natCast]

/-- A number of the format is not changed by rounding. -/
theorem settle_place {f : UnpackedFloat} (h : Held f) (hf : f.isFinite = true) :
    settle (place f) 0 = place f := by
  cases f with
  | notANumber => exact absurd hf Bool.false_ne_true
  | infinity s => exact absurd hf Bool.false_ne_true
  | zero s => exact settle_zero 0
  | finite s m e hm =>
    rw [place_finite h.1 h.2, settle_apply, rounded_of_fits h.1.short,
      Nat.min_eq_left (Nat.le_of_lt (h.1.lt_beyond h.2))]

/-- A cut number at a place. -/
structure At (f : UnpackedFloat) (p : Int) : Prop where
  cut : Cut f
  isNumber : IsNumber f
  place_eq : place f = p

theorem Outcome.at {sign : Sign} {n s : Nat} {f : UnpackedFloat} (h : Outcome sign (rounded n s) f) :
    At f (settle (sign.apply n) s) := by
  rw [settle_apply]
  generalize rounded n s = r at h
  cases h with
  | zero =>
    refine ⟨trivial, trivial, ?_⟩
    rw [Nat.zero_min]
    cases sign <;> rfl
  | finite hm h => exact ⟨h, trivial, rfl⟩

/-! ## §B Differences -/

theorem at_normalize (m : Int) {e : Int} (he : -149 ≤ e) (zero : Sign) :
    At (UnpackedFloat.normalize Format.binary32 m e zero) (settle (m * 2 ^ (e + 149).toNat) 0) := by
  unfold UnpackedFloat.normalize
  rcases Int.lt_trichotomy m 0 with hneg | rfl | hpos
  · obtain ⟨n, rfl⟩ : ∃ n : Nat, m = -n := ⟨(-m).toNat, by omega⟩
    have h := (round_exact .negative (show 0 < n by omega) he).at
    rw [Int.compare_eq_lt.mpr hneg]
    simp only [Int.neg_neg, Int.toNat_natCast]
    rw [Int.neg_mul]
    push_cast [Sign.apply] at h
    exact h
  · rw [Int.zero_mul, settle_zero]
    exact ⟨trivial, trivial, rfl⟩
  · obtain ⟨n, rfl⟩ : ∃ n : Nat, m = n := ⟨m.toNat, by omega⟩
    have h := (round_exact .positive (show 0 < n by omega) he).at
    rw [Int.compare_eq_gt.mpr hpos]
    simp only [Int.toNat_natCast]
    push_cast [Sign.apply] at h
    exact h

theorem apply_mul (s : Sign) (m n : Nat) : s.apply (m * n : Nat) = s.apply m * n := by
  cases s
  · simp only [Sign.apply]
    rw [Int.natCast_mul, Int.neg_mul]
  · exact Int.natCast_mul m n

/-- The place of a number whose mantissa was extended down to a smaller exponent. -/
theorem place_eq_shiftLeft {s : Sign} {m : Nat} {e l : Int} {hm : 0 < m}
    (h : Held (.finite s m e hm)) (hl : -149 ≤ l) (hle : l ≤ e) :
    place (.finite s m e hm) = s.apply (m <<< (e - l).toNat : Nat) * 2 ^ (l + 149).toNat := by
  have hpow : m * 2 ^ (e + 149).toNat = m <<< (e - l).toNat * 2 ^ (l + 149).toNat := by
    rw [Nat.shiftLeft_eq, Nat.mul_assoc, ← Nat.pow_add]
    congr 2
    omega
  rw [place_finite h.1 h.2, hpow, apply_mul, Int.natCast_pow]
  rfl

/-- **The difference of two finite numbers** is their exact difference, rounded. -/
theorem at_sub {f g : UnpackedFloat} (hf : Held f) (hg : Held g) (ff : f.isFinite = true)
    (fg : g.isFinite = true) :
    At (UnpackedFloat.sub Format.binary32 f g) (settle (place f - place g) 0) := by
  cases f with
  | notANumber => exact absurd ff Bool.false_ne_true
  | infinity s => exact absurd ff Bool.false_ne_true
  | zero s =>
    cases g with
    | notANumber => exact absurd fg Bool.false_ne_true
    | infinity t => exact absurd fg Bool.false_ne_true
    | zero t =>
      have hzero : settle (place (.zero s) - place (.zero t)) 0 = 0 := settle_zero 0
      rw [hzero]
      cases s <;> cases t <;> exact ⟨trivial, trivial, rfl⟩
    | finite t m₂ e₂ h₂ =>
      have hplace : place (.zero s) - place (.finite t m₂ e₂ h₂) = place (.finite (-t) m₂ e₂ h₂) :=
        (Int.zero_sub _).trans (apply_neg t _).symm
      have hheld : Held (.finite (-t) m₂ e₂ h₂) := hg
      rw [hplace, settle_place hheld rfl]
      exact ⟨hg.1, trivial, rfl⟩
  | finite s m₁ e₁ h₁ =>
    cases g with
    | notANumber => exact absurd fg Bool.false_ne_true
    | infinity t => exact absurd fg Bool.false_ne_true
    | zero t =>
      have hplace : place (.finite s m₁ e₁ h₁) - place (.zero t) = place (.finite s m₁ e₁ h₁) :=
        Int.sub_zero _
      rw [hplace, settle_place hf rfl]
      exact ⟨hf.1, trivial, rfl⟩
    | finite t m₂ e₂ h₂ =>
      have hleast₁ := hf.1.least
      have hleast₂ := hg.1.least
      -- both are brought to the smaller exponent and subtracted there
      have h := at_normalize
        (s.apply (m₁ <<< (e₁ - min e₁ e₂).toNat : Nat) - t.apply (m₂ <<< (e₂ - min e₁ e₂).toNat : Nat))
        (show -149 ≤ min e₁ e₂ by omega) .positive
      have hplace : place (.finite s m₁ e₁ h₁) - place (.finite t m₂ e₂ h₂) =
          (s.apply (m₁ <<< (e₁ - min e₁ e₂).toNat : Nat) -
            t.apply (m₂ <<< (e₂ - min e₁ e₂).toNat : Nat)) * 2 ^ (min e₁ e₂ + 149).toNat := by
        rw [Int.sub_mul, ← place_eq_shiftLeft hf (by omega) (by omega),
          ← place_eq_shiftLeft hg (by omega) (by omega)]
      rw [hplace]
      exact h

/-! ## §C Products -/

theorem apply_mul_apply (s t : Sign) (m n : Nat) :
    s.apply m * t.apply n = (s * t).apply (m * n : Nat) := by
  cases s <;> cases t
  · exact Int.neg_mul_neg m n
  · exact Int.neg_mul m n
  · exact Int.mul_neg m n
  · rfl

/-- A product of two mantissas is long enough to be cut, unless both numbers are the smallest. -/
theorem Fits.mul_long {m₁ m₂ : Nat} {e₁ e₂ : Int} (h₁ : Fits m₁ e₁) (h₂ : Fits m₂ e₂)
    (hm₁ : 0 < m₁) (hm₂ : 0 < m₂) : 2 ^ 23 ≤ m₁ * m₂ ∨ e₁ + e₂ ≤ -149 := by
  rcases h₁.full with he₁ | hfull
  · rcases h₂.full with he₂ | hfull
    · right
      omega
    · exact .inl (Nat.le_trans hfull (Nat.le_mul_of_pos_left m₂ hm₁))
  · exact .inl (Nat.le_trans hfull (Nat.le_mul_of_pos_right m₁ hm₂))

/-- **The product of two finite numbers** is their exact product, rounded. The product of two places
has the square of the unit for its unit. -/
theorem at_mul {f g : UnpackedFloat} (hf : Held f) (hg : Held g) (ff : f.isFinite = true)
    (fg : g.isFinite = true) :
    At (UnpackedFloat.mul Format.binary32 f g) (settle (place f * place g) 149) := by
  cases f with
  | notANumber => exact absurd ff Bool.false_ne_true
  | infinity s => exact absurd ff Bool.false_ne_true
  | zero s =>
    have hzero : settle (place (.zero s) * place g) 149 = 0 := by
      show settle (0 * _) 149 = 0
      rw [Int.zero_mul, settle_zero]
    rw [hzero]
    cases g with
    | notANumber => exact absurd fg Bool.false_ne_true
    | infinity t => exact absurd fg Bool.false_ne_true
    | zero t => exact ⟨trivial, trivial, rfl⟩
    | finite t m₂ e₂ h₂ => exact ⟨trivial, trivial, rfl⟩
  | finite s m₁ e₁ h₁ =>
    cases g with
    | notANumber => exact absurd fg Bool.false_ne_true
    | infinity t => exact absurd fg Bool.false_ne_true
    | zero t =>
      have hzero : settle (place (.finite s m₁ e₁ h₁) * place (.zero t)) 149 = 0 := by
        show settle (_ * 0) 149 = 0
        rw [Int.mul_zero, settle_zero]
      rw [hzero]
      exact ⟨trivial, trivial, rfl⟩
    | finite t m₂ e₂ h₂ =>
      have hleast₁ := hf.1.least
      have hleast₂ := hg.1.least
      have h := (roundWithAccuracy_exact (s * t) 149 (Nat.mul_pos h₁ h₂)
        (show -149 - (149 : Nat) ≤ e₁ + e₂ by omega) (hf.1.mul_long hg.1 h₁ h₂)).at
      have hpow : m₁ * 2 ^ (e₁ + 149).toNat * (m₂ * 2 ^ (e₂ + 149).toNat) =
          m₁ * m₂ * 2 ^ (e₁ + e₂ + 149 + (149 : Nat)).toNat := by
        rw [Nat.mul_mul_mul_comm, ← Nat.pow_add]
        congr 2
        omega
      rw [place_finite hf.1 hf.2, place_finite hg.1 hg.2, apply_mul_apply, hpow]
      exact h

/-! ## §D The laws -/

theorem at_infinity (s : Sign) : At (.infinity s) (s.apply beyond) := ⟨trivial, trivial, rfl⟩

theorem At.defined {f : UnpackedFloat} {p : Int} (h : At f p) : Defined (ofParts f) :=
  (defined_ofParts h.cut).mpr h.isNumber

theorem At.value_eq {f : UnpackedFloat} {p : Int} (h : At f p) : value (ofParts f) = p :=
  (value_ofParts h.cut).trans h.place_eq

theorem le_of_at {f g : UnpackedFloat} {p q : Int} (hf : At f p) (hg : At g q) (h : p ≤ q) :
    ofParts f ≤ ofParts g := by
  refine le_iff.mpr ⟨hf.defined, hg.defined, ?_⟩
  rw [hf.value_eq, hg.value_eq]
  exact h

theorem finite_or_infinity {f : UnpackedFloat} (h : IsNumber f) :
    f.isFinite = true ∨ ∃ s, f = .infinity s := by
  cases f with
  | notANumber => exact h.elim
  | infinity s => exact .inr ⟨s, rfl⟩
  | zero s => exact .inl rfl
  | finite s m e hm => exact .inl rfl

theorem isNumber_of_isFinite {f : UnpackedFloat} (h : f.isFinite = true) : IsNumber f := by
  cases f with
  | notANumber => exact absurd h Bool.false_ne_true
  | _ => trivial

/-- The finite numbers lie between the infinite ones. -/
theorem place_bounds {f : UnpackedFloat} (h : Held f) (hf : f.isFinite = true) :
    -(beyond : Int) < place f ∧ place f < beyond := by
  have hpos := beyond_pos
  cases f with
  | notANumber => exact absurd hf Bool.false_ne_true
  | infinity s => exact absurd hf Bool.false_ne_true
  | zero s =>
    show -(beyond : Int) < 0 ∧ (0 : Int) < beyond
    omega
  | finite s m e hm =>
    obtain ⟨n, -, hlt, hplace⟩ := place_finite_bounds s hm h.1 h.2
    have habs := natAbs_apply s n
    rw [hplace]
    omega

/-- A number between the infinite ones is finite. -/
theorem isFinite_of_bounds {f : UnpackedFloat} (h : IsNumber f)
    (hlt : (place f).natAbs < beyond) : f.isFinite = true := by
  rcases finite_or_infinity h with hf | ⟨s, rfl⟩
  · exact hf
  · rw [show place (.infinity s) = s.apply beyond from rfl, natAbs_apply] at hlt
    exact absurd hlt (Nat.lt_irrefl beyond)

theorem isFinite_neg {x : Float32} (h : (parts x).isFinite = true) :
    (parts (-x)).isFinite = true := by
  obtain ⟨hlow, hhigh⟩ := place_bounds (held_parts x) h
  refine isFinite_of_bounds ((defined_neg x).mpr (isNumber_of_isFinite h)) ?_
  show (value (-x)).natAbs < beyond
  rw [value_neg, Int.natAbs_neg]
  unfold value
  omega

/-- Subtracting a finite number from an infinite one leaves it where it is. -/
theorem at_sub_infinity (s : Sign) {g : UnpackedFloat} (fg : g.isFinite = true) :
    At (UnpackedFloat.sub Format.binary32 (.infinity s) g) (s.apply beyond) := by
  cases g with
  | notANumber => exact absurd fg Bool.false_ne_true
  | infinity t => exact absurd fg Bool.false_ne_true
  | zero t => exact at_infinity s
  | finite t m e hm => exact at_infinity s

theorem value_infinity {x : Float32} {s : Sign} (h : parts x = .infinity s) :
    value x = s.apply beyond := by
  unfold value
  rw [h]
  rfl

/-- No number is above infinity but infinity. -/
theorem le_apply_of_le {x y : Float32} (hx : (parts x).isFinite = true) {t : Sign}
    (hy : parts y = .infinity t) (h : value x ≤ value y) {p : Int} (hp : p ≤ beyond) :
    p ≤ t.apply beyond := by
  have hbounds := place_bounds (held_parts x) hx
  rw [value_infinity hy] at h
  cases t
  · exact absurd hbounds.1 (Int.not_lt.mpr h)
  · exact hp

/-- No number is below the negative infinity but that one. -/
theorem apply_le_of_le {x y : Float32} {s : Sign} (hx : parts x = .infinity s)
    (hy : (parts y).isFinite = true) (h : value x ≤ value y) {p : Int} (hp : -(beyond : Int) ≤ p) :
    s.apply beyond ≤ p := by
  have hbounds := place_bounds (held_parts y) hy
  rw [value_infinity hx] at h
  cases s
  · exact hp
  · exact absurd hbounds.2 (Int.not_lt.mpr h)

/-- **Subtracting a finite number keeps the order.** -/
theorem sub_le_sub_right {x y z : Float32} (hz : z.isFinite = true) (h : x ≤ y) : x - z ≤ y - z := by
  obtain ⟨hx, hy, hxy⟩ := le_iff.mp h
  show ofParts (UnpackedFloat.sub _ (parts x) (parts z)) ≤
    ofParts (UnpackedFloat.sub _ (parts y) (parts z))
  -- an infinite number stays at its end, and a finite result never passes the end
  rcases finite_or_infinity hx with fx | ⟨s, hs⟩
  · rcases finite_or_infinity hy with fy | ⟨t, ht⟩
    · exact le_of_at (at_sub (held_parts x) (held_parts z) fx hz)
        (at_sub (held_parts y) (held_parts z) fy hz) (settle_mono 0 (Int.sub_le_sub_right hxy _))
    · rw [ht]
      exact le_of_at (at_sub (held_parts x) (held_parts z) fx hz) (at_sub_infinity t hz)
        (le_apply_of_le fx ht hxy (settle_le_beyond _ 0))
  · rcases finite_or_infinity hy with fy | ⟨t, ht⟩
    · rw [hs]
      exact le_of_at (at_sub_infinity s hz) (at_sub (held_parts y) (held_parts z) fy hz)
        (apply_le_of_le hs fy hxy (neg_beyond_le_settle _ 0))
    · rw [value_infinity hs, value_infinity ht] at hxy
      rw [hs, ht]
      exact le_of_at (at_sub_infinity s hz) (at_sub_infinity t hz) hxy

theorem place_infinity (s : Sign) : place (.infinity s) = s.apply beyond := rfl

/-- A number that is not zero has the sign of its place. -/
theorem place_finite_sign (s : Sign) {m : Nat} (e : Int) (hm : 0 < m) :
    ∃ n : Nat, 0 < n ∧ place (.finite s m e hm) = s.apply n := by
  refine ⟨min (m * 2 ^ (e + 149).toNat) beyond, ?_, rfl⟩
  have hpos := beyond_pos
  have hprod : 0 < m * 2 ^ (e + 149).toNat := Nat.mul_pos hm (Nat.two_pow_pos _)
  omega

theorem eq_zero_of_place {f : UnpackedFloat} (hf : IsNumber f) (h : place f = 0) :
    ∃ s, f = .zero s := by
  have hpos := beyond_pos
  cases f with
  | notANumber => exact hf.elim
  | infinity s =>
    have habs := natAbs_apply s beyond
    rw [place_infinity] at h
    omega
  | zero s => exact ⟨s, rfl⟩
  | finite s m e hm =>
    obtain ⟨n, hn, hplace⟩ := place_finite_sign s e hm
    have habs := natAbs_apply s n
    rw [hplace] at h
    omega

/-- The product of an infinite number and a positive one is that infinite number. -/
theorem at_infinity_mul (s : Sign) {g : UnpackedFloat} (hg : IsNumber g) (hpos : 0 < place g) :
    At (UnpackedFloat.mul Format.binary32 (.infinity s) g) (s.apply beyond) := by
  have hbeyond := beyond_pos
  cases g with
  | notANumber => exact hg.elim
  | infinity t =>
    cases t
    · rw [place_infinity, apply_negative] at hpos
      omega
    · cases s <;> exact at_infinity _
  | zero t => exact absurd hpos (Int.lt_irrefl 0)
  | finite t m e hm =>
    cases t
    · obtain ⟨n, -, hplace⟩ := place_finite_sign .negative e hm
      rw [hplace, apply_negative] at hpos
      omega
    · cases s <;> exact at_infinity _

/-- The product of a number that is not zero and infinity is infinite, with the sign of the number. -/
theorem at_mul_infinity {f : UnpackedFloat} (hf : IsNumber f) (hzero : place f ≠ 0) :
    At (UnpackedFloat.mul Format.binary32 f (.infinity .positive))
      (if 0 < place f then (beyond : Int) else -beyond) := by
  have hbeyond := beyond_pos
  cases f with
  | notANumber => exact hf.elim
  | infinity s =>
    rw [place_infinity]
    cases s
    · rw [apply_negative, if_neg (by omega)]
      exact at_infinity .negative
    · rw [apply_positive, if_pos (by omega)]
      exact at_infinity .positive
  | zero s => exact absurd rfl hzero
  | finite s m e hm =>
    obtain ⟨n, hn, hplace⟩ := place_finite_sign s e hm
    rw [hplace]
    cases s
    · rw [apply_negative, if_neg (by omega)]
      exact at_infinity .negative
    · rw [apply_positive, if_pos (by omega)]
      exact at_infinity .positive

/-- A product that is defined was not found to be undefined before it was written. -/
theorem mul_ne_notANumber {x z : Float32} (h : Defined (x * z)) :
    UnpackedFloat.mul Format.binary32 (parts x) (parts z) ≠ .notANumber := by
  intro hmul
  have hprod : x * z = ofParts .notANumber := congrArg ofParts hmul
  rw [hprod] at h
  exact (defined_ofParts (f := .notANumber) trivial).mp h

/-- Infinity times zero is undefined. -/
theorem value_ne_zero_of_infinity_mul {x z : Float32} {s : Sign} (hx : parts x = .infinity s)
    (hz : Defined z) (h : Defined (x * z)) : value z ≠ 0 := by
  intro hzero
  obtain ⟨t, ht⟩ := eq_zero_of_place hz hzero
  refine mul_ne_notANumber h ?_
  rw [hx, ht]
  rfl

/-- Zero times infinity is undefined. -/
theorem value_ne_zero_of_mul_infinity {x z : Float32} {t : Sign} (hx : Defined x)
    (hz : parts z = .infinity t) (h : Defined (x * z)) : value x ≠ 0 := by
  intro hzero
  obtain ⟨s, hs⟩ := eq_zero_of_place hx hzero
  refine mul_ne_notANumber h ?_
  rw [hs, hz]
  rfl

/-- A number that is infinite and not negative. -/
theorem eq_positive_of_infinity {z : Float32} {t : Sign} (hz : parts z = .infinity t)
    (hpos : 0 ≤ value z) : t = .positive := by
  have hbeyond := beyond_pos
  rw [value_infinity hz] at hpos
  cases t
  · rw [apply_negative] at hpos
    omega
  · rfl

/-- **Scaling by a number that is not negative keeps the order** of the products that are defined. -/
theorem mul_le_mul_right {x y z : Float32} (dz : Defined z) (hz : 0 ≤ value z) (h : x ≤ y)
    (dxz : Defined (x * z)) (dyz : Defined (y * z)) : x * z ≤ y * z := by
  obtain ⟨dx, dy, hxy⟩ := le_iff.mp h
  show ofParts (UnpackedFloat.mul _ (parts x) (parts z)) ≤
    ofParts (UnpackedFloat.mul _ (parts y) (parts z))
  rcases finite_or_infinity dz with fz | ⟨u, hu⟩
  · rcases finite_or_infinity dx with fx | ⟨s, hs⟩
    · rcases finite_or_infinity dy with fy | ⟨t, ht⟩
      · exact le_of_at (at_mul (held_parts x) (held_parts z) fx fz)
          (at_mul (held_parts y) (held_parts z) fy fz)
          (settle_mono 149 (Int.mul_le_mul_of_nonneg_right hxy hz))
      · have hpos : 0 < value z :=
          Int.lt_iff_le_and_ne.mpr ⟨hz, (value_ne_zero_of_infinity_mul ht dz dyz).symm⟩
        rw [ht]
        exact le_of_at (at_mul (held_parts x) (held_parts z) fx fz) (at_infinity_mul t dz hpos)
          (le_apply_of_le fx ht hxy (settle_le_beyond _ 149))
    · have hpos : 0 < value z :=
        Int.lt_iff_le_and_ne.mpr ⟨hz, (value_ne_zero_of_infinity_mul hs dz dxz).symm⟩
      rcases finite_or_infinity dy with fy | ⟨t, ht⟩
      · rw [hs]
        exact le_of_at (at_infinity_mul s dz hpos) (at_mul (held_parts y) (held_parts z) fy fz)
          (apply_le_of_le hs fy hxy (neg_beyond_le_settle _ 149))
      · rw [value_infinity hs, value_infinity ht] at hxy
        rw [hs, ht]
        exact le_of_at (at_infinity_mul s dz hpos) (at_infinity_mul t dz hpos) hxy
  -- scaled by infinity, both go to the end on their side of zero
  · obtain rfl : u = .positive := eq_positive_of_infinity hu hz
    have hx := value_ne_zero_of_mul_infinity dx hu dxz
    have hy := value_ne_zero_of_mul_infinity dy hu dyz
    rw [hu]
    refine le_of_at (at_mul_infinity dx hx) (at_mul_infinity dy hy) ?_
    have hxy : place (parts x) ≤ place (parts y) := hxy
    split
    · rw [if_pos (by omega)]
    · split <;> omega

/-- Scaling by a positive finite number is always defined. -/
theorem defined_mul {x z : Float32} (dx : Defined x) (fz : (parts z).isFinite = true)
    (hz : 0 < value z) : Defined (x * z) := by
  rcases finite_or_infinity dx with fx | ⟨s, hs⟩
  · exact (at_mul (held_parts x) (held_parts z) fx fz).defined
  · have hat := at_infinity_mul s (isNumber_of_isFinite fz) hz
    rw [← hs] at hat
    exact hat.defined

/-- A product is undefined only where those before it are not above zero. -/
theorem mul_le_zero {x y z : Float32} (dz : Defined z) (hz : 0 ≤ value z) (h : x ≤ y)
    (dxz : Defined (x * z)) (dyz : ¬ Defined (y * z)) : value (x * z) ≤ 0 := by
  obtain ⟨dx, dy, hxy⟩ := le_iff.mp h
  rcases finite_or_infinity dz with fz | ⟨u, hu⟩
  · -- The other factor is infinite, this one is zero.
    rcases finite_or_infinity dy with fy | ⟨t, ht⟩
    · exact absurd (at_mul (held_parts y) (held_parts z) fy fz).defined dyz
    · have hzero : value z = 0 := by
        by_contra hne
        have hpos : 0 < value z := Int.lt_iff_le_and_ne.mpr ⟨hz, Ne.symm hne⟩
        have hat := at_infinity_mul t dz hpos
        rw [← ht] at hat
        exact dyz hat.defined
      rcases finite_or_infinity dx with fx | ⟨s, hs⟩
      · have hprod : value (x * z) = settle (value x * value z) 149 :=
          (at_mul (held_parts x) (held_parts z) fx fz).value_eq
        rw [hprod, hzero, Int.mul_zero, settle_zero]
      · exact absurd hzero (value_ne_zero_of_infinity_mul hs dz dxz)
  · -- The other factor is zero, this one is infinite.
    obtain rfl : u = .positive := eq_positive_of_infinity hu hz
    have hy : value y = 0 := by
      by_contra hne
      have hat := at_mul_infinity dy hne
      rw [← hu] at hat
      exact dyz hat.defined
    have hx := value_ne_zero_of_mul_infinity dx hu dxz
    have hat := at_mul_infinity dx hx
    have hneg : ¬ 0 < place (parts x) := by
      show ¬ 0 < value x
      omega
    rw [← hu, if_neg hneg] at hat
    have hprod : value (x * z) = -beyond := hat.value_eq
    have hbeyond := beyond_pos
    omega

/-! ## §E Quotients -/

theorem fields_positive {e : BitVec 8} (m : BitVec 23) (he : e ≠ -1#8) :
    IsNumber (fields .positive e m) ∧ 0 ≤ place (fields .positive e m) := by
  unfold fields
  rw [if_neg he]
  split
  · split
    · exact ⟨trivial, Int.natCast_nonneg _⟩
    · exact ⟨trivial, Int.le_refl 0⟩
  · exact ⟨trivial, Int.natCast_nonneg _⟩

/-- What is written of a positive result is not negative, even if it was not cut. -/
theorem nonneg_of_positive (m : Nat) (e : Int) (hm : 0 < m) :
    Defined (ofParts (.finite .positive m e hm)) ∧ 0 ≤ value (ofParts (.finite .positive m e hm)) := by
  show IsNumber (unpack _ (pack _ _)) ∧ 0 ≤ place (unpack _ (pack _ _))
  unfold UnpackedFloat.pack
  dsimp only
  split
  · exact ⟨trivial, Int.natCast_nonneg beyond⟩
  · next hfit =>
    split
    · rw [unpack_packComponents]
      refine fields_positive _ ?_
      rw [← BitVec.toNat_ne_iff_ne, BitVec.toNat_ofNat]
      show _ ≠ 255
      have hfit : ¬ 2 ^ 8 ≤ (e + Format.binary32.exponentBias + (23 : Nat)).toNat + 1 := hfit
      omega
    · rw [unpack_packComponents]
      exact fields_positive _ (by decide)

/-- The quotient of two positive numbers is a number, and not negative. -/
theorem div_nonneg {x y : Float32} {m : Nat} {e : Int} {hm : 0 < m}
    (hx : parts x = .finite .positive m e hm) (dy : Defined y) (hy : 0 < value y) :
    Defined (x / y) ∧ 0 ≤ value (x / y) := by
  have hbeyond := beyond_pos
  have hzero : Defined (ofParts (.zero .positive)) ∧ 0 ≤ value (ofParts (.zero .positive)) := by
    have hat : At (.zero .positive) 0 := ⟨trivial, trivial, rfl⟩
    exact ⟨hat.defined, Int.le_of_eq hat.value_eq.symm⟩
  show Defined (ofParts (UnpackedFloat.div _ (parts x) (parts y))) ∧
    0 ≤ value (ofParts (UnpackedFloat.div _ (parts x) (parts y)))
  unfold Defined at dy
  unfold value at hy
  rw [hx]
  cases hparts : parts y with
  | notANumber =>
    rw [hparts] at dy
    exact dy.elim
  | infinity t =>
    rw [hparts, place_infinity] at hy
    cases t
    · rw [apply_negative] at hy
      omega
    · exact hzero
  | zero t =>
    rw [hparts] at hy
    exact absurd hy (Int.lt_irrefl 0)
  | finite t m₂ e₂ h₂ =>
    obtain ⟨n, hn, hplace⟩ := place_finite_sign t e₂ h₂
    rw [hparts, hplace] at hy
    cases t
    · rw [apply_negative] at hy
      omega
    · let quotient := divCore Format.binary32 m e m₂ e₂
      let first := shiftToTargetExponent Format.binary32 quotient.1 quotient.2.1 quotient.2.2
      have hcut : UnpackedFloat.div Format.binary32 (.finite .positive m e hm)
          (.finite .positive m₂ e₂ h₂) = settled .positive
            (shiftToTargetExponent Format.binary32 first.1.roundedMantissa first.2 .exact) := rfl
      rw [hcut]
      unfold settled
      split
      · exact hzero
      · exact nonneg_of_positive _ _ _

end ConvexCollision.Single
