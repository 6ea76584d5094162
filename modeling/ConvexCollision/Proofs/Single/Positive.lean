import ConvexCollision.Proofs.Signs
import ConvexCollision.Proofs.Single.Laws
import ConvexCollision.Proofs.Single.Sign

/-!
# ConvexCollision.Proofs.Single.Positive -- signs of single precision

The undefined number makes every result undefined that it enters, by the first lines of each operation
(`defined_both`). The sign of any other result is told before it is rounded, and rounding keeps it: what is
written of a positive result is zero, positive or infinite (`notNegative_roundWithAccuracy`). So the laws of
`Scalar.Strict` and `Scalar.Signed` hold of `Float32`, with overflow, underflow and both zeros.
-/

namespace ConvexCollision

namespace Single

open Float.Model Float.Model.UnpackedFloat

variable {x y : Float32} {f g : UnpackedFloat}

/-! ## §A Undefined operands -/

theorem le_self_iff : x ≤ x ↔ Defined x :=
  le_iff.trans ⟨fun h => h.1, fun h => ⟨h, h, Int.le_refl _⟩⟩

theorem parts_of_undefined (h : ¬ Defined x) : parts x = .notANumber := by
  unfold Defined at h
  cases hparts : parts x with
  | notANumber => rfl
  | _ =>
    rw [hparts] at h
    exact absurd trivial h

theorem not_defined_notANumber : ¬ Defined (ofParts .notANumber) :=
  (defined_ofParts (f := .notANumber) trivial).mp

/-- An operation that begins by looking for the undefined number. -/
theorem defined_both (op : UnpackedFloat → UnpackedFloat → UnpackedFloat)
    (hleft : ∀ g, op .notANumber g = .notANumber) (hright : ∀ f, op f .notANumber = .notANumber)
    (h : Defined (ofParts (op (parts x) (parts y)))) : Defined x ∧ Defined y := by
  constructor
  · by_contra hx
    rw [parts_of_undefined hx, hleft] at h
    exact not_defined_notANumber h
  · by_contra hy
    rw [parts_of_undefined hy, hright] at h
    exact not_defined_notANumber h

theorem defined_sqrt (h : Defined (Scalar.sqrt x)) : Defined x := by
  by_contra hx
  have hroot : Scalar.sqrt x = ofParts (UnpackedFloat.sqrt Format.binary32 (parts x)) := rfl
  rw [hroot, parts_of_undefined hx] at h
  exact not_defined_notANumber h

instance : Scalar.Strict Float32 where
  defined_add h := by
    obtain ⟨hx, hy⟩ := defined_both (UnpackedFloat.add Format.binary32)
      (fun _ => rfl) (fun f => by cases f <;> rfl) (le_self_iff.mp h)
    exact ⟨le_self_iff.mpr hx, le_self_iff.mpr hy⟩
  defined_sub h := by
    obtain ⟨hx, hy⟩ := defined_both (UnpackedFloat.sub Format.binary32)
      (fun _ => rfl) (fun f => by cases f <;> rfl) (le_self_iff.mp h)
    exact ⟨le_self_iff.mpr hx, le_self_iff.mpr hy⟩
  defined_mul h := by
    obtain ⟨hx, hy⟩ := defined_both (UnpackedFloat.mul Format.binary32)
      (fun _ => rfl) (fun f => by cases f <;> rfl) (le_self_iff.mp h)
    exact ⟨le_self_iff.mpr hx, le_self_iff.mpr hy⟩
  defined_div h := by
    obtain ⟨hx, hy⟩ := defined_both (UnpackedFloat.div Format.binary32)
      (fun _ => rfl) (fun f => by cases f <;> rfl) (le_self_iff.mp h)
    exact ⟨le_self_iff.mpr hx, le_self_iff.mpr hy⟩
  defined_neg h := le_self_iff.mpr ((defined_neg _).mp (le_self_iff.mp h))
  defined_sqrt h := le_self_iff.mpr (defined_sqrt (le_self_iff.mp h))
  defined_of_isFinite h := le_self_iff.mpr (isNumber_of_isFinite h)

/-! ## §B Results that are not negative -/

/-- Zero, a positive number, or the positive infinite one. -/
def NotNegative : UnpackedFloat → Prop
  | .notANumber => False
  | .infinity sign => sign = .positive
  | .zero _ => True
  | .finite sign _ _ _ => sign = .positive

theorem notNegative_iff : NotNegative f ↔ IsNumber f ∧ 0 ≤ place f := by
  have hbeyond := beyond_pos
  cases f with
  | notANumber => exact ⟨False.elim, fun h => h.1⟩
  | infinity s =>
    cases s
    · refine ⟨nofun, fun h => ?_⟩
      have hplace : (0 : Int) ≤ -beyond := h.2
      omega
    · exact ⟨fun _ => ⟨trivial, Int.natCast_nonneg _⟩, fun _ => rfl⟩
  | zero s => exact ⟨fun _ => ⟨trivial, Int.le_refl 0⟩, fun _ => trivial⟩
  | finite s m e hm =>
    obtain ⟨n, hn, hplace⟩ := place_finite_sign s e hm
    rw [hplace]
    cases s
    · refine ⟨nofun, fun h => ?_⟩
      have hplace : (0 : Int) ≤ -n := h.2
      omega
    · exact ⟨fun _ => ⟨trivial, Int.natCast_nonneg n⟩, fun _ => rfl⟩

theorem zero_le_iff : (0 : Float32) ≤ x ↔ NotNegative (parts x) := by
  rw [le_iff, notNegative_iff]
  exact ⟨fun h => ⟨h.2.1, h.2.2⟩, fun h => ⟨trivial, h.1, h.2⟩⟩

/-- A positive number is finite and positive, or infinite. -/
theorem parts_of_pos (h : (0 : Float32) < x) :
    parts x = .infinity .positive ∨ ∃ m e hm, parts x = .finite .positive m e hm := by
  obtain ⟨-, hdefined, hpos⟩ := lt_iff.mp h
  have hpos : 0 < place (parts x) := hpos
  have hsign : NotNegative (parts x) := notNegative_iff.mpr ⟨hdefined, Int.le_of_lt hpos⟩
  cases hparts : parts x with
  | notANumber =>
    rw [hparts] at hsign
    exact hsign.elim
  | infinity s =>
    rw [hparts] at hsign
    cases hsign
    exact .inl rfl
  | zero s =>
    rw [hparts] at hpos
    exact absurd hpos (Int.lt_irrefl 0)
  | finite s m e hm =>
    rw [hparts] at hsign
    cases hsign
    exact .inr ⟨m, e, hm, rfl⟩

/-- Writing a result that is not negative in 32 bits leaves it so, even if it was not cut. -/
theorem zero_le_ofParts (h : NotNegative f) : (0 : Float32) ≤ ofParts f := by
  have hat {p : Int} (hf : At f p) (hp : 0 ≤ p) : (0 : Float32) ≤ ofParts f :=
    le_iff.mpr ⟨trivial, hf.defined, hf.value_eq ▸ hp⟩
  cases f with
  | notANumber => exact h.elim
  | infinity s =>
    cases h
    exact hat (at_infinity .positive) (Int.natCast_nonneg _)
  | zero s => exact hat ⟨trivial, trivial, rfl⟩ (Int.le_refl 0)
  | finite s m e hm =>
    cases h
    obtain ⟨hdefined, hvalue⟩ := nonneg_of_positive m e hm
    exact le_iff.mpr ⟨trivial, hdefined, hvalue⟩

theorem notNegative_roundWithAccuracy (m : Nat) (e : Int) (accuracy : Accuracy) :
    NotNegative (roundWithAccuracy Format.binary32 .positive m e accuracy) := by
  unfold roundWithAccuracy
  simp only
  split
  · trivial
  · rfl

theorem notNegative_normalize {m : Int} (hm : 0 ≤ m) (e : Int) (zero : Sign) :
    NotNegative (UnpackedFloat.normalize Format.binary32 m e zero) := by
  unfold UnpackedFloat.normalize
  rcases Int.lt_or_eq_of_le hm with hpos | rfl
  · rw [Int.compare_eq_gt.mpr hpos]
    exact notNegative_roundWithAccuracy _ _ _
  · trivial

theorem notNegative_add (hf : NotNegative f) (hg : NotNegative g) :
    NotNegative (UnpackedFloat.add Format.binary32 f g) := by
  cases f with
  | notANumber => exact hf.elim
  | infinity s =>
    cases hf
    cases g with
    | notANumber => exact hg.elim
    | infinity t =>
      cases hg
      rfl
    | zero t => rfl
    | finite t m e hm => rfl
  | zero s =>
    cases g with
    | notANumber => exact hg.elim
    | infinity t => exact hg
    | zero t => cases s <;> cases t <;> trivial
    | finite t m e hm => exact hg
  | finite s m e hm =>
    cases hf
    cases g with
    | notANumber => exact hg.elim
    | infinity t => exact hg
    | zero t => rfl
    | finite t m₂ e₂ hm₂ =>
      cases hg
      exact notNegative_normalize (Int.add_nonneg (Int.natCast_nonneg _) (Int.natCast_nonneg _)) _ _

theorem notNegative_mul_self (hf : IsNumber f) :
    NotNegative (UnpackedFloat.mul Format.binary32 f f) := by
  cases f with
  | notANumber => exact hf.elim
  | infinity s => cases s <;> rfl
  | zero s => trivial
  | finite s m e hm => cases s <;> exact notNegative_roundWithAccuracy _ _ _

theorem notNegative_mul (hf : NotNegative f) (m : Nat) (e : Int) (hm : 0 < m) :
    NotNegative (UnpackedFloat.mul Format.binary32 f (.finite .positive m e hm)) := by
  cases f with
  | notANumber => exact hf.elim
  | infinity s =>
    cases hf
    rfl
  | zero s => trivial
  | finite s m₁ e₁ hm₁ =>
    cases hf
    exact notNegative_roundWithAccuracy _ _ _

theorem notNegative_div (hf : NotNegative f) (m : Nat) (e : Int) (hm : 0 < m) :
    NotNegative (UnpackedFloat.div Format.binary32 f (.finite .positive m e hm)) := by
  cases f with
  | notANumber => exact hf.elim
  | infinity s =>
    cases hf
    rfl
  | zero s => trivial
  | finite s m₁ e₁ hm₁ =>
    cases hf
    exact notNegative_roundWithAccuracy _ _ _

theorem notNegative_sqrt (hf : NotNegative f) :
    NotNegative (UnpackedFloat.sqrt Format.binary32 f) := by
  cases f with
  | notANumber => exact hf.elim
  | infinity s =>
    cases hf
    rfl
  | zero s => trivial
  | finite s m e hm =>
    cases hf
    exact notNegative_roundWithAccuracy _ _ _

/-! ## §C Zero -/

theorem same_iff_value : Scalar.same x y = true ↔ Defined x ∧ Defined y ∧ value x = value y := by
  rw [Scalar.same_iff, le_iff, le_iff]
  constructor
  · rintro ⟨⟨hx, hy, hle⟩, -, -, hge⟩
    exact ⟨hx, hy, Int.le_antisymm hle hge⟩
  · rintro ⟨hx, hy, heq⟩
    exact ⟨⟨hx, hy, Int.le_of_eq heq⟩, hy, hx, Int.le_of_eq heq.symm⟩

theorem same_zero_iff : Scalar.same x 0 = true ↔ Defined x ∧ value x = 0 :=
  same_iff_value.trans ⟨fun h => ⟨h.1, h.2.2⟩, fun h => ⟨h.1, trivial, h.2⟩⟩

/-- A number with the value of a finite one is finite. -/
theorem isFinite_of_value_eq (hx : Defined x) (hy : (parts y).isFinite = true)
    (h : value x = value y) : (parts x).isFinite = true := by
  obtain ⟨hlow, hhigh⟩ := place_bounds (held_parts y) hy
  have hplace : place (parts x) = place (parts y) := h
  exact isFinite_of_bounds hx (by omega)

theorem value_sub_of_eq (hx : (parts x).isFinite = true) (hy : (parts y).isFinite = true)
    (h : value x = value y) : Defined (x - y) ∧ value (x - y) = 0 := by
  have hat := at_sub (held_parts x) (held_parts y) hx hy
  have hplace : place (parts x) - place (parts y) = 0 := Int.sub_eq_zero.mpr h
  rw [hplace, settle_zero] at hat
  exact ⟨hat.defined, hat.value_eq⟩

/-- What a part of one leaves of it is finite. -/
theorem isFinite_one_sub (h0 : (0 : Float32) ≤ x) (h1 : x ≤ 1) : Scalar.isFinite (1 - x) = true := by
  obtain ⟨-, hdefined, hnonneg⟩ := le_iff.mp h0
  obtain ⟨-, -, hle⟩ := le_iff.mp h1
  have hone : (parts 1).isFinite = true := by decide
  obtain ⟨-, hbound⟩ := place_bounds (held_parts 1) hone
  have hnonneg : 0 ≤ place (parts x) := hnonneg
  have hle : place (parts x) ≤ place (parts 1) := hle
  have hx : (parts x).isFinite = true := isFinite_of_bounds hdefined (by omega)
  have hat := at_sub (held_parts 1) (held_parts x) hone hx
  -- the difference lies between nothing and one, and so it does when it is rounded
  have hlow := settle_mono 0 (show 0 ≤ place (parts 1) - place (parts x) by omega)
  have hhigh := settle_mono 0 (show place (parts 1) - place (parts x) ≤ place (parts 1) by omega)
  rw [settle_zero] at hlow
  rw [settle_place (held_parts 1) hone] at hhigh
  have hvalue : value (1 - x) = settle (place (parts 1) - place (parts x)) 0 := hat.value_eq
  refine isFinite_of_bounds (f := parts (1 - x)) hat.defined ?_
  show (value (1 - x)).natAbs < beyond
  rw [hvalue]
  omega

/-- Adding zero leaves a number what it is, or the other zero. -/
theorem add_same (hx : Defined x) (hy : Scalar.same y 0 = true) : Scalar.same (x + y) x = true := by
  obtain ⟨hdefined, hzero⟩ := same_zero_iff.mp hy
  obtain ⟨t, ht⟩ := eq_zero_of_place hdefined hzero
  have hsum : x + y = ofParts (UnpackedFloat.add Format.binary32 (parts x) (.zero t)) := by
    rw [← ht]
    rfl
  have hself : x = ofParts (parts x) := (ofParts_parts x).symm
  have hrefl : Scalar.same x x = true := same_iff_value.mpr ⟨hx, hx, rfl⟩
  cases hparts : parts x with
  | notANumber =>
    unfold Defined at hx
    rw [hparts] at hx
    exact hx.elim
  | infinity s =>
    rw [hparts] at hsum hself
    rw [hsum, show UnpackedFloat.add Format.binary32 (.infinity s) (.zero t) = .infinity s from rfl,
      ← hself]
    exact hrefl
  | zero s =>
    rw [hparts] at hsum
    obtain ⟨u, hu⟩ : ∃ u, UnpackedFloat.add Format.binary32 (.zero s) (.zero t) = .zero u := by
      cases s <;> cases t <;> exact ⟨_, rfl⟩
    have hat : At (.zero u) 0 := ⟨trivial, trivial, rfl⟩
    have hvalue : value x = 0 := by
      unfold value
      rw [hparts]
      rfl
    rw [hsum, hu]
    exact same_iff_value.mpr ⟨hat.defined, hx, hat.value_eq.trans hvalue.symm⟩
  | finite s m e hm =>
    rw [hparts] at hsum hself
    rw [hsum, show UnpackedFloat.add Format.binary32 (.finite s m e hm) (.zero t) =
      .finite s m e hm from rfl, ← hself]
    exact hrefl

theorem mul_same_zero (hx : Scalar.same x 0 = true) (hy : (parts y).isFinite = true) :
    Scalar.same (x * y) 0 = true := by
  obtain ⟨hdefined, hzero⟩ := same_zero_iff.mp hx
  obtain ⟨s, hs⟩ := eq_zero_of_place hdefined hzero
  have hfinite : (parts x).isFinite = true := by
    rw [hs]
    rfl
  have hat := at_mul (held_parts x) (held_parts y) hfinite hy
  have hplace : place (parts x) * place (parts y) = 0 := by
    rw [show place (parts x) = 0 from hzero, Int.zero_mul]
  rw [hplace, settle_zero] at hat
  exact same_zero_iff.mpr ⟨hat.defined, hat.value_eq⟩

end Single

open Single

instance : Scalar.Signed Float32 where
  zero_le_one := by decide
  isFinite_one_sub := isFinite_one_sub
  add_nonneg ha hb := zero_le_ofParts (notNegative_add (zero_le_iff.mp ha) (zero_le_iff.mp hb))
  sub_nonneg {a b} hb hle := by
    obtain ⟨hdefined, hzero⟩ := value_sub_of_eq hb hb rfl
    have hmono := Single.sub_le_sub_right hb hle
    obtain ⟨-, hd, hvalue⟩ := Single.le_iff.mp hmono
    exact Single.le_iff.mpr ⟨trivial, hd, Int.le_trans (Int.le_of_eq hzero.symm) hvalue⟩
  mul_self_nonneg ha := zero_le_ofParts (notNegative_mul_self (le_self_iff.mp ha))
  mul_nonneg {a b} ha hb hfinite := by
    rcases parts_of_pos hb with hparts | ⟨m, e, hm, hparts⟩
    · have hfinite : (parts b).isFinite = true := hfinite
      rw [hparts] at hfinite
      exact absurd hfinite Bool.false_ne_true
    · have hmul := notNegative_mul (zero_le_iff.mp ha) m e hm
      rw [← hparts] at hmul
      exact zero_le_ofParts hmul
  div_nonneg {a b} ha hb hdefined := by
    have hquotient : NotNegative (Float.Model.UnpackedFloat.div .binary32 (parts a) (parts b)) := by
      have ha := zero_le_iff.mp ha
      rcases parts_of_pos hb with hparts | ⟨m, e, hm, hparts⟩
      · -- by an infinite number: nothing is left, or the quotient is undefined
        rw [hparts]
        cases hpartsA : parts a with
        | notANumber =>
          rw [hpartsA] at ha
          exact ha.elim
        | infinity s =>
          have hnone : a / b = ofParts .notANumber := by
            show ofParts (Float.Model.UnpackedFloat.div .binary32 (parts a) (parts b)) = _
            rw [hpartsA, hparts]
            rfl
          rw [hnone] at hdefined
          exact absurd (le_self_iff.mp hdefined) not_defined_notANumber
        | zero s => trivial
        | finite s m e hm => trivial
      · rw [hparts]
        exact notNegative_div ha m e hm
    exact zero_le_ofParts hquotient
  sqrt_nonneg ha := zero_le_ofParts (notNegative_sqrt (zero_le_iff.mp ha))
  sub_same hb hsame := by
    obtain ⟨ha, -, heq⟩ := same_iff_value.mp hsame
    exact same_zero_iff.mpr (value_sub_of_eq (isFinite_of_value_eq ha hb heq) hb heq)
  neg_same_zero ha := by
    obtain ⟨hdefined, hzero⟩ := same_zero_iff.mp ha
    refine same_zero_iff.mpr ⟨(Single.defined_neg _).mpr hdefined, ?_⟩
    rw [value_neg, hzero, Int.neg_zero]
  mul_same_zero := mul_same_zero
  add_same ha hb := add_same (le_self_iff.mp ha) hb

instance : Approach.Tuned Float32 where
  grazing_pos := by decide +kernel
  isFinite_grazing := by decide +kernel
  isFinite_skin := by decide +kernel
  skin_le_touching := by decide +kernel
  nowhere := by decide +kernel

end ConvexCollision
