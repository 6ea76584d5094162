import ConvexCollision.Proofs.Grid
import ConvexCollision.Proofs.Single.Whole

/-!
# ConvexCollision.Proofs.Single.Laws -- what the geometry relies on holds of single precision

The laws that the properties of the broad phase and of the mesh tree rest on are no assumptions about
the numbers the library runs in: each is proved here of `Float32`, infinite and undefined numbers,
overflow and rounding included.
-/

namespace ConvexCollision

open Single

/-! ## §A The order, and whole parts -/

instance : Scalar.Ordered Float32 where
  le_trans hab hbc := by
    obtain ⟨da, -, hab⟩ := Single.le_iff.mp hab
    obtain ⟨-, dc, hbc⟩ := Single.le_iff.mp hbc
    exact Single.le_iff.mpr ⟨da, dc, Int.le_trans hab hbc⟩
  defined_left hab := by
    obtain ⟨da, -, -⟩ := Single.le_iff.mp hab
    exact Single.le_iff.mpr ⟨da, da, Int.le_refl _⟩
  defined_right hab := by
    obtain ⟨-, db, -⟩ := Single.le_iff.mp hab
    exact Single.le_iff.mpr ⟨db, db, Int.le_refl _⟩
  le_total haa hbb := by
    obtain ⟨da, -, -⟩ := Single.le_iff.mp haa
    obtain ⟨db, -, -⟩ := Single.le_iff.mp hbb
    rcases Int.le_total (value _) (value _) with hab | hba
    · exact .inl (Single.le_iff.mpr ⟨da, db, hab⟩)
    · exact .inr (Single.le_iff.mpr ⟨db, da, hba⟩)
  lt_iff {a b} := by
    constructor
    · intro h
      obtain ⟨da, db, hab⟩ := Single.lt_iff.mp h
      refine ⟨Single.le_iff.mpr ⟨da, db, Int.le_of_lt hab⟩, fun hba => ?_⟩
      exact absurd (Single.le_iff.mp hba).2.2 (Int.not_le.mpr hab)
    · rintro ⟨hab, hba⟩
      obtain ⟨da, db, -⟩ := Single.le_iff.mp hab
      refine Single.lt_iff.mpr ⟨da, db, Int.not_le.mp fun hle => ?_⟩
      exact hba (Single.le_iff.mpr ⟨db, da, hle⟩)

instance : Scalar.WholeParts Float32 where
  floor_mono := floor_le_floor
  ceil_mono := ceil_le_ceil
  floor_le_ceil := Single.floor_le_ceil

/-! ## §B The finite range -/

theorem le_of_value_le {x y : Float32} (hx : Scalar.isFinite x = true)
    (hy : Scalar.isFinite y = true) (h : value x ≤ value y) : x ≤ y :=
  Single.le_iff.mpr ⟨isNumber_of_isFinite hx, isNumber_of_isFinite hy, h⟩

theorem isFinite_neg_of_isFinite {x : Float32} (h : Scalar.isFinite x = true) :
    Scalar.isFinite (-x) = true := isFinite_neg h

theorem isFinite_maxFinite : Scalar.isFinite (Scalar.maxFinite : Float32) = true := by
  decide +kernel

theorem value_maxFinite : value Scalar.maxFinite = ((2 ^ 24 - 1) * 2 ^ 253 : Nat) := by
  decide +kernel

/-- No finite number is farther out than the last one. -/
theorem natAbs_value_le {x : Float32} (h : (parts x).isFinite = true) :
    (value x).natAbs ≤ (2 ^ 24 - 1) * 2 ^ 253 := by
  have hheld := held_parts x
  unfold value
  cases hparts : parts x with
  | notANumber => exact Nat.zero_le _
  | infinity s =>
    rw [hparts] at h
    exact absurd h Bool.false_ne_true
  | zero s => exact Nat.zero_le _
  | finite s m e hm =>
    rw [hparts] at hheld
    rw [place_finite hheld.1 hheld.2, natAbs_apply]
    exact Nat.mul_le_mul (Nat.le_sub_one_of_lt hheld.1.short)
      (Nat.pow_le_pow_right (by decide) (by have := hheld.2; omega))

instance : Scalar.FiniteRange Float32 where
  isFinite_maxFinite := isFinite_maxFinite
  isFinite_neg_maxFinite := isFinite_neg_of_isFinite isFinite_maxFinite
  le_maxFinite h := by
    have hle := natAbs_value_le h
    refine le_of_value_le h isFinite_maxFinite ?_
    rw [value_maxFinite]
    omega
  neg_maxFinite_le h := by
    have hle := natAbs_value_le h
    refine le_of_value_le (isFinite_neg_of_isFinite isFinite_maxFinite) h ?_
    rw [value_neg, value_maxFinite]
    omega

/-! ## §C Cells -/

theorem parts_cellsPerUnit :
    parts BroadPhase.cellsPerUnit = .finite .positive (2 ^ 23) (-20) (by decide) := rfl

instance : BroadPhase.GridOrdered Float32 where
  cells_mono {a b} h := by
    obtain ⟨da, db, -⟩ := Single.le_iff.mp h
    have hfinite : (parts BroadPhase.cellsPerUnit).isFinite = true := by
      rw [parts_cellsPerUnit]
      rfl
    have hpos : 0 < value BroadPhase.cellsPerUnit := by
      unfold value
      rw [parts_cellsPerUnit]
      decide
    exact mul_le_mul_right (isNumber_of_isFinite hfinite) (Int.le_of_lt hpos) h
      (defined_mul da hfinite hpos) (defined_mul db hfinite hpos)
  toInt32_mono := toInt32_le_toInt32

theorem parts_lastCell :
    parts Grid.lastCell = .finite .positive 16776960 (-8) (by decide) := rfl

instance : Grid.Ordered Float32 where
  sub_mono {a b c} hc h := by
    exact sub_le_sub_right (z := c) hc h
  mul_mono {a b c} hc h ha hb := by
    obtain ⟨-, dc, hc⟩ := Single.le_iff.mp hc
    exact mul_le_mul_right dc hc h (Single.le_iff.mp ha).1 (Single.le_iff.mp hb).1
  mul_le_zero {a b c} hc h ha hb := by
    obtain ⟨-, dc, hc⟩ := Single.le_iff.mp hc
    obtain ⟨da, -, -⟩ := Single.le_iff.mp ha
    have hb : ¬ Defined (b * c) := fun db => hb (Single.le_iff.mpr ⟨db, db, Int.le_refl _⟩)
    exact Single.le_iff.mpr ⟨da, trivial, mul_le_zero dc hc h da hb⟩
  toUInt16_mono := toUInt16_le_toUInt16
  zero_le_lastCell := by
    refine Single.le_iff.mpr ⟨trivial, ?_, ?_⟩
    · unfold Defined
      rw [parts_lastCell]
      trivial
    · unfold value
      rw [parts_lastCell]
      decide
  zero_le_lastCell_div {a} h := by
    obtain ⟨-, da, ha⟩ := Single.lt_iff.mp h
    have hepsilon : 0 < value Scalar.epsilon := by decide
    obtain ⟨hdefined, hnonneg⟩ := div_nonneg parts_lastCell da (Int.lt_trans hepsilon ha)
    exact Single.le_iff.mpr ⟨trivial, hdefined, hnonneg⟩

end ConvexCollision
