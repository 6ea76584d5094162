import ConvexCollision.Proofs.Exact.Vector
import ConvexCollision.Response

/-!
# ConvexCollision.Proofs.Pair.Shares -- who gives way to whom, and what it does to velocities

Of two solid objects one gives way to the other unless it is fixed, or the heavier of two that can move
(`DynamicObject.GivesWay`). It does not matter which of the two is named first (`pushShares_swap`), and in
exact arithmetic an object has a share in a separation exactly when it gives way (`share_pos_iff`). The
shares of two solid objects that are not both fixed make up the whole.

What gives way loses its velocity into the other party: by a correction along a unit normal, which may throw
some of it back (`dot_correctVelocity_nonneg`), or with all that it has along the normal (`dot_stopAlong`).
-/

namespace ConvexCollision

variable {α : Type} [Scalar α]

/-! ## §A Shares -/

namespace DynamicObject

variable {a b : DynamicObject α}

/-- The object gives way to the other one: both are solid, it is not fixed, and the other one is fixed or
not lighter. -/
structure GivesWay (a b : DynamicObject α) : Prop where
  /-- It is solid. -/
  solid : a.isTrigger = false
  /-- So is the other one. -/
  toSolid : b.isTrigger = false
  /-- It can be moved. -/
  movable : a.isFixed = false
  /-- It has to. -/
  yields : b.isFixed = true ∨ a.weight.rank ≤ b.weight.rank

omit [Scalar α] in
/-- What is fixed, or heavier than one that is not, does not give way. -/
theorem GivesWay.not_firm (h : a.GivesWay b) :
    ¬(a.isFixed = true ∨ b.isFixed = false ∧ b.weight.rank < a.weight.rank) := by
  rintro (hfixed | ⟨hmovable, hlighter⟩)
  · rw [h.movable] at hfixed
    cases hfixed
  · rcases h.yields with hfixed | hle
    · rw [hmovable] at hfixed
      cases hfixed
    · exact hlighter.not_ge hle

omit [Scalar α] in
/-- Of two objects that are tested against each other one can be moved. -/
theorem not_both_fixed (h : a.shouldCollide b = true) : (a.isFixed && b.isFixed) = false := by
  unfold shouldCollide at h
  cases hfixed : a.isFixed && b.isFixed with
  | false => rfl
  | true =>
    rw [hfixed, Bool.not_true] at h
    simp only [ite_self, Bool.false_eq_true] at h

omit [Scalar α] in
theorem shouldPush_eq_not_isTrigger (o : DynamicObject α) : o.shouldPush = !o.isTrigger := by
  unfold shouldPush isTrigger
  cases o.triggerType <;> rfl

/-- The shares of two solid objects, by which of them are fixed and by their weights. -/
theorem pushShares_of_solid (ha : a.isTrigger = false) (hb : b.isTrigger = false) :
    a.pushShares b =
      match a.isFixed, b.isFixed with
      | true, true => (0, 0)
      | true, false => (0, 1)
      | false, true => (1, 0)
      | false, false =>
        if b.weight.rank < a.weight.rank then (0, 1)
        else if a.weight.rank < b.weight.rank then (1, 0)
        else (0.5, 0.5) := by
  unfold pushShares
  rw [shouldPush_eq_not_isTrigger, shouldPush_eq_not_isTrigger, ha, hb]
  rfl

/-- A trigger is never separated from anything. -/
theorem pushShares_of_trigger (h : (a.isTrigger || b.isTrigger) = true) : a.pushShares b = (0, 0) := by
  unfold pushShares
  rw [shouldPush_eq_not_isTrigger, shouldPush_eq_not_isTrigger, Bool.not_not, Bool.not_not, h]
  rfl

/-- It does not matter which of the two is named first. -/
theorem pushShares_swap (a b : DynamicObject α) : b.pushShares a = (a.pushShares b).swap := by
  cases ha : a.isTrigger with
  | true =>
    rw [pushShares_of_trigger (by rw [ha, Bool.or_true]), pushShares_of_trigger (by rw [ha, Bool.true_or])]
    rfl
  | false =>
    cases hb : b.isTrigger with
    | true =>
      rw [pushShares_of_trigger (by rw [hb, Bool.true_or]),
        pushShares_of_trigger (by rw [hb, Bool.or_true])]
      rfl
    | false =>
      rw [pushShares_of_solid ha hb, pushShares_of_solid hb ha]
      cases a.isFixed <;> cases b.isFixed
      case false.false =>
        rcases Nat.lt_trichotomy a.weight.rank b.weight.rank with hlt | heq | hgt
        · simp only [hlt, hlt.not_gt, if_true, if_false, Prod.swap_prod_mk]
        · simp only [heq, lt_irrefl, if_false, Prod.swap_prod_mk]
        · simp only [hgt, hgt.not_gt, if_true, if_false, Prod.swap_prod_mk]
      all_goals rfl

/-- What is fixed, and every trigger, has no share in a separation, as the first of two objects. -/
theorem pushShares_fst (h : (a.isFixed || a.isTrigger) = true) : (a.pushShares b).1 = 0 := by
  cases htrigger : a.isTrigger || b.isTrigger with
  | true => rw [pushShares_of_trigger htrigger]
  | false =>
    obtain ⟨ha, hb⟩ := Bool.or_eq_false_iff.mp htrigger
    rw [ha, Bool.or_false] at h
    rw [pushShares_of_solid ha hb, h]
    cases b.isFixed <;> rfl

/-- It has none as the second one. -/
theorem pushShares_snd (h : (b.isFixed || b.isTrigger) = true) : (a.pushShares b).2 = 0 := by
  rw [pushShares_swap b a]
  exact pushShares_fst h

end DynamicObject

namespace DynamicObject

variable {a b : DynamicObject ℝ}

/-- Of two objects the first one has no negative share, it has one exactly when it gives way, and with both
solid and one of them movable the two shares make up the whole. -/
theorem pushShares_spec (a b : DynamicObject ℝ) :
    0 ≤ (a.pushShares b).1 ∧ (0 < (a.pushShares b).1 ↔ a.GivesWay b) ∧
      (a.isTrigger = false → b.isTrigger = false → (a.isFixed && b.isFixed) = false →
        (a.pushShares b).1 + (a.pushShares b).2 = 1) := by
  have hzero : ¬(0 : ℝ) < 0 := lt_irrefl 0
  cases htrigger : a.isTrigger || b.isTrigger with
  | true =>
    rw [pushShares_of_trigger htrigger]
    simp only [Scalar.zero_real, le_refl, hzero, false_iff, true_and]
    constructor
    · rintro ⟨ha, hb, -, -⟩
      rw [ha, hb] at htrigger
      cases htrigger
    · intro ha hb
      rw [ha, hb] at htrigger
      cases htrigger
  | false =>
    obtain ⟨ha, hb⟩ := Bool.or_eq_false_iff.mp htrigger
    have hgives : a.GivesWay b ↔
        a.isFixed = false ∧ (b.isFixed = true ∨ a.weight.rank ≤ b.weight.rank) :=
      ⟨fun h => ⟨h.movable, h.yields⟩, fun h => ⟨ha, hb, h.1, h.2⟩⟩
    rw [pushShares_of_solid ha hb, hgives]
    cases a.isFixed <;> cases b.isFixed
    case false.false =>
      rcases Nat.lt_trichotomy a.weight.rank b.weight.rank with hlt | heq | hgt
      · simp [hlt, hlt.le, hlt.not_gt]
      · norm_num [heq]
      · simp [hgt, hgt.not_ge]
    all_goals simp

theorem share_pos_iff : 0 < (a.pushShares b).1 ↔ a.GivesWay b := (pushShares_spec a b).2.1

theorem share_pos_iff' : 0 < (a.pushShares b).2 ↔ b.GivesWay a := by
  rw [pushShares_swap b a]
  exact share_pos_iff

end DynamicObject

/-! ## §B Velocities -/

section Velocity

variable {velocity normal : Vec3 ℝ} (hunit : normal.dot normal = 1)

include hunit

/-- After a contact the velocity leads along the surface or out of it, when what is thrown back is not
negative. -/
theorem dot_correctVelocity_nonneg {bounce : ℝ} (hbounce : 0 ≤ bounce) (friction : ℝ) :
    0 ≤ (correctVelocity velocity normal bounce friction).dot normal := by
  unfold correctVelocity
  simp only [Scalar.zero_real, Scalar.one_real, Vec3.mul_eq_smul]
  by_cases hleaves : 0 ≤ velocity.dot normal
  · rw [if_pos hleaves]
    exact hleaves
  · rw [if_neg hleaves]
    have hinto : velocity.dot normal ≤ 0 := (not_le.mp hleaves).le
    -- nothing is left along the normal but what is thrown back
    have hrest : (velocity - velocity.dot normal • normal).dot normal = 0 := by
      rw [Vec3.sub_dot, Vec3.smul_dot, hunit, mul_one, sub_self]
    rw [Vec3.sub_dot, Vec3.smul_dot, Vec3.smul_dot, hrest, hunit, mul_zero, mul_one, zero_sub]
    exact neg_nonneg.mpr (mul_nonpos_of_nonpos_of_nonneg hinto hbounce)

theorem dot_stopInto_nonneg (o : DynamicObject ℝ) : 0 ≤ (o.stopInto normal).velocity.dot normal :=
  dot_correctVelocity_nonneg hunit Scalar.zero_real.ge _

/-- An object that is stopped along a normal has no velocity left there. -/
theorem dot_stopAlong (o : DynamicObject ℝ) : (o.stopAlong normal).velocity.dot normal = 0 := by
  unfold DynamicObject.stopAlong
  rw [Vec3.mul_eq_smul, Vec3.sub_dot, Vec3.smul_dot, hunit, mul_one, sub_self]

end Velocity

end ConvexCollision
