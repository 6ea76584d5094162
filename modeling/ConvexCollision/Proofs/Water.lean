import ConvexCollision.Proofs.Contact.Pool
import ConvexCollision.Proofs.Exact.Division
import ConvexCollision.Proofs.Exact.Order
import ConvexCollision.Proofs.Exact.Response
import ConvexCollision.Water

/-!
# ConvexCollision.Proofs.Water -- the three things that water does

Water leaves an object alone unless the shadow of the object falls on water above the bottom of its box
(`Reaches`). Of those that it reaches it lifts the ones that can walk on it, no further than the surface
(`Lifted`), and slows and carries the others by the submerged part of their height (`Floated`). All this is in
exact arithmetic, where neither a tick nor the speed of the lift is negative.

The submerged part is a quotient only where the box reaches above the surface, and since its bottom lies below,
its height is positive there. Nothing that water does depends on what a division by zero would give
(`apply_withDiv`).
-/

namespace ConvexCollision

/-- A step toward what is not below. -/
theorem Scalar.moveTowards_of_le {start target maxDelta : ℝ} (h : start ≤ target) (hstep : 0 ≤ maxDelta) :
    moveTowards start target maxDelta = start + min maxDelta (target - start) := by
  unfold moveTowards
  rw [abs_real, abs_of_nonneg (sub_nonneg.mpr h)]
  rcases le_or_gt (target - start) maxDelta with hnear | hfar
  · rw [if_pos hnear, min_eq_right hnear, add_sub_cancel]
  · rw [if_neg (not_le.mpr hfar), min_eq_left hfar.le, if_pos (sub_pos.mp (hstep.trans_lt hfar))]

namespace Water

variable {o : DynamicObject ℝ} {pool : ContactPool ℝ} {config : Config ℝ} {shadow : ContactId}
  {box : Bounds ℝ} {waterTop : ℝ}

/-- The shadow of the object falls on water above the bottom of its box. -/
structure Reaches (o : DynamicObject ℝ) (pool : ContactPool ℝ) (shadow : ContactId) : Prop where
  /-- The contact is the object's shadow. -/
  casts : o.shadowContact = some shadow
  /-- The shadow falls on water. -/
  water : (pool.get shadow).surface = .water
  /-- The bottom of the box is below the water. -/
  bottom : o.box.mins.y < (pool.get shadow).point.y

/-- How far an object that walks on water rises in a tick. -/
noncomputable def rise (o : DynamicObject ℝ) (waterTop : ℝ) (config : Config ℝ) : ℝ :=
  min (config.maxWaterLiftSpeed * config.fixedTimeStep) (waterTop - o.box.mins.y)

/-- The object rises with its box, no further than the surface, is stopped from falling, and stands on its
shadow: the contact is put in front of its list. -/
structure Lifted (o : DynamicObject ℝ) (pool : ContactPool ℝ) (config : Config ℝ) (shadow : ContactId)
    (waterTop : ℝ) (o' : DynamicObject ℝ) (pool' : ContactPool ℝ) : Prop where
  /-- It rises with its box, keeps its velocity but for what led down, and is the same in everything else. -/
  object : o' = { o with
    position := o.position + ⟨0, rise o waterTop config, 0⟩
    box := o.box.translate ⟨0, rise o waterTop config, 0⟩
    velocity := ⟨o.velocity.x, max o.velocity.y 0, o.velocity.z⟩
    shadowContact := none
    activeContacts := some shadow }
  /-- It does not sink. -/
  rise_nonneg : 0 ≤ rise o waterTop config
  /-- Its bottom ends at the surface, or below. -/
  bottom_le : o'.box.mins.y ≤ waterTop
  /-- The contact is one with the surface below the object, and names the list that was there. -/
  head : pool'.slot shadow =
    ⟨⟨Vec3.unitY, ⟨o.position.x, waterTop, o.position.z⟩, .water, EntityId.none⟩, o.activeContacts,
      (pool.slot shadow).inUse⟩
  /-- All other contacts stay as they are. -/
  others : ∀ other, other ≠ shadow → pool'.slot other = pool.slot other
  /-- The same contacts are free. -/
  free : pool'.free = pool.free
  /-- As many are in use. -/
  activeCount : pool'.activeCount = pool.activeCount
  /-- A list without the shadow is now the list behind it. -/
  list : ∀ ids, pool.Linked o.activeContacts ids → shadow ∉ ids → pool'.Linked (some shadow) (shadow :: ids)

/-- The object is slowed and carried by the submerged part of its height. -/
structure Floated (o : DynamicObject ℝ) (pool : ContactPool ℝ) (config : Config ℝ) (waterTop : ℝ)
    (o' : DynamicObject ℝ) (pool' : ContactPool ℝ) : Prop where
  /-- Nothing but its velocity changes, and for how long it counts as under water. -/
  object : o' = { o with
    velocity :=
      ⟨o.velocity.x * (1 - 0.1 * submergedRatio o.box waterTop),
        o.velocity.y * (1 - 0.1 * submergedRatio o.box waterTop) - submergedRatio o.box waterTop *
          (config.gravity / o.density.buoyancyDivisor) * config.fixedTimeStep,
        o.velocity.z * (1 - 0.1 * submergedRatio o.box waterTop)⟩
    underWater :=
      if 1 / 2 < submergedRatio o.box waterTop then DynamicObject.oneTick else o.underWater }
  /-- The contacts stay as they are. -/
  pool : pool' = pool
  /-- Some part is submerged. -/
  ratio_pos : 0 < submergedRatio o.box waterTop
  /-- No more than all of it is. -/
  ratio_le : submergedRatio o.box waterTop ≤ 1
  /-- It is the part of the height that lies below the surface. -/
  ratio_mul : submergedRatio o.box waterTop * (o.box.maxs.y - o.box.mins.y) =
    min o.box.maxs.y waterTop - o.box.mins.y
  /-- A box that reaches out of the water has a height to divide by. -/
  height_pos : waterTop < o.box.maxs.y → 0 < o.box.maxs.y - o.box.mins.y
  /-- So has the lift something to be divided by. -/
  divisor_pos : 0 < (o.density.buoyancyDivisor : ℝ)

/-! ## §A The submerged part of a box -/

theorem submergedRatio_of_le (h : box.maxs.y ≤ waterTop) : submergedRatio box waterTop = 1 :=
  (if_pos h).trans Scalar.one_real

theorem submergedRatio_of_lt (h : waterTop < box.maxs.y) :
    submergedRatio box waterTop = (waterTop - box.mins.y) / (box.maxs.y - box.mins.y) :=
  if_neg (not_le.mpr h)

theorem submergedRatio_pos (hbottom : box.mins.y < waterTop) : 0 < submergedRatio box waterTop := by
  rcases le_or_gt box.maxs.y waterTop with hall | hpart
  · rw [submergedRatio_of_le hall]
    exact one_pos
  · rw [submergedRatio_of_lt hpart]
    exact div_pos (sub_pos.mpr hbottom) (sub_pos.mpr (hbottom.trans hpart))

theorem submergedRatio_le_one (hbottom : box.mins.y < waterTop) : submergedRatio box waterTop ≤ 1 := by
  rcases le_or_gt box.maxs.y waterTop with hall | hpart
  · rw [submergedRatio_of_le hall]
  · rw [submergedRatio_of_lt hpart, div_le_one (sub_pos.mpr (hbottom.trans hpart))]
    exact sub_le_sub_right hpart.le _

theorem submergedRatio_mul (hbottom : box.mins.y < waterTop) :
    submergedRatio box waterTop * (box.maxs.y - box.mins.y) = min box.maxs.y waterTop - box.mins.y := by
  rcases le_or_gt box.maxs.y waterTop with hall | hpart
  · rw [submergedRatio_of_le hall, one_mul, min_eq_left hall]
  · rw [submergedRatio_of_lt hpart, min_eq_right hpart.le,
      div_mul_cancel₀ _ (sub_pos.mpr (hbottom.trans hpart)).ne']

theorem buoyancyDivisor_pos (density : Density) : 0 < (density.buoyancyDivisor : ℝ) := by
  cases density <;> simp only [Density.buoyancyDivisor, Scalar.one_real] <;> norm_num

/-! ## §B Floating -/

/-- The object slowed by a submerged part of it and lifted, the two numbers for which floating divides. -/
def floatBy {α : Type} [Scalar α] (o : DynamicObject α) (config : Config α) (ratio lift : α) :
    DynamicObject α :=
  let velocity := o.velocity * Scalar.lerp 1 submergedDrag ratio
  let o := { o with
    velocity := { velocity with y := velocity.y - ratio * lift * config.fixedTimeStep } }
  if (0.5 : α) < ratio then o.markUnderWater else o

theorem float_eq : float o waterTop config =
    floatBy o config (submergedRatio o.box waterTop) (config.gravity / o.density.buoyancyDivisor) := rfl

theorem drag_eq (ratio : ℝ) : Scalar.lerp 1 submergedDrag ratio = 1 - 0.1 * ratio := by
  unfold Scalar.lerp submergedDrag
  ring

theorem floated_float (pool : ContactPool ℝ) (config : Config ℝ) (hbottom : o.box.mins.y < waterTop) :
    Floated o pool config waterTop (float o waterTop config) pool where
  object := by
    have hhalf : (0.5 : ℝ) = 1 / 2 := by norm_num
    unfold float
    simp only [Scalar.one_real, drag_eq, hhalf]
    by_cases hdeep : 1 / 2 < submergedRatio o.box waterTop
    · rw [if_pos hdeep, if_pos hdeep]
      rfl
    · rw [if_neg hdeep, if_neg hdeep]
      rfl
  pool := rfl
  ratio_pos := submergedRatio_pos hbottom
  ratio_le := submergedRatio_le_one hbottom
  ratio_mul := submergedRatio_mul hbottom
  height_pos hpart := sub_pos.mpr (hbottom.trans hpart)
  divisor_pos := buoyancyDivisor_pos o.density

/-! ## §C Walking on water -/

/-- Of a shadow on water there is a slot. -/
theorem Reaches.index_lt (h : Reaches o pool shadow) : shadow.index < pool.capacity := by
  by_contra hout
  have hnone : pool.slot shadow = default := by
    unfold ContactPool.slot
    rw [Array.getD_eq_getD_getElem?, Array.getElem?_eq_none (not_lt.mp hout)]
    rfl
  have hwater := h.water
  unfold ContactPool.get at hwater
  rw [hnone] at hwater
  cases hwater

/-- Standing on water takes away the velocity that leads down. -/
theorem stopInto_unitY (v : Vec3 ℝ) :
    correctVelocity v Vec3.unitY 0 0 = ⟨v.x, max v.y 0, v.z⟩ := by
  have hdot : v.dot Vec3.unitY = v.y := by simp [Vec3.unitY, Vec3.dot_def]
  rcases le_or_gt 0 v.y with hup | hdown
  · rw [correctVelocity_of_leaving 0 0 (hdot.symm ▸ hup), max_eq_left hup]
  · rw [correctVelocity_of_into 0 0 (hdot.symm ▸ hdown), hdot, max_eq_right hdown.le]
    ext <;> simp [Vec3.unitY]

/-- The step toward the surface. -/
theorem moveTowards_surface (hbottom : o.box.mins.y < waterTop) (hdt : 0 ≤ config.fixedTimeStep)
    (hspeed : 0 ≤ config.maxWaterLiftSpeed) :
    Scalar.moveTowards o.position.y (waterTop + o.position.y - o.box.mins.y)
      (config.maxWaterLiftSpeed * config.fixedTimeStep) = o.position.y + rise o waterTop config := by
  rw [Scalar.moveTowards_of_le (by linarith) (mul_nonneg hspeed hdt)]
  unfold rise
  congr 2
  ring

theorem walkOn_fst (pool : ContactPool ℝ) (shadow : ContactId) (hbottom : o.box.mins.y < waterTop)
    (hdt : 0 ≤ config.fixedTimeStep) (hspeed : 0 ≤ config.maxWaterLiftSpeed) :
    (walkOn o shadow waterTop pool config).1 = { o with
      position := o.position + ⟨0, rise o waterTop config, 0⟩
      box := o.box.translate ⟨0, rise o waterTop config, 0⟩
      velocity := ⟨o.velocity.x, max o.velocity.y 0, o.velocity.z⟩
      shadowContact := none
      activeContacts := some shadow } := by
  have hplace : (⟨o.position.x, o.position.y + rise o waterTop config, o.position.z⟩ : Vec3 ℝ) =
      o.position + ⟨0, rise o waterTop config, 0⟩ := by
    ext <;> simp
  unfold walkOn DynamicObject.stopInto
  simp only [moveTowards_surface hbottom hdt hspeed, add_sub_cancel_left, Scalar.zero_real, stopInto_unitY,
    hplace]

theorem lifted_walkOn (h : Reaches o pool shadow) (hdt : 0 ≤ config.fixedTimeStep)
    (hspeed : 0 ≤ config.maxWaterLiftSpeed) :
    Lifted o pool config shadow (pool.get shadow).point.y
      (walkOn o shadow (pool.get shadow).point.y pool config).1
      (walkOn o shadow (pool.get shadow).point.y pool config).2 := by
  have hobject := walkOn_fst pool shadow h.bottom hdt hspeed
  have hlt := h.index_lt
  have hothers (other : ContactId) (hne : other ≠ shadow) :
      (walkOn o shadow (pool.get shadow).point.y pool config).2.slot other = pool.slot other :=
    (ContactPool.slot_modifySlot_of_ne hne).trans (ContactPool.slot_modifySlot_of_ne hne)
  have hcapacity : (walkOn o shadow (pool.get shadow).point.y pool config).2.capacity = pool.capacity :=
    ContactPool.capacity_modifySlot.trans ContactPool.capacity_modifySlot
  have hhead : (walkOn o shadow (pool.get shadow).point.y pool config).2.slot shadow =
      ⟨⟨Vec3.unitY, ⟨o.position.x, (pool.get shadow).point.y, o.position.z⟩, .water, EntityId.none⟩,
        o.activeContacts, (pool.slot shadow).inUse⟩ := by
    refine (ContactPool.slot_modifySlot_self ?_).trans ?_
    · exact hlt.trans_eq ContactPool.capacity_modifySlot.symm
    · rw [ContactPool.set, ContactPool.slot_modifySlot_self hlt]
  refine ⟨hobject, ?_, ?_, hhead, hothers, rfl, ?_, ?_⟩
  · exact le_min (mul_nonneg hspeed hdt) (sub_nonneg.mpr h.bottom.le)
  · rw [hobject]
    show o.box.mins.y + rise o _ config ≤ _
    exact le_sub_iff_add_le'.mp (min_le_right _ _)
  · unfold ContactPool.activeCount
    rw [hcapacity]
    rfl
  · intro ids hlinked hnot
    refine .cons ?_
    rw [hhead]
    exact hlinked.congr fun other hother =>
      congrArg ContactSlot.next (hothers other fun heq => hnot (heq ▸ hother))

/-! ## §D Everything that water does -/

/-- Water that does not reach an object changes nothing. -/
theorem apply_of_not_reaches (config : Config ℝ) (h : ∀ shadow, ¬Reaches o pool shadow) :
    apply o pool config = (o, pool) := by
  unfold apply
  split
  · rfl
  · next shadow hshadow =>
    simp only
    split
    · rfl
    · next hwater =>
      refine if_pos (not_lt.mp fun hbottom => h shadow ⟨hshadow, ?_, hbottom⟩)
      simpa using hwater

theorem apply_of_reaches (config : Config ℝ) (h : Reaches o pool shadow) :
    apply o pool config = if 0 < o.hasIceDash then walkOn o shadow (pool.get shadow).point.y pool config
      else (float o (pool.get shadow).point.y config, pool) := by
  unfold apply
  rw [h.casts]
  simp only [h.water, bne_self_eq_false, Bool.false_eq_true, if_false, if_neg (not_le.mpr h.bottom)]

theorem submergedRatio_withDiv {div : ℝ → ℝ → ℝ} (hdiv : ∀ a b, b ≠ 0 → div a b = a / b)
    (hbottom : box.mins.y < waterTop) :
    @submergedRatio ℝ (Scalar.withDiv div) box waterTop = submergedRatio box waterTop := by
  rcases le_or_gt box.maxs.y waterTop with hall | hpart
  · exact (if_pos hall).trans (if_pos hall).symm
  · exact ((if_neg (not_le.mpr hpart)).trans (hdiv _ _ (sub_pos.mpr (hbottom.trans hpart)).ne')).trans
      (submergedRatio_of_lt hpart).symm

theorem float_withDiv {div : ℝ → ℝ → ℝ} (hdiv : ∀ a b, b ≠ 0 → div a b = a / b)
    (hbottom : o.box.mins.y < waterTop) :
    @float ℝ (Scalar.withDiv div) o waterTop config = float o waterTop config := by
  rw [float_eq, ← submergedRatio_withDiv hdiv hbottom,
    ← hdiv config.gravity _ (buoyancyDivisor_pos o.density).ne']
  rfl

/-- Nothing depends on what a division by zero gives. -/
theorem apply_withDiv (o : DynamicObject ℝ) (pool : ContactPool ℝ) (config : Config ℝ) {div : ℝ → ℝ → ℝ}
    (hdiv : ∀ a b, b ≠ 0 → div a b = a / b) :
    @apply ℝ (Scalar.withDiv div) o pool config = apply o pool config := by
  unfold apply
  cases o.shadowContact with
  | none => rfl
  | some shadow =>
    show (if (pool.get shadow).surface != .water then (o, pool)
      else if (pool.get shadow).point.y ≤ o.box.mins.y then (o, pool)
      else if 0 < o.hasIceDash then walkOn o shadow (pool.get shadow).point.y pool config
      else (@float ℝ (Scalar.withDiv div) o (pool.get shadow).point.y config, pool)) = _
    by_cases hbottom : (pool.get shadow).point.y ≤ o.box.mins.y
    · simp only [if_pos hbottom]
    · simp only [if_neg hbottom, float_withDiv hdiv (not_le.mp hbottom)]

/-- **Water does one of three things.** It changes nothing unless the shadow of an object falls on it above the
bottom of the object's box. It lifts an object that can walk on it together with its box, by what may be risen in
a tick but no further than the surface, stops its fall and makes its shadow the head of its contacts. Any other
object is slowed and carried by the submerged part of its height, which is more than nothing and at most all of
it, and stays where it is with its contacts. Nothing of this divides by zero. -/
theorem apply_regimes (o : DynamicObject ℝ) (pool : ContactPool ℝ) (config : Config ℝ)
    (hdt : 0 ≤ config.fixedTimeStep) (hspeed : 0 ≤ config.maxWaterLiftSpeed) :
    ((∀ shadow, ¬Reaches o pool shadow) → apply o pool config = (o, pool)) ∧
    (∀ shadow, Reaches o pool shadow →
      (0 < o.hasIceDash → Lifted o pool config shadow (pool.get shadow).point.y
        (apply o pool config).1 (apply o pool config).2) ∧
      (¬0 < o.hasIceDash → Floated o pool config (pool.get shadow).point.y
        (apply o pool config).1 (apply o pool config).2)) ∧
    ∀ div : ℝ → ℝ → ℝ, (∀ a b, b ≠ 0 → div a b = a / b) →
      @apply ℝ (Scalar.withDiv div) o pool config = apply o pool config := by
  refine ⟨apply_of_not_reaches config, fun shadow h => ?_, fun _ => apply_withDiv o pool config⟩
  rw [apply_of_reaches config h]
  constructor
  · intro hdash
    rw [if_pos hdash]
    exact lifted_walkOn h hdt hspeed
  · intro hdash
    rw [if_neg hdash]
    exact floated_float pool config h.bottom

/-- A shadow on water, and a contact with someone else. -/
noncomputable def pond : ContactPool ℝ where
  slots := #[⟨⟨Vec3.unitY, ⟨0, 1, 0⟩, .water, EntityId.none⟩, none, true⟩,
    ⟨⟨Vec3.unitX, Vec3.zero, .default, ⟨7⟩⟩, none, true⟩]
  free := []

/-- A box of two units that fell into the pond by a quarter of its height. -/
noncomputable def swimmer : DynamicObject ℝ :=
  { DynamicObject.create ⟨1⟩ ⟨.box (Vec3.splat 1), 0, 0, 0⟩ Layers.all ⟨0, 3 / 2, 0⟩ none with
    box := ⟨⟨-1, 1 / 2, -1⟩, ⟨1, 5 / 2, 1⟩⟩
    velocity := ⟨3, -2, 0⟩
    shadowContact := some ⟨0⟩
    activeContacts := some ⟨1⟩ }

theorem swimmer_reaches : Reaches swimmer pond ⟨0⟩ := by
  refine ⟨rfl, rfl, ?_⟩
  show (1 / 2 : ℝ) < 1
  norm_num

/-- In the pond the box is slowed by a quarter of a tenth. Were it to walk on water, it would not rise above the
surface, and the contact that it has would come second. -/
theorem swimmer_regimes : Reaches swimmer pond ⟨0⟩ ∧
    (apply swimmer pond Config.standard).1.velocity.x = 3 * (1 - 0.1 * (1 / 4)) ∧
    (apply swimmer pond Config.standard).1.position = swimmer.position ∧
    (apply swimmer.markIceDash pond Config.standard).1.velocity = ⟨3, max (-2) 0, 0⟩ ∧
    (apply swimmer.markIceDash pond Config.standard).1.box.mins.y ≤ 1 ∧
    (apply swimmer.markIceDash pond Config.standard).2.Linked (some ⟨0⟩) [⟨0⟩, ⟨1⟩] := by
  have hdt : 0 ≤ (Config.standard : Config ℝ).fixedTimeStep := by
    show (0 : ℝ) ≤ _ / _
    simp only [Scalar.one_real, Scalar.ofNat_real]
    norm_num
  have hspeed : 0 ≤ (Config.standard : Config ℝ).maxWaterLiftSpeed := by
    show (0 : ℝ) ≤ @OfNat.ofNat ℝ 10 Scalar.instOfNat
    rw [Scalar.ofNat_real]
    norm_num
  obtain ⟨-, hswim, -⟩ := apply_regimes swimmer pond Config.standard hdt hspeed
  obtain ⟨-, hwalk, -⟩ := apply_regimes swimmer.markIceDash pond Config.standard hdt hspeed
  have hfloated := (hswim ⟨0⟩ swimmer_reaches).2 (by decide)
  have hlifted := (hwalk ⟨0⟩ ⟨rfl, rfl, swimmer_reaches.bottom⟩).1 (by decide)
  have hquarter : submergedRatio swimmer.box 1 = 1 / 4 := by
    rw [submergedRatio_of_lt] <;> norm_num [swimmer]
  have hlist : pond.Linked swimmer.activeContacts [⟨1⟩] := .cons .nil
  refine ⟨swimmer_reaches, ?_, ?_, ?_, hlifted.bottom_le, ?_⟩
  · rw [hfloated.object, ← hquarter]
    rfl
  · rw [hfloated.object]
  · rw [hlifted.object]
    rfl
  · exact hlifted.list [⟨1⟩] hlist (by decide)

end Water

end ConvexCollision
