import ConvexCollision.Config
import ConvexCollision.Response

/-!
# ConvexCollision.Water -- buoyancy, drag, and walking on water

Water acts on an object whose shadow falls on a water surface above the bottom of its box. An object
that can walk on water is lifted toward the surface and stands on it; any other one is slowed and
pushed up by the part of its height that is submerged.
-/

namespace ConvexCollision.Water

variable {α : Type} [Scalar α]

/-- The velocity that a fully submerged object keeps in a tick. -/
def submergedDrag : α := 0.9

/-- The submerged part of a box below a water surface. -/
def submergedRatio (box : Bounds α) (waterTop : α) : α :=
  if box.maxs.y ≤ waterTop then 1 else (waterTop - box.mins.y) / (box.maxs.y - box.mins.y)

/-- An object that walks on water: its shadow contact becomes the head of its contacts, and it rises
toward the surface. -/
def walkOn (o : DynamicObject α) (shadow : ContactId) (waterTop : α) (pool : ContactPool α)
    (config : Config α) : DynamicObject α × ContactPool α :=
  let pool := pool.set shadow
    ⟨Vec3.unitY, ⟨o.position.x, waterTop, o.position.z⟩, .water, EntityId.none⟩
  let pool := pool.linkFront o.activeContacts shadow
  let target := waterTop + o.position.y - o.box.mins.y
  let y := Scalar.moveTowards o.position.y target (config.maxWaterLiftSpeed * config.fixedTimeStep)
  let lift := y - o.position.y
  let o := { o with
    shadowContact := none
    activeContacts := some shadow
    position := { o.position with y }
    box := o.box.translate ⟨0, lift, 0⟩ }
  (o.stopInto Vec3.unitY, pool)

/-- An object in water: drag and buoyancy by the submerged part of its box. -/
def float (o : DynamicObject α) (waterTop : α) (config : Config α) : DynamicObject α :=
  let ratio := submergedRatio o.box waterTop
  let lift : α := config.gravity / o.density.buoyancyDivisor
  let velocity := o.velocity * Scalar.lerp 1 submergedDrag ratio
  let o := { o with
    velocity := { velocity with y := velocity.y - ratio * lift * config.fixedTimeStep } }
  if (0.5 : α) < ratio then o.markUnderWater else o

/-- What water does to an object in a tick. -/
def apply (o : DynamicObject α) (pool : ContactPool α) (config : Config α) :
    DynamicObject α × ContactPool α :=
  match o.shadowContact with
  | none => (o, pool)
  | some shadow =>
    let surface := pool.get shadow
    if surface.surface != .water then (o, pool)
    else
      let waterTop := surface.point.y
      if waterTop ≤ o.box.mins.y then (o, pool)
      else if 0 < o.hasIceDash then walkOn o shadow waterTop pool config
      else (float o waterTop config, pool)

end ConvexCollision.Water
