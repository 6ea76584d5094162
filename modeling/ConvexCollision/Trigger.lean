import ConvexCollision.Contact
import ConvexCollision.Placement

/-!
# ConvexCollision.Trigger -- volumes that notice what is inside them
-/

namespace ConvexCollision

/-- The volume of a trigger. -/
inductive TriggerShape (α : Type) where
  /-- A ball. -/
  | sphere (radius : α)
  /-- An upright cylinder. -/
  | cylinder (radius halfHeight : α)
  /-- A box. -/
  | box (halfSize : Vec3 α)
deriving DecidableEq

/-- A volume that records which objects are inside it. -/
structure SpatialTrigger (α : Type) where
  /-- Its identity. -/
  id : EntityId
  /-- Where it is. -/
  position : Vec3 α
  /-- How it is turned about the vertical axis. -/
  rotation : Option (Rotation α)
  /-- The layers that it looks at. -/
  layers : Layers
  /-- Its box in the world, as last computed. -/
  box : Bounds α
  /-- The list of the objects inside. -/
  activeContacts : Option ContactId
  /-- The volume. -/
  shape : TriggerShape α
  /-- The solid of the volume, as made when the volume was last set. -/
  collider : Shape α
deriving DecidableEq

variable {α : Type} [Scalar α]

/-- The solid of a volume. -/
def TriggerShape.solid : TriggerShape α → Shape α
  | sphere radius => .sphere radius
  | cylinder radius halfHeight => .cylinder radius halfHeight
  | box halfSize => .box halfSize

namespace SpatialTrigger

/-- The solid of the trigger, in its place. -/
def placed (t : SpatialTrigger α) : Placed α := ⟨t.collider, t.position, t.rotation⟩

/-- Support function of the trigger's solid. -/
def support (t : SpatialTrigger α) : Support α := t.placed.support

/-- The trigger with its box up to date. -/
def recalcBox (t : SpatialTrigger α) : SpatialTrigger α := { t with box := t.placed.boundingBox }

/-- A trigger with nothing inside. -/
def create (id : EntityId) (shape : TriggerShape α) (layers : Layers) (position : Vec3 α)
    (rotation : Option (Rotation α)) : SpatialTrigger α :=
  recalcBox {
    id, shape, layers, position, rotation, collider := shape.solid
    box := Bounds.empty, activeContacts := none }

/-- The trigger with another volume. -/
def setShape (t : SpatialTrigger α) (shape : TriggerShape α) : SpatialTrigger α :=
  recalcBox { t with shape, collider := shape.solid }

/-- The point lies strictly inside the volume. -/
def contains (t : SpatialTrigger α) (point : Vec3 α) : Bool :=
  t.box.contains point &&
    let relative := point - t.position
    match t.shape with
    | .sphere radius => decide (relative.lengthSq < radius * radius)
    | .cylinder radius halfHeight =>
      decide (Scalar.abs relative.y < halfHeight) &&
        decide (relative.x * relative.x + relative.z * relative.z < radius * radius)
    | .box halfSize =>
      let unturned := match t.rotation with
        | some r => r.yawToLocal relative
        | none => relative
      unturned.abs.allLt halfSize

end SpatialTrigger

end ConvexCollision
