import ConvexCollision.Shape

/-!
# ConvexCollision.Placement -- convex sets moved, swept and put in place

Each operation takes a support function to the support function of the moved set.
-/

namespace ConvexCollision

variable {α : Type} [Scalar α]

namespace Support

/-- The set moved by `offset`. -/
def translate (inner : Support α) (offset : Vec3 α) : Support α := fun dir => inner dir + offset

/-- The hull of the set and of the set moved by `offset`: a direction that faces the offset picks up
the extra reach. -/
def stretch (inner : Support α) (offset : Vec3 α) : Support α := fun dir =>
  let p := inner dir
  if 0 < offset.dot dir then p + offset else p

end Support

/-- A shape put in the world with a position and an optional yaw. -/
structure Placed (α : Type) where
  /-- The shape in its own frame. -/
  shape : Shape α
  /-- Where its origin is put. -/
  position : Vec3 α
  /-- How it is turned. -/
  rotation : Option (Rotation α)

namespace Placed

/-- Support function of the placed shape. -/
def support (p : Placed α) : Support α := fun dir =>
  match p.rotation with
  | some r => r.yawToWorld (p.shape.support (r.yawToLocal dir)) + p.position
  | none => p.shape.support dir + p.position

/-- Box of the placed shape. -/
def boundingBox (p : Placed α) : Bounds α :=
  (p.shape.boundingBox p.rotation).translate p.position

end Placed

end ConvexCollision
