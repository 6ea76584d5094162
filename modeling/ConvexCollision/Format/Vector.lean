import ConvexCollision.Bounds
import ConvexCollision.Json

/-!
# ConvexCollision.Format.Vector -- documents of vectors and boxes

A vector is the array of its coordinates.
-/

namespace ConvexCollision

variable {α : Type} [Scalar α]

namespace Vec2

/-- The document of a vector. -/
def toJson (v : Vec2 α) : Json α := .arr [.ofScalar v.x, .ofScalar v.y]

/-- A vector from its document. -/
def ofJson? : Json α → Option (Vec2 α)
  | .arr [x, y] => do return ⟨← x.scalar?, ← y.scalar?⟩
  | _ => none

end Vec2

namespace Vec3

/-- The document of a vector. -/
def toJson (v : Vec3 α) : Json α := .arr [.ofScalar v.x, .ofScalar v.y, .ofScalar v.z]

/-- A vector from its document. -/
def ofJson? : Json α → Option (Vec3 α)
  | .arr [x, y, z] => do return ⟨← x.scalar?, ← y.scalar?, ← z.scalar?⟩
  | _ => none

end Vec3

namespace Bounds

/-- The document of a box. -/
def toJson (b : Bounds α) : Json α := .obj [("mins", b.mins.toJson), ("maxs", b.maxs.toJson)]

/-- A box from its document. -/
def ofJson? (j : Json α) : Option (Bounds α) := do
  let r ← Record.ofJson? ["mins", "maxs"] j
  return ⟨← r.field "mins" Vec3.ofJson?, ← r.field "maxs" Vec3.ofJson?⟩

end Bounds

end ConvexCollision
