import ConvexCollision.Format.Vector
import ConvexCollision.Object
import ConvexCollision.Trigger

/-!
# ConvexCollision.Format.Shape -- documents of solids

A solid is a choice by the name of its kind.
-/

namespace ConvexCollision

variable {α : Type} [Scalar α]

namespace Swing

/-- The fields of a swing. -/
def fields (s : Swing α) : List (String × Json α) :=
  [("corners", .ofList Vec3.toJson s.slots.toList), ("next_corner", .ofNat s.nextCorner),
   ("data_count", .ofNat s.dataCount)]

/-- Four corners from a list of four. -/
def slotsOf? : List (Vec3 α) → Option (Vector (Vec3 α) 4)
  | [a, b, c, d] => some #v[a, b, c, d]
  | _ => none

/-- A swing from the document of its fields. -/
def ofJson? (j : Json α) : Option (Swing α) := do
  let r ← Record.ofJson? ["corners", "next_corner", "data_count"] j
  return {
    slots := ← slotsOf? (← r.field "corners" (Json.listOf? Vec3.ofJson?))
    nextCorner := ← r.field "next_corner" Json.count?
    dataCount := ← r.field "data_count" Json.count? }

end Swing

namespace Shape

/-- The document of a solid. -/
def toJson : Shape α → Json α
  | box halfSize => .ofTagged "box" [("half_size", halfSize.toJson)]
  | sphere radius => .ofTagged "sphere" [("radius", .ofScalar radius)]
  | capsule radius innerHalfHeight =>
    .ofTagged "capsule"
      [("radius", .ofScalar radius), ("inner_half_height", .ofScalar innerHalfHeight)]
  | cylinder radius halfHeight =>
    .ofTagged "cylinder" [("radius", .ofScalar radius), ("half_height", .ofScalar halfHeight)]
  | cylinderHorz radius halfHeight =>
    .ofTagged "cylinder_horz" [("radius", .ofScalar radius), ("half_height", .ofScalar halfHeight)]
  | cone size => .ofTagged "cone" [("size", size.toJson)]
  | sweep range radius halfHeight =>
    .ofTagged "sweep"
      [("range", range.toJson), ("radius", .ofScalar radius), ("half_height", .ofScalar halfHeight)]
  | swing s => .ofTagged "swing" s.fields

/-- A solid from its document. -/
def ofJson? (j : Json α) : Option (Shape α) := do
  let (tag, j) ← j.tagged?
  match tag with
  | "box" =>
    let r ← Record.ofJson? ["half_size"] j
    return box (← r.field "half_size" Vec3.ofJson?)
  | "sphere" =>
    let r ← Record.ofJson? ["radius"] j
    return sphere (← r.field "radius" Json.scalar?)
  | "capsule" =>
    let r ← Record.ofJson? ["radius", "inner_half_height"] j
    return capsule (← r.field "radius" Json.scalar?) (← r.field "inner_half_height" Json.scalar?)
  | "cylinder" =>
    let r ← Record.ofJson? ["radius", "half_height"] j
    return cylinder (← r.field "radius" Json.scalar?) (← r.field "half_height" Json.scalar?)
  | "cylinder_horz" =>
    let r ← Record.ofJson? ["radius", "half_height"] j
    return cylinderHorz (← r.field "radius" Json.scalar?) (← r.field "half_height" Json.scalar?)
  | "cone" =>
    let r ← Record.ofJson? ["size"] j
    return cone (← r.field "size" Vec3.ofJson?)
  | "sweep" =>
    let r ← Record.ofJson? ["range", "radius", "half_height"] j
    return sweep (← r.field "range" Vec2.ofJson?) (← r.field "radius" Json.scalar?)
      (← r.field "half_height" Json.scalar?)
  | "swing" => return swing (← Swing.ofJson? j)
  | _ => none

end Shape

namespace TriggerShape

/-- The document of a volume. -/
def toJson (shape : TriggerShape α) : Json α := shape.solid.toJson

/-- A volume from its document. -/
def ofJson? (j : Json α) : Option (TriggerShape α) := do
  match ← Shape.ofJson? j with
  | .sphere radius => return sphere radius
  | .cylinder radius halfHeight => return cylinder radius halfHeight
  | .box halfSize => return box halfSize
  | _ => none

end TriggerShape

namespace ObjectType

/-- The document of a type. -/
def toJson (t : ObjectType α) : Json α :=
  .obj [("shape", t.shape.toJson), ("bounce", .ofScalar t.bounce), ("friction", .ofScalar t.friction),
    ("max_stable_slope", .ofScalar t.maxStableSlope)]

/-- A type from its document. -/
def ofJson? (j : Json α) : Option (ObjectType α) := do
  let r ← Record.ofJson? ["shape", "bounce", "friction", "max_stable_slope"] j
  return {
    shape := ← r.field "shape" Shape.ofJson?
    bounce := ← r.field "bounce" Json.scalar?
    friction := ← r.field "friction" Json.scalar?
    maxStableSlope := ← r.field "max_stable_slope" Json.scalar? }

end ObjectType

end ConvexCollision
