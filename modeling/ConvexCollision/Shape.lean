import ConvexCollision.Shape.Swing

/-!
# ConvexCollision.Shape -- convex solids by their support functions

A convex solid is known to the collision search by its support function alone: the point of the
solid furthest along a direction. `Shape` lists the solids that an object may have, each in its own
frame; `Shape.support` and `Shape.boundingBox` give the support point and the box under an optional
yaw. Where a direction has no component along an axis, the negative side is taken.
-/

namespace ConvexCollision

/-- A convex set, given by its furthest point along each direction. -/
abbrev Support (α : Type) := Vec3 α → Vec3 α

/-- A solid in its local frame. -/
inductive Shape (α : Type) where
  /-- A box reaching `halfSize` to both sides of the origin. -/
  | box (halfSize : Vec3 α)
  /-- A ball about the origin. -/
  | sphere (radius : α)
  /-- An upright capsule; `innerHalfHeight` is half the distance of the two ball centres. -/
  | capsule (radius innerHalfHeight : α)
  /-- A cylinder standing on the vertical axis. -/
  | cylinder (radius halfHeight : α)
  /-- A cylinder lying on its side, its axis along z. -/
  | cylinderHorz (radius halfHeight : α)
  /-- A four-sided pyramid with its apex at the origin, opening along z: the base spans `±size.x`
  by `±size.y` at `z = size.z`. -/
  | cone (size : Vec3 α)
  /-- A flat kite. In the x/z plane the hull of the origin, the two arms `(±range.x, range.y)` and
  the tip `(0, 1)`, all scaled by `radius`, and `halfHeight` thick to both sides. -/
  | sweep (range : Vec2 α) (radius halfHeight : α)
  /-- The hull of the corners of a weapon swing. -/
  | swing (swing : Swing α)
deriving DecidableEq

/-- `extent` on the positive side of zero, `-extent` elsewhere. -/
@[inline] def signSelect {α : Type} [Scalar α] (value extent : α) : α :=
  if 0 < value then extent else -extent

namespace Shape

variable {α : Type} [Scalar α]

instance : Inhabited (Shape α) := ⟨.sphere 1⟩

/-- Support point of the flat kite in the x/z plane. The tip is compared with the direction's own
z component, and an arm is preferred to the tip on a tie. -/
def kiteSupport (range : Vec2 α) (dir : Vec3 α) : Vec2 α :=
  let arm : Vec2 α := if dir.x < 0 then ⟨-range.x, range.y⟩ else range
  let reach := Vec2.dot ⟨dir.x, dir.z⟩ arm
  let best : Vec2 α × α := if 0 < reach then (arm, reach) else (⟨0, 0⟩, 0)
  if best.2 < dir.z then ⟨0, 1⟩ else best.1

/-- The point of the solid furthest along `dir`. -/
def support : Shape α → Support α
  | .box half, dir =>
    ⟨signSelect dir.x half.x, signSelect dir.y half.y, signSelect dir.z half.z⟩
  | .sphere radius, dir => dir.normalizeOrZero * radius
  | .capsule radius innerHalfHeight, dir =>
    let p := dir.normalizeOrZero * radius
    ⟨p.x, p.y + signSelect dir.y innerHalfHeight, p.z⟩
  | .cylinder radius halfHeight, dir =>
    let flat := (Vec2.normalizeOrZero ⟨dir.x, dir.z⟩) * radius
    ⟨flat.x, signSelect dir.y halfHeight, flat.y⟩
  | .cylinderHorz radius halfHeight, dir =>
    let flat := (Vec2.normalizeOrZero ⟨dir.x, dir.y⟩) * radius
    ⟨flat.x, flat.y, signSelect dir.z halfHeight⟩
  | .cone size, dir =>
    let corner : Vec3 α := ⟨signSelect dir.x size.x, signSelect dir.y size.y, size.z⟩
    if corner.dot dir < 0 then Vec3.zero else corner
  | .sweep range radius halfHeight, dir =>
    let flat := kiteSupport range dir
    ⟨flat.x * radius, signSelect dir.y halfHeight, flat.y * radius⟩
  | .swing s, dir => s.support dir

/-- The box of a solid from the support points along the six half axes, each turned by `rotation`. -/
def axisBox (support : Support α) (rotation : Rotation α) : Bounds α :=
  Bounds.ofPoints <| [Vec3.unitX, Vec3.unitY, Vec3.unitZ].flatMap fun (axis : Vec3 α) =>
    [rotation.yawToWorld (support (rotation.yawToLocal axis)),
     rotation.yawToWorld (support (rotation.yawToLocal (-axis)))]

/-- The box that reaches `maxs` to both sides of the origin. -/
def symmetricBox (maxs : Vec3 α) : Bounds α := ⟨-maxs, maxs⟩

/-- The box of the solid after an optional yaw. -/
def boundingBox : Shape α → Option (Rotation α) → Bounds α
  | .box half, some r =>
    let c := Scalar.abs r.cos
    let s := Scalar.abs r.sin
    symmetricBox ⟨half.x * c + half.z * s, half.y, half.x * s + half.z * c⟩
  | .box half, none => symmetricBox half
  | .sphere radius, _ => symmetricBox ⟨radius, radius, radius⟩
  | .capsule radius innerHalfHeight, _ =>
    symmetricBox ⟨radius, radius + innerHalfHeight, radius⟩
  | .cylinder radius halfHeight, _ => symmetricBox ⟨radius, halfHeight, radius⟩
  | .cylinderHorz radius halfHeight, rotation =>
    let r := rotation.getD Rotation.identity
    let c := Scalar.abs r.cos
    let s := Scalar.abs r.sin
    symmetricBox ⟨c * radius + s * halfHeight, radius, c * halfHeight + s * radius⟩
  | .swing s, rotation => s.boundingBox rotation
  | shape, rotation => axisBox shape.support (rotation.getD Rotation.identity)

/-- The shape can be used at all: a swing's count stays within its slots. -/
def checked : Shape α → Except Fault (Shape α)
  | .swing s => if s.isInRange then .ok (.swing s) else .error .indexOutOfRange
  | shape => .ok shape

end Shape

end ConvexCollision
