import ConvexCollision.Vector

/-!
# ConvexCollision.Rotation -- rotations about one axis

A rotation about a single axis is kept as the complex number `(cos, sin)`. Nothing forces it onto
the unit circle: the formulas are applied to whatever pair a caller supplies. Yaw turns about the
vertical axis, in the x/z plane; pitch turns about the x axis, in the y/z plane.
-/

namespace ConvexCollision

/-- A rotation about one axis, as cosine and sine. -/
structure Rotation (α : Type) where
  /-- Cosine of the angle. -/
  cos : α
  /-- Sine of the angle. -/
  sin : α
deriving DecidableEq, Inhabited

namespace Rotation

variable {α : Type} [Scalar α]

/-- The rotation by nothing. -/
def identity : Rotation α := ⟨1, 0⟩

/-- The rotation by an angle in radians. -/
def ofAngle (radians : α) : Rotation α := ⟨Scalar.cos radians, Scalar.sin radians⟩

/-- The yaw of an angle in degrees; a zero angle is no rotation at all. -/
def ofYawDegrees (degrees : α) : Option (Rotation α) :=
  if Scalar.same degrees 0 then none else some (ofAngle (Scalar.toRadians degrees))

/-- One rotation after the other, as the product of complex numbers. -/
def compose (a b : Rotation α) : Rotation α :=
  ⟨a.cos * b.cos - a.sin * b.sin, a.cos * b.sin + a.sin * b.cos⟩

/-- Turns a local vector about the vertical axis into the world. -/
@[inline] def yawToWorld (r : Rotation α) (v : Vec3 α) : Vec3 α :=
  ⟨v.x * r.cos - v.z * r.sin, v.y, v.z * r.cos + v.x * r.sin⟩

/-- Turns a world vector about the vertical axis back into the local frame. -/
@[inline] def yawToLocal (r : Rotation α) (v : Vec3 α) : Vec3 α :=
  ⟨v.x * r.cos + v.z * r.sin, v.y, v.z * r.cos - v.x * r.sin⟩

/-- Turns a local vector about the x axis into the world. -/
@[inline] def pitchToWorld (r : Rotation α) (v : Vec3 α) : Vec3 α :=
  ⟨v.x, v.y * r.cos - v.z * r.sin, v.z * r.cos + v.y * r.sin⟩

/-- Turns a world vector about the x axis back into the local frame. -/
@[inline] def pitchToLocal (r : Rotation α) (v : Vec3 α) : Vec3 α :=
  ⟨v.x, v.y * r.cos + v.z * r.sin, v.z * r.cos - v.y * r.sin⟩

end Rotation

end ConvexCollision
