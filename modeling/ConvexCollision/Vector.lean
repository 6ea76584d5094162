import ConvexCollision.Scalar

/-!
# ConvexCollision.Vector -- plane and space vectors

Sums are taken left to right: `dot` is `(x * x' + y * y') + z * z'`. The axis order is x, y, z, and
the first axis follows the last one.
-/

namespace ConvexCollision

/-- An axis of space. -/
inductive Axis where
  /-- The first axis. -/
  | x
  /-- The vertical axis. -/
  | y
  /-- The third axis. -/
  | z
deriving DecidableEq, Inhabited

namespace Axis

/-- The axes in order. -/
def all : List Axis := [x, y, z]

/-- The axis after this one, around. -/
def next : Axis → Axis
  | x => y
  | y => z
  | z => x

/-- The number of an axis, from zero. -/
def number : Axis → Nat
  | x => 0
  | y => 1
  | z => 2

/-- The axis with a number. -/
def ofNumber? : Nat → Option Axis
  | 0 => some x
  | 1 => some y
  | 2 => some z
  | _ => none

end Axis

/-- A vector of the plane. -/
structure Vec2 (α : Type) where
  /-- First coordinate. -/
  x : α
  /-- Second coordinate. -/
  y : α
deriving DecidableEq, Inhabited

/-- A vector of space. -/
structure Vec3 (α : Type) where
  /-- First coordinate. -/
  x : α
  /-- Second coordinate, the vertical one. -/
  y : α
  /-- Third coordinate. -/
  z : α
deriving DecidableEq, Inhabited

variable {α : Type} [Scalar α]

namespace Vec2

/-- Inner product. -/
@[inline] def dot (a b : Vec2 α) : α := a.x * b.x + a.y * b.y

/-- Twice the signed area of the triangle spanned by the two vectors. -/
@[inline] def cross (a b : Vec2 α) : α := a.x * b.y - a.y * b.x

/-- Squared length. -/
@[inline] def lengthSq (a : Vec2 α) : α := a.dot a

/-- Length. -/
@[inline] def length (a : Vec2 α) : α := Scalar.sqrt a.lengthSq

/-- Difference. -/
@[inline] def sub (a b : Vec2 α) : Vec2 α := ⟨a.x - b.x, a.y - b.y⟩

/-- Product with a number. -/
@[inline] def scale (a : Vec2 α) (s : α) : Vec2 α := ⟨a.x * s, a.y * s⟩

instance : Sub (Vec2 α) := ⟨sub⟩

instance : HMul (Vec2 α) α (Vec2 α) := ⟨scale⟩

/-- The unit vector along `a`, or zero when `a` is too short (or not a number) to have one. -/
def normalizeOrZero (a : Vec2 α) : Vec2 α :=
  let perLength := 1 / a.length
  if Scalar.isFinite perLength ∧ 0 < perLength then a * perLength else ⟨0, 0⟩

end Vec2

namespace Vec3

/-- The origin. -/
def zero : Vec3 α := ⟨0, 0, 0⟩

/-- The vector with three equal coordinates. -/
@[inline] def splat (s : α) : Vec3 α := ⟨s, s, s⟩

/-- Unit vector of the first axis. -/
def unitX : Vec3 α := ⟨1, 0, 0⟩

/-- Unit vector of the vertical axis. -/
def unitY : Vec3 α := ⟨0, 1, 0⟩

/-- Unit vector of the third axis. -/
def unitZ : Vec3 α := ⟨0, 0, 1⟩

/-- Sum. -/
@[inline] def add (a b : Vec3 α) : Vec3 α := ⟨a.x + b.x, a.y + b.y, a.z + b.z⟩

/-- Difference. -/
@[inline] def sub (a b : Vec3 α) : Vec3 α := ⟨a.x - b.x, a.y - b.y, a.z - b.z⟩

/-- Opposite. -/
@[inline] def neg (a : Vec3 α) : Vec3 α := ⟨-a.x, -a.y, -a.z⟩

/-- Product with a number. -/
@[inline] def scale (a : Vec3 α) (s : α) : Vec3 α := ⟨a.x * s, a.y * s, a.z * s⟩

/-- Quotient by a number. -/
@[inline] def shrink (a : Vec3 α) (s : α) : Vec3 α := ⟨a.x / s, a.y / s, a.z / s⟩

instance : Add (Vec3 α) := ⟨add⟩

instance : Sub (Vec3 α) := ⟨sub⟩

instance : Neg (Vec3 α) := ⟨neg⟩

instance : HMul (Vec3 α) α (Vec3 α) := ⟨scale⟩

instance : HDiv (Vec3 α) α (Vec3 α) := ⟨shrink⟩

/-- Inner product. -/
@[inline] def dot (a b : Vec3 α) : α := a.x * b.x + a.y * b.y + a.z * b.z

/-- Vector product. -/
@[inline] def cross (a b : Vec3 α) : Vec3 α :=
  ⟨a.y * b.z - b.y * a.z, a.z * b.x - b.z * a.x, a.x * b.y - b.x * a.y⟩

/-- Squared length. -/
@[inline] def lengthSq (a : Vec3 α) : α := a.dot a

/-- Length. -/
@[inline] def length (a : Vec3 α) : α := Scalar.sqrt a.lengthSq

/-- Squared distance. -/
@[inline] def distanceSq (a b : Vec3 α) : α := (a - b).lengthSq

/-- The unit vector along `a`, or zero when `a` is too short (or not a number) to have one. -/
def normalizeOrZero (a : Vec3 α) : Vec3 α :=
  let perLength := 1 / a.length
  if Scalar.isFinite perLength ∧ 0 < perLength then a * perLength else zero

/-- Magnitude of each coordinate. -/
@[inline] def abs (a : Vec3 α) : Vec3 α := ⟨Scalar.abs a.x, Scalar.abs a.y, Scalar.abs a.z⟩

/-- The coordinate on an axis. -/
@[inline] def coord (a : Vec3 α) : Axis → α
  | .x => a.x
  | .y => a.y
  | .z => a.z

theorem coord_sub (a b : Vec3 α) (axis : Axis) : (a - b).coord axis = a.coord axis - b.coord axis := by
  cases axis <;> rfl

theorem coord_scale (a : Vec3 α) (s : α) (axis : Axis) : (a * s).coord axis = a.coord axis * s := by
  cases axis <;> rfl

theorem coord_cross (a b : Vec3 α) (axis : Axis) : (a.cross b).coord axis =
    a.coord axis.next * b.coord axis.next.next - b.coord axis.next * a.coord axis.next.next := by
  cases axis <;> rfl

/-- The vector whose coordinates are given axis by axis. -/
@[inline] def ofCoords (f : Axis → α) : Vec3 α := ⟨f .x, f .y, f .z⟩

/-- Some coordinate of `a` is below that of `b`. -/
@[inline] def anyLt (a b : Vec3 α) : Bool := decide (a.x < b.x) || decide (a.y < b.y) || decide (a.z < b.z)

/-- Every coordinate of `a` is below that of `b`. -/
@[inline] def allLt (a b : Vec3 α) : Bool := decide (a.x < b.x) && decide (a.y < b.y) && decide (a.z < b.z)

/-- Every coordinate of `a` is at most that of `b`. -/
@[inline] def allLe (a b : Vec3 α) : Bool := decide (a.x ≤ b.x) && decide (a.y ≤ b.y) && decide (a.z ≤ b.z)

/-- Equality of value, coordinate by coordinate. -/
@[inline] def same (a b : Vec3 α) : Bool := Scalar.same a.x b.x && Scalar.same a.y b.y && Scalar.same a.z b.z

/-- Some unit vector perpendicular to `v`: the cross product with the axis on which `v` is
shortest. -/
def anyOrthogonal (v : Vec3 α) : Vec3 α :=
  let m := v.abs
  let other : Vec3 α :=
    if m.x ≤ m.y ∧ m.x ≤ m.z then unitX else if m.y ≤ m.z then unitY else unitZ
  (v.cross other).normalizeOrZero

end Vec3

end ConvexCollision
