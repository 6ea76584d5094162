/-
# ConvexCollision.Scalar -- the numbers that the geometry is written over

Every geometric definition of this library is written once, in a fixed order of operations, over a
type of numbers `α` with `Scalar α`. The library runs in single precision (`Float32`, instance
below). Nothing else is assumed of `α`, so the same definitions can be read over an ordered field
in which the operations are exact.

What a reading may rely on is deliberately little. The two order relations are decidable and
otherwise unconstrained: a `Float32` that is not a number is below nothing, and not even `x ≤ x`
holds of it. `Scalar.same`, `minNum` and `maxNum` are defined from the order alone.
-/

namespace ConvexCollision

/-- A type of numbers with the operations that the geometry uses. -/
class Scalar (α : Type) extends Add α, Sub α, Mul α, Div α, Neg α, LT α, LE α, OfScientific α where
  /-- The strict order can be decided. -/
  decidableLt : ∀ a b : α, Decidable (a < b)
  /-- The order can be decided. -/
  decidableLe : ∀ a b : α, Decidable (a ≤ b)
  /-- The whole number, rounded to the nearest number of the type. -/
  ofInt : Int → α
  /-- Magnitude. -/
  abs : α → α
  /-- Square root. -/
  sqrt : α → α
  /-- Largest whole number not above the argument. -/
  floor : α → α
  /-- Smallest whole number not below the argument. -/
  ceil : α → α
  /-- Sine of an angle in radians. -/
  sin : α → α
  /-- Cosine of an angle in radians. -/
  cos : α → α
  /-- Tangent of an angle in radians. -/
  tan : α → α
  /-- Neither infinite nor undefined. -/
  isFinite : α → Bool
  /-- Truncation to 16 bits; values outside the range go to its nearer end, undefined ones to 0. -/
  toUInt16 : α → UInt16
  /-- Truncation to 32 signed bits; values outside the range go to its nearer end, undefined ones
  to 0. -/
  toInt32 : α → Int32

namespace Scalar

variable {α : Type} [Scalar α]

instance (priority := low) (a b : α) : Decidable (a < b) := decidableLt a b

instance (priority := low) (a b : α) : Decidable (a ≤ b) := decidableLe a b

instance (priority := low) {n : Nat} : OfNat α n := ⟨OfScientific.ofScientific n false 0⟩

instance (priority := low) : Inhabited α := ⟨0⟩

/-- Equality of value: neither number is below the other and both are ordered. An undefined number
is the same as nothing, the two zeros are the same. -/
@[inline] def same (a b : α) : Bool := decide (a ≤ b) && decide (b ≤ a)

/-- A number that the order does not even relate to itself. -/
@[inline] def isUndefined (a : α) : Bool := !decide (a ≤ a)

/-- The smaller of two numbers. An undefined number gives way to the other one. -/
@[inline] def minNum (a b : α) : α :=
  if a < b then a else if isUndefined a then b else if isUndefined b then a else b

/-- The larger of two numbers. An undefined number gives way to the other one. -/
@[inline] def maxNum (a b : α) : α :=
  if b < a then a else if isUndefined a then b else if isUndefined b then a else b

/-- The largest finite single-precision number, `(2 - 2⁻²³) · 2¹²⁷`. -/
def maxFinite : α := 340282346638528859811704183484516925440

/-- The distance from one to the next larger single-precision number, `2⁻²³`. -/
def epsilon : α := 0.00000011920928955078125

/-- Radians in a degree, rounded to single precision. -/
def radiansPerDegree : α := 0.01745329238474369049072265625

/-- An angle in degrees, in radians. -/
def toRadians (degrees : α) : α := degrees * radiansPerDegree

/-- The number `t` of the way from `a` to `b`. -/
@[inline] def lerp (a b t : α) : α := a + (b - a) * t

/-- One step of at most `maxDelta` from `start` toward `target`, ending on the target when it is
that near. -/
def moveTowards (start target maxDelta : α) : α :=
  if abs (target - start) ≤ maxDelta then target
  else if start < target then start + maxDelta
  else start - maxDelta

end Scalar

/-! ## Single precision -/

namespace Single

/-- The whole part of a number in `[0, 2³²)`, as a single-precision number. -/
@[inline] def truncNonneg (x : Float32) : Float32 := x.toUInt32.toFloat32

/-- From here on every single-precision number is whole. -/
def wholeFrom : Float32 := 8388608.0

/-- Largest whole number not above `x`. -/
def floor (x : Float32) : Float32 :=
  if x.abs < wholeFrom then
    if x < 0 then
      let t := -truncNonneg (-x)
      if x < t then t - 1 else t
    else truncNonneg x
  else x

/-- Smallest whole number not below `x`. -/
def ceil (x : Float32) : Float32 := -floor (-x)

/-- Truncation to a signed 32-bit integer; beyond the range the nearer end, and 0 when undefined. -/
def toInt32 (x : Float32) : Int32 :=
  if x < 0 then
    let magnitude := (-x).toUInt32.toNat
    if 2147483648 ≤ magnitude then Int32.minValue else Int32.ofInt (-(magnitude : Int))
  else
    let magnitude := x.toUInt32.toNat
    if 2147483648 ≤ magnitude then Int32.maxValue else Int32.ofInt magnitude

end Single

instance : Scalar Float32 where
  decidableLt := inferInstance
  decidableLe := inferInstance
  ofInt := Float32.ofInt
  abs := Float32.abs
  sqrt := Float32.sqrt
  floor := Single.floor
  ceil := Single.ceil
  sin := Float32.sin
  cos := Float32.cos
  tan := Float32.tan
  isFinite := Float32.isFinite
  toUInt16 := Float32.toUInt16
  toInt32 := Single.toInt32

end ConvexCollision
