import ConvexCollision.Scalar

/-!
# ConvexCollision.Config -- the tunables of a world
-/

namespace ConvexCollision

/-- The tunables of a world. -/
structure Config (α : Type) where
  /-- Seconds in a tick. -/
  fixedTimeStep : α
  /-- Vertical acceleration of objects under gravity. -/
  gravity : α
  /-- The number of contacts that a world can hold. -/
  contactPoolCapacity : Nat
  /-- The hits resolved for an object in a tick before it is put back. -/
  maxSweptIterations : Nat
  /-- The largest angle between an object's sideways motion and the drop to the ground for which it
  is pulled down. -/
  groundSnapConeDegrees : α
  /-- How far below its box a surface still carries an object. -/
  shadowGroundTolerance : α
  /-- The speed at which an object that walks on water rises to the surface, at most. -/
  maxWaterLiftSpeed : α
  /-- The distance of the kill plane below the lowest point of the static meshes. -/
  killPlaneMargin : α
deriving DecidableEq

namespace Config

/-- The tunables of a world whose description does not give its own. -/
def standard {α : Type} [Scalar α] : Config α where
  fixedTimeStep := 1 / 30
  gravity := -9.8
  contactPoolCapacity := 256
  maxSweptIterations := 5
  groundSnapConeDegrees := 45
  shadowGroundTolerance := 0.1
  maxWaterLiftSpeed := 10
  killPlaneMargin := 10

end Config

end ConvexCollision
