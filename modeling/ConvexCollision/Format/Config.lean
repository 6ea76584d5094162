import ConvexCollision.Config
import ConvexCollision.Json

/-!
# ConvexCollision.Format.Config -- documents of tunables

Any tunable may be left out; it then has its standard value.
-/

namespace ConvexCollision.Config

variable {α : Type} [Scalar α]

/-- The document of the tunables. -/
def toJson (c : Config α) : Json α :=
  .obj
    [("fixed_time_step", .ofScalar c.fixedTimeStep), ("gravity", .ofScalar c.gravity),
     ("contact_pool_capacity", .ofNat c.contactPoolCapacity),
     ("max_swept_iterations", .ofNat c.maxSweptIterations),
     ("ground_snap_cone_degrees", .ofScalar c.groundSnapConeDegrees),
     ("shadow_ground_tolerance", .ofScalar c.shadowGroundTolerance),
     ("max_water_lift_speed", .ofScalar c.maxWaterLiftSpeed),
     ("kill_plane_margin", .ofScalar c.killPlaneMargin)]

/-- The names of the tunables in order. -/
def fieldNames : List String :=
  ["fixed_time_step", "gravity", "contact_pool_capacity", "max_swept_iterations",
   "ground_snap_cone_degrees", "shadow_ground_tolerance", "max_water_lift_speed", "kill_plane_margin"]

/-- A count that fits 32 bits. -/
def count32? (j : Json α) : Option Nat := j.natBelow? UInt32.size

/-- The tunables from their document. -/
def ofJson? (j : Json α) : Option (Config α) := do
  let r ← Record.ofJson? fieldNames j
  let s : Config α := standard
  return {
    fixedTimeStep := ← r.fieldD "fixed_time_step" Json.scalar? s.fixedTimeStep
    gravity := ← r.fieldD "gravity" Json.scalar? s.gravity
    contactPoolCapacity := ← r.fieldD "contact_pool_capacity" Json.count? s.contactPoolCapacity
    maxSweptIterations := ← r.fieldD "max_swept_iterations" count32? s.maxSweptIterations
    groundSnapConeDegrees := ← r.fieldD "ground_snap_cone_degrees" Json.scalar? s.groundSnapConeDegrees
    shadowGroundTolerance := ← r.fieldD "shadow_ground_tolerance" Json.scalar? s.shadowGroundTolerance
    maxWaterLiftSpeed := ← r.fieldD "max_water_lift_speed" Json.scalar? s.maxWaterLiftSpeed
    killPlaneMargin := ← r.fieldD "kill_plane_margin" Json.scalar? s.killPlaneMargin }

end ConvexCollision.Config
