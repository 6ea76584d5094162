import ConvexCollision.Distance
import ConvexCollision.Hit
import ConvexCollision.Placement

/-!
# ConvexCollision.Approach -- when a moving set first touches one at rest

Conservative advancement: while the sets are apart, the mover can safely advance by their distance
over the speed at which it closes in along the line between the nearest points. The advance stops
short by a thin skin, so that the sets are still apart when the distance counts as touching.
-/

namespace ConvexCollision

variable {α : Type} [Scalar α]

/-- Outcome of an approach. -/
inductive Approach (α : Type) where
  /-- The sets come to touch. -/
  | touches (hit : Hit α)
  /-- They do not touch during the motion, or already overlap at its start. -/
  | misses
  /-- The steps ran out at this time; the last position at which the sets were apart, if any, stands
  in for the contact. -/
  | unfinished (time : α) (lastApart : Option (Hit α))

namespace Approach

/-- The most steps that an approach takes. -/
def maxSteps : Nat := 16

/-- The distance that counts as touching. -/
def touching : α := 0.01

/-- The gap that a step leaves. -/
def skin : α := 0.005

/-- A motion within this cosine of the contact plane grazes and does not close in. -/
def grazing : α := 1e-3

/-- The contact, if any. -/
def hit? : Approach α → Option (Hit α)
  | touches hit => some hit
  | misses => none
  | unfinished _ lastApart => lastApart

/-- The outcome when the sets were found overlapping: the last position at which they were apart. -/
def ofLastApart : Option (Hit α) → Approach α
  | some hit => .touches hit
  | none => .misses

/-- The advance from a time, with the last contact seen while the sets were apart. The set `b` is
given at the end of its motion. -/
def advance (a b : Support α) (motion : Vec3 α) : Nat → α → Option (Hit α) → Approach α
  | 0, time, lastApart => .unfinished time lastApart
  | steps + 1, time, lastApart =>
    let closest := ClosestPoints.between a (Support.translate b (motion * (time - 1)))
    if closest.distance ≤ 0 then ofLastApart lastApart
    else
      let normal := (closest.pointB - closest.pointA).normalizeOrZero
      let closing := -(motion.dot normal)
      if normal.same Vec3.zero = true ∨ closing ≤ motion.length * grazing then .misses
      else
        let hit : Hit α := ⟨closest.pointA, closest.pointB, normal, 0, time⟩
        if closest.distance < touching then .touches hit
        else
          let time := time + (closest.distance - skin) / closing
          if 1 < time then .misses else advance a b motion steps time (some hit)

/-- When `b`, which travelled `motion` and now stands at its end, first touched `a`. -/
def sweep (a b : Support α) (motion : Vec3 α) : Approach α := advance a b motion maxSteps 0 none

end Approach

end ConvexCollision
