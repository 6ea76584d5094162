import ConvexCollision.Bounds
import ConvexCollision.Fault
import ConvexCollision.Rotation

/-!
# ConvexCollision.Shape.Swing -- the hull of a weapon's last two blade positions

A blade position is a pair of corners. The four slots are filled in pairs, the older pair being
overwritten, and `dataCount` says how many slots are in use. A swing read from a file carries
whatever counts the file gives, so the operations that index the slots are checked: `corners` and
`add` report a fault where a count or position runs past the four slots. `held` is the total view
that the geometry uses; it agrees with `corners` whenever that succeeds.
-/

namespace ConvexCollision

/-- Four corner slots, the slot to be written next, and the number of slots in use. -/
structure Swing (α : Type) where
  /-- The corner slots. -/
  slots : Vector (Vec3 α) 4
  /-- Where the next pair of corners goes. -/
  nextCorner : Nat
  /-- How many slots are in use. -/
  dataCount : Nat
deriving DecidableEq

namespace Swing

variable {α : Type} [Scalar α]

/-- A swing with no corners. -/
def empty : Swing α := ⟨Vector.replicate 4 Vec3.zero, 0, 0⟩

/-- Writes a pair of corners over the older pair. The next pair goes to the other two slots. -/
def add (s : Swing α) (a b : Vec3 α) : Except Fault (Swing α) :=
  if h : s.nextCorner + 1 < 4 then
    .ok {
      slots := (s.slots.set s.nextCorner a (by omega)).set (s.nextCorner + 1) b h
      nextCorner := s.nextCorner ^^^ 2
      dataCount := if s.dataCount < 4 then s.dataCount + 2 else s.dataCount }
  else .error .indexOutOfRange

/-- The count stays within the four slots. -/
def isInRange (s : Swing α) : Bool := decide (s.dataCount ≤ 4)

/-- The slots in use, as far as there are any. -/
def held (s : Swing α) : List (Vec3 α) := s.slots.toList.take s.dataCount

/-- The slots in use, or a fault when the count exceeds the slots. -/
def corners (s : Swing α) : Except Fault (List (Vec3 α)) :=
  if s.isInRange then .ok s.held else .error .indexOutOfRange

/-- The corner furthest along `dir`, the first of several; the origin when there is none. -/
def support (s : Swing α) (dir : Vec3 α) : Vec3 α :=
  (s.held.foldl (fun (best : Vec3 α × α) corner =>
    let test := corner.dot dir
    if best.2 < test then (corner, test) else best) (Vec3.zero, -Scalar.maxFinite)).1

/-- The box of the turned corners; the box of the origin when there is none. -/
def boundingBox (s : Swing α) (rotation : Option (Rotation α)) : Bounds α :=
  if s.dataCount = 0 then ⟨Vec3.zero, Vec3.zero⟩
  else
    let turn := rotation.getD Rotation.identity
    Bounds.ofPoints (s.held.map turn.yawToWorld)

end Swing

end ConvexCollision
