import ConvexCollision.Approach
import ConvexCollision.Hit
import ConvexCollision.Journal
import ConvexCollision.Overlap
import ConvexCollision.Polytope
import ConvexCollision.Response
import ConvexCollision.Trigger

/-!
# ConvexCollision.Resolve.Pair -- two objects, or an object and a trigger

Two objects that overlap are pushed apart by their shares of the penetration; two that met on the
way are put back to where they touched. Both ways each party gets a contact that names the other,
with opposite normals. A basic trigger only learns that it was touched.
-/

namespace ConvexCollision.Resolve

variable {α : Type} [Scalar α]

/-- Reports why a penetration could not be computed. -/
def reportFailure (l : Ledger α) : PenetrationFailure → Ledger α
  | .flatSimplex n => l.report (.flatSimplex n)
  | .degenerateTetrahedron => l.report .degenerateTetrahedron
  | .degenerateFace => l.report .degenerateFace
  | .noFace => l

/-- Reports an approach that ran out of steps. -/
def reportApproach (l : Ledger α) : Approach α → Ledger α
  | .unfinished time _ => l.report (.approachUnfinished time)
  | _ => l

/-- Records a contact on both objects, each naming the other. The normal of the hit leads from `a`
to `b`. -/
def recordPair (a b : DynamicObject α) (hit : Hit α) (l : Ledger α) :
    DynamicObject α × DynamicObject α × Ledger α :=
  let (l, aHead) := l.pushFront a.activeContacts ⟨-hit.normal, hit.contactB, .default, b.id⟩
  let (l, bHead) := l.pushFront b.activeContacts ⟨hit.normal, hit.contactA, .default, a.id⟩
  ({ a with activeContacts := aHead }, { b with activeContacts := bHead }, l)

/-- The hit that a basic trigger records: the line between the positions, or straight up. -/
def occupancy (a b : DynamicObject α) : Hit α :=
  let normal := (b.position - a.position).normalizeOrZero
  ⟨a.position, b.position, if normal.same Vec3.zero then Vec3.unitY else normal, 0, 0⟩

/-- An object that takes the given share of a penetration along `normal`. -/
def pushOut (o : DynamicObject α) (normal : Vec3 α) (penetration share : α) : DynamicObject α :=
  if 0 < share then ((o.move (normal * (penetration * share))).respond normal).markPushed else o

/-- Two objects that `shouldCollide` lets meet, tested where they are. -/
def objects (a b : DynamicObject α) (l : Ledger α) : DynamicObject α × DynamicObject α × Ledger α :=
  match Overlap.find? a.support b.support (b.position - a.position) with
  | none => (a, b, l)
  | some simplex =>
    if !a.needsOverlap || !b.needsOverlap then recordPair a b (occupancy a b) l
    else
      match penetration a.support b.support simplex with
      | .error failure => (a, b, reportFailure l failure)
      | .ok hit =>
        let (aShare, bShare) := a.pushShares b
        let a := pushOut a (-hit.normal) hit.penetration aShare
        let b := pushOut b hit.normal hit.penetration bShare
        recordPair a b hit l

/-- Motions shorter than this, squared, are not swept. -/
def minMotionSq : α := 1e-8

/-- The velocities of two objects after they met on the way. The normal leads from `a` to `b`. -/
def stopPair (a b : DynamicObject α) (normal : Vec3 α) : DynamicObject α × DynamicObject α :=
  let (aShare, bShare) := a.pushShares b
  let (a, b) :=
    if 0 < aShare ∧ 0 < bShare then (a.stopAlong normal, b.stopAlong normal)
    else if 0 < aShare then (a.stopInto (-normal), b)
    else if 0 < bShare then (a, b.stopInto normal)
    else (a, b)
  (if 0 < aShare then a.markPushed else a, if 0 < bShare then b.markPushed else b)

/-- Two objects put back to where they first touched on the way from their previous positions, and
whether they did. -/
def objectsSwept (a : DynamicObject α) (aPrevious : Vec3 α) (b : DynamicObject α)
    (bPrevious : Vec3 α) (l : Ledger α) : Bool × DynamicObject α × DynamicObject α × Ledger α :=
  let aMotion := a.position - aPrevious
  let bMotion := b.position - bPrevious
  -- the motion of b as seen from a
  let motion := bMotion - aMotion
  if motion.lengthSq < minMotionSq then (false, a, b, l)
  else
    let approach := Approach.sweep a.support b.support motion
    let l := reportApproach l approach
    match approach.hit? with
    | none => (false, a, b, l)
    | some hit =>
      let rewind := 1 - hit.time
      let a := a.move (-aMotion * rewind)
      let b := b.move (-bMotion * rewind)
      let hit := { hit with
        contactA := hit.contactA - aMotion * rewind
        contactB := hit.contactB - aMotion * rewind }
      let (a, b) := stopPair a b hit.normal
      (true, recordPair a b hit l)

/-- Records an object in a trigger that it overlaps. -/
def objectInTrigger (o : DynamicObject α) (t : SpatialTrigger α) (l : Ledger α) :
    SpatialTrigger α × Ledger α :=
  if o.id.isNone || !o.layers.intersects t.layers then (t, l)
  else if Overlap.holds t.support o.support (o.position - t.position) then
    let (l, head) := l.pushFront t.activeContacts ⟨Vec3.unitY, o.position, .default, o.id⟩
    ({ t with activeContacts := head }, l)
  else (t, l)

end ConvexCollision.Resolve
