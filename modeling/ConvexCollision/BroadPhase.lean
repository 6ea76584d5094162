import ConvexCollision.Bounds
import ConvexCollision.Removal

/-!
# ConvexCollision.BroadPhase -- which boxes may overlap?

Sweep and prune: the starts and ends of all boxes along the x axis are put on a grid, rounded
outward, and sorted, starts before ends. A sweep over them keeps the boxes that are open; a box that
starts is compared with every open one.
-/

namespace ConvexCollision.BroadPhase

variable {α : Type} [Scalar α]

/-- Two boxes, by their numbers. -/
structure Pair where
  /-- The box that was open. -/
  a : Nat
  /-- The box that started. -/
  b : Nat
deriving DecidableEq

/-- The pairs name the same two boxes, in either order. -/
def Pair.same (p q : Pair) : Bool := (p.a == q.a && p.b == q.b) || (p.a == q.b && p.b == q.a)

/-- Where a box starts or ends along the x axis. -/
structure Edge where
  /-- Position on the grid. -/
  x : Int32
  /-- The end of the box, not its start. -/
  isEnd : Bool
  /-- The number of the box. -/
  index : Nat
deriving DecidableEq

/-- Cells in a unit of length. -/
def cellsPerUnit : α := 8

/-- The start and the end of a box. -/
def edgesOf (box : Bounds α) (index : Nat) : List Edge :=
  [⟨Scalar.toInt32 (Scalar.floor (box.mins.x * cellsPerUnit)), false, index⟩,
   ⟨Scalar.toInt32 (Scalar.ceil (box.maxs.x * cellsPerUnit)), true, index⟩]

/-- The edge comes no later than another one: by position, a start before an end. -/
def Edge.le (e f : Edge) : Bool :=
  decide (e.x < f.x) || (e.x == f.x && (!e.isEnd || f.isEnd))

/-- All edges in the order of the sweep. Edges that compare equal stay in the order of the boxes. -/
def sortedEdges (boxes : Array (Bounds α)) : List Edge :=
  (boxes.toList.zipIdx.flatMap fun (box, i) => edgesOf box i).mergeSort Edge.le

/-- The open boxes without one of them. -/
def closeBox (active : List Nat) (index : Nat) : List Nat :=
  match active.findIdx? (· == index) with
  | some i => swapRemove active i
  | none => active

/-- One edge of the sweep: the boxes that are open, and the pairs found, latest first. -/
def step (boxes : Array (Bounds α)) (state : List Nat × List Pair) (e : Edge) :
    List Nat × List Pair :=
  let (active, pairs) := state
  if e.isEnd then (closeBox active e.index, pairs)
  else
    let box := boxes.getD e.index Bounds.empty
    let found := active.filter fun other => (boxes.getD other Bounds.empty).intersects box
    (active ++ [e.index], (found.map fun other => ⟨other, e.index⟩).reverse ++ pairs)

/-- Every pair of boxes that overlap, in the order of the sweep. -/
def pairs (boxes : Array (Bounds α)) : List Pair :=
  ((sortedEdges boxes).foldl (step boxes) ([], [])).2.reverse

end ConvexCollision.BroadPhase
