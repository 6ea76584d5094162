import ConvexCollision.Bounds
import ConvexCollision.Error
import ConvexCollision.Fault

/-!
# ConvexCollision.KdTree -- a tree over the triangles of a mesh

Each branch splits the triangles below it in two along an axis. It keeps where the first side ends
and where the second starts, on a grid of 16-bit cells laid over the bounds of the tree and rounded
outward, so a walk can skip a side that a query does not reach. Leaves are ranges of triangle
numbers. Nodes refer to each other by number, the root being node 0; a tree read from a file may
hold any numbers, and `validate` decides whether it is safe to walk.
-/

namespace ConvexCollision

/-- A node of the tree. -/
inductive KdNode where
  /-- A range of triangle numbers. -/
  | leaf (triangleOffset triangleCount : UInt16)
  /-- A split: the first side ends at or before cell `aMax` on the axis, the second starts at or
  after cell `bMin`. -/
  | branch (axis : UInt8) (aMax bMin aChild bChild : UInt16)
deriving DecidableEq, Inhabited

/-- A grid of 16-bit cells over a box. -/
structure Grid (α : Type) where
  /-- The box. -/
  bounds : Bounds α
  /-- Cells in a unit of length, on each axis; zero on an axis where the box is flat. -/
  sizeInv : Vec3 α
deriving DecidableEq

/-- A tree over the triangles of a mesh. -/
structure KdTree (α : Type) where
  /-- The grid on which splits are recorded. -/
  grid : Grid α
  /-- The nodes, the root first. -/
  nodes : Array KdNode
deriving DecidableEq

namespace Grid

variable {α : Type} [Scalar α]

/-- The last cell on each axis. -/
def lastCell : α := 65535

/-- The grid that spreads its cells over a box. -/
def ofBounds (bounds : Bounds α) : Grid α where
  bounds
  sizeInv := Vec3.ofCoords fun i =>
    let size := bounds.width.coord i
    if Scalar.epsilon < size then lastCell / size else 0

/-- A coordinate in units of cells, kept within the grid. -/
def quantize (g : Grid α) (axis : Axis) (value : α) : α :=
  Scalar.minNum
    (Scalar.maxNum ((value - g.bounds.mins.coord axis) * g.sizeInv.coord axis) 0) lastCell

/-- The cell at or below a coordinate. -/
def cellFloor (g : Grid α) (axis : Axis) (value : α) : UInt16 :=
  Scalar.toUInt16 (Scalar.floor (g.quantize axis value))

/-- The cell at or above a coordinate. -/
def cellCeil (g : Grid α) (axis : Axis) (value : α) : UInt16 :=
  Scalar.toUInt16 (Scalar.ceil (g.quantize axis value))

/-- Equality of value. -/
def same (a b : Grid α) : Bool := a.bounds.same b.bounds && a.sizeInv.same b.sizeInv

end Grid

namespace KdTree

variable {α : Type} [Scalar α]

/-- The most nodes on a path from the root, and the most that a walk keeps waiting. -/
def maxDepth : Nat := 16

/-- A leaf that is no larger than this is not split. -/
def leafSize : Nat := 4

/-- The bounds of the tree. -/
def bounds (t : KdTree α) : Bounds α := t.grid.bounds

/-- Equality of value. -/
def same (a b : KdTree α) : Bool := a.grid.same b.grid && a.nodes == b.nodes

end KdTree

end ConvexCollision
