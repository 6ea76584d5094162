import ConvexCollision.Bounds
import ConvexCollision.Entity
import ConvexCollision.Shape

/-!
# ConvexCollision.Mesh.Triangle -- triangles in space and as a mesh stores them
-/

namespace ConvexCollision

/-- A corner of a triangle, and the edge from it to the next corner. -/
inductive Corner where
  /-- The first corner. -/
  | first
  /-- The second corner. -/
  | second
  /-- The third corner. -/
  | third
deriving DecidableEq, Inhabited

namespace Corner

/-- The corners in order. -/
def all : List Corner := [first, second, third]

/-- The corner after this one, around. -/
def next : Corner → Corner
  | first => second
  | second => third
  | third => first

/-- The bit that stands for the edge from a corner to the next one. -/
def edgeBit : Corner → UInt8
  | first => 1
  | second => 2
  | third => 4

end Corner

/-- A triangle in space. Seen from the side that its normal leads to, its corners wind counter
clockwise. -/
structure Triangle (α : Type) where
  /-- First corner. -/
  a : Vec3 α
  /-- Second corner. -/
  b : Vec3 α
  /-- Third corner. -/
  c : Vec3 α
deriving DecidableEq, Inhabited

namespace Triangle

variable {α : Type} [Scalar α]

/-- Unit normal; zero for a triangle without area. -/
def normal (t : Triangle α) : Vec3 α := ((t.b - t.a).cross (t.c - t.a)).normalizeOrZero

/-- Box of the corners. -/
def bounds (t : Triangle α) : Bounds α := Bounds.ofPoints [t.a, t.b, t.c]

/-- The corner furthest along a direction, the first of several. -/
def support (t : Triangle α) : Support α := fun dir =>
  ([t.b, t.c].foldl (fun (best : Vec3 α × α) corner =>
    let check := corner.dot dir
    if best.2 < check then (corner, check) else best) (t.a, t.a.dot dir)).1

/-- Where a corner is. -/
def corner (t : Triangle α) : Corner → Vec3 α
  | .first => t.a
  | .second => t.b
  | .third => t.c

/-- From the opposite corner straight out across the edge after a corner. -/
def outward (t : Triangle α) (i : Corner) : Vec3 α :=
  let offset := t.corner i.next - t.corner i
  let opposite := t.corner i.next.next - t.corner i
  offset * (opposite.dot offset / offset.lengthSq) - opposite

end Triangle

/-- A triangle as a mesh stores it. -/
structure MeshTriangle where
  /-- Numbers of the corners in the vertex table. -/
  indices : UInt16 × UInt16 × UInt16
  /-- What it is made of. -/
  surface : Surface := .default
  /-- The layers on which it is met. -/
  layers : Layers := Layers.all
  /-- The bits of the edges that are seams: a neighbour in the same plane shares them. -/
  filteredEdges : UInt8 := 0
deriving DecidableEq, Inhabited

namespace MeshTriangle

/-- Number of a corner in the vertex table. -/
def index (t : MeshTriangle) : Corner → UInt16
  | .first => t.indices.1
  | .second => t.indices.2.1
  | .third => t.indices.2.2

/-- The edge after a corner is marked as a seam. -/
def isSeam (t : MeshTriangle) (i : Corner) : Bool := t.filteredEdges &&& i.edgeBit != 0

/-- The triangle with the edge after a corner marked as a seam. -/
def markSeam (t : MeshTriangle) (i : Corner) : MeshTriangle :=
  { t with filteredEdges := t.filteredEdges ||| i.edgeBit }

/-- The numbers of the two vertices of the edge after a corner, the smaller first. -/
def edgeKey (t : MeshTriangle) (i : Corner) : UInt16 × UInt16 :=
  let p := t.index i
  let q := t.index i.next
  if p ≤ q then (p, q) else (q, p)

end MeshTriangle

end ConvexCollision
