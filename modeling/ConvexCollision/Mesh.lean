import ConvexCollision.KdTree.Build
import ConvexCollision.KdTree.Validate
import ConvexCollision.KdTree.Walk
import ConvexCollision.Mesh.Triangle

/-!
# ConvexCollision.Mesh -- static geometry

`MeshData` is a mesh as it is stored: vertices, triangles and the tree over the triangles, in which
nothing guarantees that the numbers fit together. Its queries are therefore checked, and a number
past the end of a table is a fault. `validate` decides whether the numbers fit; a `Mesh` is data on
which it succeeded. The axes of the tree's branches are not among what is validated, so the queries
of a `Mesh` that walk the tree may still meet a branch on an axis that there is not.
-/

namespace ConvexCollision

/-- A mesh as it is stored. -/
structure MeshData (α : Type) where
  /-- The vertex table. -/
  vertices : Array (Vec3 α)
  /-- The triangles, in the order that the tree numbers them. -/
  triangles : Array MeshTriangle
  /-- The tree over the triangles. -/
  tree : KdTree α
deriving DecidableEq

/-- The highest surface below a point. -/
structure GroundHit (α : Type) where
  /-- Height of the surface below the point. -/
  y : α
  /-- Unit normal of the surface. -/
  normal : Vec3 α
  /-- What it is made of. -/
  surface : Surface
deriving DecidableEq

variable {α : Type} [Scalar α]

namespace MeshData

/-! ## Access -/

/-- A vertex by its number. -/
def vertex (m : MeshData α) (i : UInt16) : Except Fault (Vec3 α) :=
  match m.vertices[i.toNat]? with
  | some v => .ok v
  | none => .error .indexOutOfRange

/-- A stored triangle by its number. -/
def stored (m : MeshData α) (i : Nat) : Except Fault MeshTriangle :=
  match m.triangles[i]? with
  | some t => .ok t
  | none => .error .indexOutOfRange

/-- The corners of a stored triangle. -/
def locate (m : MeshData α) (t : MeshTriangle) : Except Fault (Triangle α) := do
  return ⟨← m.vertex (t.index .first), ← m.vertex (t.index .second), ← m.vertex (t.index .third)⟩

/-- A triangle by its number, in space. -/
def triangle (m : MeshData α) (i : Nat) : Except Fault (Triangle α) := do
  m.locate (← m.stored i)

/-- Bounds of the whole mesh. -/
def bounds (m : MeshData α) : Bounds α := m.tree.bounds

/-- Height of the lowest point. -/
def lowestPoint (m : MeshData α) : α := m.bounds.mins.y

/-- Equality of value. -/
def same (a b : MeshData α) : Bool :=
  a.vertices.size == b.vertices.size && (a.vertices.zip b.vertices).all (fun p => p.1.same p.2) &&
    a.triangles == b.triangles && a.tree.same b.tree

/-! ## Validation -/

/-- A triangle names a vertex that is not there: the first such number. -/
def badIndex? (m : MeshData α) (t : MeshTriangle) : Option UInt16 :=
  (Corner.all.map t.index).find? fun i => decide (m.vertices.size ≤ i.toNat)

/-- The numbers in the tables fit together: triangles are checked first, in order, then the tree. -/
def validate (m : MeshData α) : Except CollisionError Unit :=
  if m.triangles.isEmpty then .error .emptyMesh
  else
    match m.triangles.toList.zipIdx.findSome? fun (t, n) => (m.badIndex? t).map (n, ·) with
    | some (n, i) => .error (.invalidVertexIndex n i.toNat m.vertices.size)
    | none => m.tree.validate m.triangles.size

/-! ## Seams -/

/-- Neighbours whose normals have a larger inner product lie in one plane. -/
def coplanar : α := 0.999

/-- An edge of a triangle of a mesh. -/
structure Edge where
  /-- The number of the triangle. -/
  triangle : Nat
  /-- The corner of the triangle that the edge follows. -/
  corner : Corner
deriving DecidableEq

/-- The edges of the triangles in order, each with the numbers of its vertices. -/
def edges (triangles : Array MeshTriangle) : List ((UInt16 × UInt16) × Edge) :=
  triangles.toList.zipIdx.flatMap fun (t, n) => Corner.all.map fun i => (t.edgeKey i, ⟨n, i⟩)

/-- Edges by the numbers of their vertices. -/
abbrev EdgeTable := List ((UInt16 × UInt16) × List Edge)

/-- A table with one more edge. -/
def shareEdge (key : UInt16 × UInt16) (e : Edge) : EdgeTable → EdgeTable
  | [] => [(key, [e])]
  | (key', sharing) :: rest =>
    if key' = key then (key', sharing ++ [e]) :: rest
    else (key', sharing) :: shareEdge key e rest

/-- The table of the edges of the triangles. -/
def edgeTable (triangles : Array MeshTriangle) : EdgeTable :=
  (edges triangles).foldl (fun table (key, e) => shareEdge key e table) []

/-- The edges of the triangles, those between the same two vertices together. -/
def sharedEdges (triangles : Array MeshTriangle) : List (List Edge) := (edgeTable triangles).map (·.2)

/-- The triangles with an edge marked as a seam. -/
def markEdge (triangles : Array MeshTriangle) (e : Edge) : Array MeshTriangle :=
  triangles.modify e.triangle (·.markSeam e.corner)

/-- Two edges between the same vertices are marked if their triangles lie in one plane. -/
def markPair (normals : Array (Vec3 α)) (e : Edge) (triangles : Array MeshTriangle) (f : Edge) :
    Array MeshTriangle :=
  let normal (e : Edge) := normals.getD e.triangle Vec3.zero
  if coplanar < (normal e).dot (normal f) then markEdge (markEdge triangles e) f else triangles

/-- Among edges between the same vertices, each is paired with those after it. -/
def markSharing (normals : Array (Vec3 α)) :
    Array MeshTriangle → List Edge → Array MeshTriangle
  | triangles, [] => triangles
  | triangles, e :: rest => markSharing normals (rest.foldl (markPair normals e) triangles) rest

/-- The triangles with every seam marked, where `arrange` tells in which order the table of edges is
gone through. -/
def markSeamsBy (arrange : List (List Edge) → List (List Edge)) (normals : Array (Vec3 α))
    (triangles : Array MeshTriangle) : Array MeshTriangle :=
  (arrange (sharedEdges triangles)).foldl (markSharing normals) triangles

/-! ## Construction -/

/-- The corners of a stored triangle, where vertices that are missing stand at the origin. -/
def corners (vertices : Array (Vec3 α)) (t : MeshTriangle) : Triangle α :=
  let vertexAt (i : UInt16) := vertices.getD i.toNat Vec3.zero
  ⟨vertexAt (t.index .first), vertexAt (t.index .second), vertexAt (t.index .third)⟩

/-- The mesh on the given vertices and triangles. Triangles are put in the order of the tree, and
seams between neighbours in one plane are marked; `arrange` tells in which order the edges of the mesh
are gone through for that. -/
def buildBy (arrange : List (List Edge) → List (List Edge)) (vertices : Array (Vec3 α))
    (triangles : Array MeshTriangle) : Except CollisionError (MeshData α) := do
  let (tree, order) ← KdTree.build vertices (triangles.toList.map (·.indices))
  let triangles := order.map fun i => triangles.getD i default
  let normals := triangles.map fun t => (corners vertices t).normal
  return { vertices, triangles := markSeamsBy arrange normals triangles, tree }

/-- The mesh on the given vertices and triangles. -/
def build (vertices : Array (Vec3 α)) (triangles : Array MeshTriangle) :
    Except CollisionError (MeshData α) :=
  buildBy id vertices triangles

/-! ## Queries -/

/-- A triangle shares a layer with `layers`, and its box meets `box`. -/
def meets (m : MeshData α) (box : Bounds α) (layers : Layers) (i : Nat) : Except Fault Bool := do
  let t ← m.stored i
  if t.layers.intersects layers then return (← m.locate t).bounds.intersects box
  else return false

/-- The triangles that meet a box on some layers, in the order of the walk, or those before a
fault. -/
def visit (m : MeshData α) (box : Bounds α) (layers : Layers) :
    Except (Halt (Array Nat)) (Array Nat) :=
  m.tree.lookup box (fun found i => do
    return if ← Halt.after found (m.meets box layers i) then found.push i else found) #[]

/-- The triangles that meet a box on some layers, in the order of the walk. -/
def lookup (m : MeshData α) (box : Bounds α) (layers : Layers) : Except Fault (Array Nat) :=
  (m.visit box layers).mapError Halt.fault

/-- A contact normal that leans out across an edge by more than this crosses it. -/
def seamTolerance : α := 0.0001

/-- The normal leans out of the triangle across an edge. -/
def leansAcross (t : Triangle α) (normal : Vec3 α) (i : Corner) : Bool :=
  decide (seamTolerance < (t.outward i).dot normal)

/-- A contact with this normal is kept: it leans out across no seam. The neighbour on the other side
of the seam gives the proper contact instead. -/
def keepsContact (m : MeshData α) (i : Nat) (normal : Vec3 α) : Except Fault Bool := do
  let t ← m.stored i
  let seams := Corner.all.filter t.isSeam
  if seams.isEmpty then return true
  let corners ← m.locate t
  return !seams.any (leansAcross corners normal)

/-- Surfaces whose normal rises less than this do not count as ground. -/
def minRise : α := 0.0001

/-- No two of the numbers, which say on which side of an edge a point lies, have opposite signs. A
zero lies on neither side. -/
def onOneSide : α → List α → Bool
  | _, [] => true
  | side, s :: rest =>
    if Scalar.same s 0 then onOneSide side rest
    else if Scalar.same side 0 then onOneSide s rest
    else if s * side < 0 then false
    else onOneSide side rest

/-- The vector seen from above. -/
def fromAbove (v : Vec3 α) : Vec2 α := ⟨v.x, v.z⟩

/-- Seen from above, the triangle covers the point; edges and corners belong to it. -/
def covers (t : Triangle α) (point : Vec3 α) : Bool :=
  onOneSide 0 <| Corner.all.map fun i =>
    let corner := fromAbove (t.corner i)
    (fromAbove (t.corner i.next) - corner).cross (fromAbove point - corner)

/-- Where the vertical through a point meets a triangle that faces up, if that is below the
point. -/
def groundBelow? (t : Triangle α) (surface : Surface) (point : Vec3 α) : Option (GroundHit α) :=
  let normal := t.normal
  if normal.y ≤ minRise then none
  else if covers t point then
    let y := t.a.y - (normal.x * (point.x - t.a.x) + normal.z * (point.z - t.a.z)) / normal.y
    if point.y ≤ y then none else some ⟨y, normal, surface⟩
  else none

/-- The higher of two hits, the first one on a tie. -/
def higher (best hit : Option (GroundHit α)) : Option (GroundHit α) :=
  match best, hit with
  | some best, some hit => if best.y < hit.y then some hit else some best
  | none, hit => hit
  | best, none => best

/-- The highest upward facing surface strictly below a point. -/
def shadowCast (m : MeshData α) (point : Vec3 α) : Except Fault (Option (GroundHit α)) :=
  (m.tree.shadowCast point (fun best i => Halt.after best do
    let t ← m.stored i
    let corners ← m.locate t
    return higher best (groundBelow? corners t.surface point)) none).mapError Halt.fault

end MeshData

/-- A mesh whose tables fit together. -/
structure Mesh (α : Type) [Scalar α] where
  /-- The mesh as stored. -/
  data : MeshData α
  /-- Validation accepts it. -/
  isValid : data.validate = .ok ()

namespace Mesh

/-- The mesh, if its tables fit together. -/
def ofData (data : MeshData α) : Except CollisionError (Mesh α) :=
  match h : data.validate with
  | .ok () => .ok ⟨data, h⟩
  | .error e => .error e

/-- The mesh on the given vertices and triangles. -/
def build (vertices : Array (Vec3 α)) (triangles : Array MeshTriangle) :
    Except CollisionError (Mesh α) :=
  (MeshData.build vertices triangles).bind ofData

/-- The number of triangles. -/
def triangleCount (m : Mesh α) : Nat := m.data.triangles.size

/-- The triangles that meet a box on some layers, in the order of the walk, or those before a
fault. -/
def visit (m : Mesh α) (box : Bounds α) (layers : Layers) : Except (Halt (Array Nat)) (Array Nat) :=
  m.data.visit box layers

/-- The triangles that meet a box on some layers, in the order of the walk. -/
def lookup (m : Mesh α) (box : Bounds α) (layers : Layers) : Except Fault (Array Nat) :=
  m.data.lookup box layers

/-- A stored triangle by its number. -/
def stored (m : Mesh α) (i : Nat) : MeshTriangle := m.data.triangles.getD i default

/-- A triangle by its number, in space. -/
def triangle (m : Mesh α) (i : Nat) : Triangle α := MeshData.corners m.data.vertices (m.stored i)

/-- A contact with this normal is kept: it leans out across no seam. -/
def keepsContact (m : Mesh α) (i : Nat) (normal : Vec3 α) : Bool :=
  match m.data.keepsContact i normal with
  | .ok keep => keep
  | .error _ => true

/-- The highest upward facing surface strictly below a point. -/
def shadowCast (m : Mesh α) (point : Vec3 α) : Except Fault (Option (GroundHit α)) :=
  m.data.shadowCast point

/-- Height of the lowest point. -/
def lowestPoint (m : Mesh α) : α := m.data.lowestPoint

end Mesh

end ConvexCollision
