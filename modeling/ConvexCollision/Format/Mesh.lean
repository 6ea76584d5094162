import ConvexCollision.Format.Entity
import ConvexCollision.Format.Vector
import ConvexCollision.Mesh

/-!
# ConvexCollision.Format.Mesh -- documents of meshes

Reading a document gives the tables as they are written; that they fit together is for validation
to see (`Mesh.ofJson`).
-/

namespace ConvexCollision

variable {α : Type} [Scalar α]

/-- The document of a word of 16 bits. -/
def wordJson (n : UInt16) : Json α := .ofNat n.toNat

namespace KdNode

/-- The document of a node. -/
def toJson : KdNode → Json α
  | leaf offset count =>
    .ofTagged "leaf" [("triangle_offset", wordJson offset), ("triangle_count", wordJson count)]
  | branch axis aMax bMin aChild bChild =>
    .ofTagged "branch"
      [("axis", .ofNat axis.toNat), ("a_max", wordJson aMax), ("b_min", wordJson bMin),
       ("a_child", wordJson aChild), ("b_child", wordJson bChild)]

/-- A node from its document. -/
def ofJson? (j : Json α) : Option KdNode := do
  let (tag, j) ← j.tagged?
  match tag with
  | "leaf" =>
    let r ← Record.ofJson? ["triangle_offset", "triangle_count"] j
    return leaf (← r.field "triangle_offset" Json.uint16?) (← r.field "triangle_count" Json.uint16?)
  | "branch" =>
    let r ← Record.ofJson? ["axis", "a_max", "b_min", "a_child", "b_child"] j
    return branch (← r.field "axis" Json.uint8?)
      (← r.field "a_max" Json.uint16?) (← r.field "b_min" Json.uint16?)
      (← r.field "a_child" Json.uint16?) (← r.field "b_child" Json.uint16?)
  | _ => none

end KdNode

namespace KdTree

/-- The document of a tree. -/
def toJson (t : KdTree α) : Json α :=
  .obj [("bounds", t.grid.bounds.toJson), ("size_inv", t.grid.sizeInv.toJson),
    ("nodes", .ofList KdNode.toJson t.nodes.toList)]

/-- A tree from its document. -/
def ofJson? (j : Json α) : Option (KdTree α) := do
  let r ← Record.ofJson? ["bounds", "size_inv", "nodes"] j
  return {
    grid := ⟨← r.field "bounds" Bounds.ofJson?, ← r.field "size_inv" Vec3.ofJson?⟩
    nodes := (← r.field "nodes" (Json.listOf? KdNode.ofJson?)).toArray }

end KdTree

namespace MeshTriangle

/-- The document of a triangle. -/
def toJson (t : MeshTriangle) : Json α :=
  .obj [("indices", .ofList wordJson (Corner.all.map t.index)),
    ("surface_type", t.surface.toJson), ("collision_layers", t.layers.toJson),
    ("filtered_edges", .ofNat t.filteredEdges.toNat)]

/-- The numbers of three corners from their document. -/
def indicesOf? : Json α → Option (UInt16 × UInt16 × UInt16)
  | .arr [a, b, c] => do return (← a.uint16?, ← b.uint16?, ← c.uint16?)
  | _ => none

/-- A triangle from its document. -/
def ofJson? (j : Json α) : Option MeshTriangle := do
  let r ← Record.ofJson? ["indices", "surface_type", "collision_layers", "filtered_edges"] j
  return {
    indices := ← r.field "indices" indicesOf?
    surface := ← r.fieldD "surface_type" Surface.ofJson? .default
    layers := ← r.fieldD "collision_layers" Layers.ofJson? Layers.all
    filteredEdges := ← r.fieldD "filtered_edges" Json.uint8? 0 }

end MeshTriangle

namespace MeshData

/-- The document of a mesh. -/
def toJson (m : MeshData α) : Json α :=
  .obj [("vertices", .ofList Vec3.toJson m.vertices.toList),
    ("triangles", .ofList MeshTriangle.toJson m.triangles.toList), ("kd_tree", m.tree.toJson)]

/-- A mesh from its document, whatever its numbers. -/
def ofJson? (j : Json α) : Option (MeshData α) := do
  let r ← Record.ofJson? ["vertices", "triangles", "kd_tree"] j
  return {
    vertices := (← r.field "vertices" (Json.listOf? Vec3.ofJson?)).toArray
    triangles := (← r.field "triangles" (Json.listOf? MeshTriangle.ofJson?)).toArray
    tree := ← r.field "kd_tree" KdTree.ofJson? }

end MeshData

namespace Mesh

/-- A mesh from its document, if its tables fit together. -/
def ofJson (j : Json α) : Except CollisionError (Mesh α) :=
  match MeshData.ofJson? j with
  | some data => ofData data
  | none => .error .malformed

end Mesh

end ConvexCollision
