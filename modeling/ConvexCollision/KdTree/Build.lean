import ConvexCollision.KdTree

/-!
# ConvexCollision.KdTree.Build -- making a tree over triangles

Triangles are split at the middle of their order along the axis on which their centroids spread
most, until at most four are left, they cannot be told apart, or the depth limit is reached. The
build also returns the order in which the triangles have to be stored, so that leaf ranges number
them directly.
-/

namespace ConvexCollision.KdTree

variable {α : Type} [Scalar α]

/-- What the build knows of a triangle. -/
structure Item (α : Type) where
  /-- Its number in the input. -/
  index : Nat
  /-- Its box. -/
  bounds : Bounds α
  /-- The mean of its corners. -/
  centroid : Vec3 α

/-- The nodes and the triangle order made so far. -/
structure Draft where
  /-- The nodes. -/
  nodes : Array KdNode
  /-- Triangle numbers of the input, in storage order. -/
  order : Array Nat

/-- A number as 16 bits, or the refusal of a mesh with this many triangles. -/
def index16 (value triangleCount : Nat) : Except CollisionError UInt16 :=
  if value < 65536 then .ok (UInt16.ofNat value) else .error (.meshTooLarge triangleCount)

/-- A triangle of the input by its number, with its corners looked up. -/
def item (vertices : Array (Vec3 α)) (index : Nat) (corners : UInt16 × UInt16 × UInt16) :
    Except CollisionError (Item α) := do
  let corner (i : UInt16) : Except CollisionError (Vec3 α) :=
    match vertices[i.toNat]? with
    | some v => .ok v
    | none => .error (.invalidVertexIndex index i.toNat vertices.size)
  let a ← corner corners.1
  let b ← corner corners.2.1
  let c ← corner corners.2.2
  return { index, bounds := Bounds.ofPoints [a, b, c], centroid := (a + b + c) / (3 : α) }

/-- Adds a leaf over the given triangles. -/
def addLeaf (items : List (Item α)) (total : Nat) (p : Draft) :
    Except CollisionError (UInt16 × Draft) := do
  let node ← index16 p.nodes.size total
  let triangleOffset ← index16 p.order.size total
  let triangleCount ← index16 items.length total
  return (node, {
    nodes := p.nodes.push (.leaf triangleOffset triangleCount)
    order := p.order ++ (items.map (·.index)).toArray })

/-- The axis on which a box is widest; the earlier axis wins a tie, and the last one where the
extents cannot be compared. -/
def widestAxis (extent : Vec3 α) : Axis :=
  if extent.y ≤ extent.x ∧ extent.z ≤ extent.x then .x else if extent.z ≤ extent.y then .y else .z

/-- The axis along which triangles are split, unless their centroids do not spread on it. -/
def splitAxis? (items : List (Item α)) : Option Axis :=
  let extent := (Bounds.ofPoints (items.map (·.centroid))).width
  let axis := widestAxis extent
  if extent.coord axis ≤ 0 then none else some axis

/-- The centroid of one triangle comes before that of another on an axis. -/
def Item.isBefore (axis : Axis) (a b : Item α) : Bool :=
  decide (a.centroid.coord axis < b.centroid.coord axis)

/-- Up to this many triangles are sorted by insertion. -/
def insertionLimit : Nat := 20

/-- A descending list with one more item, which passes over those that it comes before. -/
def insertDescending {β : Type} (isBefore : β → β → Bool) (x : β) : List β → List β
  | [] => [x]
  | y :: rest =>
    if isBefore x y then y :: insertDescending isBefore x rest else x :: y :: rest

/-- The list sorted by insertion from its start on. Items of which neither comes before the other are
not passed over, so an item that cannot be compared parts those on its two sides. -/
def insertionSort {β : Type} (isBefore : β → β → Bool) (l : List β) : List β :=
  (l.foldl (fun sorted x => insertDescending isBefore x sorted) []).reverse

/-- The triangles in the order of their centroids on an axis. Triangles that compare equal keep
their order. -/
def sortOn (axis : Axis) (items : List (Item α)) : List (Item α) :=
  if items.length ≤ insertionLimit then insertionSort (Item.isBefore axis) items
  else items.mergeSort fun a b => !Item.isBefore axis b a

/-- Adds a subtree over the given triangles, with at most `levels` branches on a path. Triangles are
put in the order of their centroids on an axis by `sort`. -/
def addNode (sort : Axis → List (Item α) → List (Item α)) (grid : Grid α) (total : Nat) :
    (levels : Nat) → List (Item α) → Draft → Except CollisionError (UInt16 × Draft)
  | 0, items, p => addLeaf items total p
  | levels + 1, items, p =>
    if items.length ≤ leafSize then addLeaf items total p
    else
      match splitAxis? items with
      | none => addLeaf items total p
      | some axis => do
        let (aSide, bSide) := (sort axis items).splitAt (items.length / 2)
        let aMax := aSide.foldl (fun m t => Scalar.maxNum m (t.bounds.maxs.coord axis))
          (-Scalar.maxFinite)
        let bMin := bSide.foldl (fun m t => Scalar.minNum m (t.bounds.mins.coord axis))
          Scalar.maxFinite
        let node ← index16 p.nodes.size total
        -- the place of the branch is taken before its children are added
        let p := { p with nodes := p.nodes.push (.leaf 0 0) }
        let (aChild, p) ← addNode sort grid total levels aSide p
        let (bChild, p) ← addNode sort grid total levels bSide p
        let branch := KdNode.branch (UInt8.ofNat axis.number) (grid.cellCeil axis aMax)
          (grid.cellFloor axis bMin) aChild bChild
        return (node, { p with nodes := p.nodes.setIfInBounds node.toNat branch })

/-- The tree over the triangles of a mesh, and the order in which they have to be stored, with `sort` to
put triangles in the order of their centroids on an axis. -/
def buildBy (sort : Axis → List (Item α) → List (Item α)) (vertices : Array (Vec3 α))
    (triangles : List (UInt16 × UInt16 × UInt16)) :
    Except CollisionError (KdTree α × Array Nat) := do
  if triangles.isEmpty then
    throw .emptyMesh
  let items ← triangles.zipIdx.mapM fun (corners, index) => item vertices index corners
  let grid := Grid.ofBounds (items.foldl (fun b t => b.union t.bounds) Bounds.empty)
  let (_, p) ← addNode sort grid triangles.length (maxDepth - 1) items ⟨#[], #[]⟩
  return ({ grid, nodes := p.nodes }, p.order)

/-- The tree over the triangles of a mesh, and the order in which they have to be stored. -/
def build (vertices : Array (Vec3 α)) (triangles : List (UInt16 × UInt16 × UInt16)) :
    Except CollisionError (KdTree α × Array Nat) :=
  buildBy sortOn vertices triangles

end ConvexCollision.KdTree
