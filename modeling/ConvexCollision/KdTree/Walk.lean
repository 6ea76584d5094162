import ConvexCollision.KdTree

/-!
# ConvexCollision.KdTree.Walk -- visiting the triangles that a query may reach

A walk keeps the nodes still to visit on a stack of bounded height, the first side of a branch above
the second. A side is entered when the query's predicate accepts it, and is passed over when the
stack is full. `walk` folds over the triangle numbers in the order in which the leaves are met;
`lookup` and `shadowCast` are the two queries. A fault ends the walk with what was folded until then.

A tree that was never validated may send a walk round in circles. A walk that has visited more nodes
than any tree within the depth limit could make it visit, and vastly more besides, is given up as
endless.
-/

namespace ConvexCollision.KdTree

variable {α : Type} [Scalar α]

/-- The number of nodes after which a walk counts as endless. A tree within the depth limit makes a
walk visit fewer than `2¹⁶`. -/
def walkLimit : Nat := 1099511627776

/-- A stack of at most `maxDepth` nodes with one more on top, unless it is full. -/
def pushNode (stack : List Nat) (child : UInt16) : List Nat :=
  if stack.length < maxDepth then child.toNat :: stack else stack

/-- The walk over the nodes on a stack, folding `emit` over the triangle numbers of the leaves. A
first side that ends at cell `aMax` of an axis is entered when `enterA` accepts that, a second side
that starts at cell `bMin` when `enterB` does. -/
def walkFrom {σ : Type} (nodes : Array KdNode) (enterA enterB : Axis → UInt16 → Bool)
    (emit : σ → Nat → Except (Halt σ) σ) : Nat → List Nat → σ → Except (Halt σ) σ
  | _, [], s => .ok s
  | 0, _ :: _, s => .error ⟨.endlessWalk, s⟩
  | steps + 1, node :: stack, s =>
    match nodes[node]? with
    | none => .error ⟨.indexOutOfRange, s⟩
    | some (.leaf triangleOffset triangleCount) => do
      let s ← (List.range' triangleOffset.toNat triangleCount.toNat).foldlM emit s
      walkFrom nodes enterA enterB emit steps stack s
    | some (.branch axis aMax bMin aChild bChild) =>
      match Axis.ofNumber? axis.toNat with
      | none => .error ⟨.axisOutOfRange, s⟩
      | some axis =>
        let stack := if enterB axis bMin then pushNode stack bChild else stack
        let stack := if enterA axis aMax then pushNode stack aChild else stack
        walkFrom nodes enterA enterB emit steps stack s

/-- The walk from the root. A tree without nodes has no triangles. -/
def walk {σ : Type} (t : KdTree α) (enterA enterB : Axis → UInt16 → Bool)
    (emit : σ → Nat → Except (Halt σ) σ) (s : σ) : Except (Halt σ) σ :=
  if t.nodes.isEmpty then .ok s else walkFrom t.nodes enterA enterB emit walkLimit [0] s

/-- Folds over the triangles in the leaves that may reach into a box. A triangle outside the box may
be among them; one that meets it is not left out. -/
def lookup {σ : Type} (t : KdTree α) (box : Bounds α) (emit : σ → Nat → Except (Halt σ) σ) (s : σ) :
    Except (Halt σ) σ :=
  if t.bounds.intersects box then
    t.walk (fun axis aMax => t.grid.cellFloor axis (box.mins.coord axis) ≤ aMax)
      (fun axis bMin => bMin ≤ t.grid.cellCeil axis (box.maxs.coord axis)) emit s
  else .ok s

/-- The point is beside the bounds of the tree, or below them. -/
def isOutside (t : KdTree α) (point : Vec3 α) : Bool :=
  decide (point.x < t.bounds.mins.x) || decide (t.bounds.maxs.x < point.x) ||
  decide (point.z < t.bounds.mins.z) || decide (t.bounds.maxs.z < point.z) ||
  decide (point.y < t.bounds.mins.y)

/-- Folds over the triangles that may lie straight below a point. On the vertical axis the lower
side is always entered and the upper one only when it starts below the point. -/
def shadowCast {σ : Type} (t : KdTree α) (point : Vec3 α) (emit : σ → Nat → Except (Halt σ) σ)
    (s : σ) : Except (Halt σ) σ :=
  if t.isOutside point then .ok s
  else
    t.walk (fun axis aMax => axis == .y || t.grid.cellFloor axis (point.coord axis) ≤ aMax)
      (fun axis bMin => bMin ≤ t.grid.cellCeil axis (point.coord axis)) emit s

end ConvexCollision.KdTree
