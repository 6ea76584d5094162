import ConvexCollision.KdTree

/-!
# ConvexCollision.KdTree.Validate -- is a tree safe to walk?

A depth-first check from the root, the second child of a branch before the first. A leaf must stay
within the triangles, a branch must have both children further along in the node table, and no path
may be longer than a walk can hold. Children come after their parent, so no path returns to a node
and the check comes to an end.
-/

namespace ConvexCollision.KdTree

/-- What a node demands: the nodes to check next, first on top, or the reason to refuse. `depth` is
the number of nodes above it. -/
def checkNode (nodes : Array KdNode) (triangleCount : Nat) (node depth : Nat) :
    Except CollisionError (List (Nat × Nat)) :=
  if maxDepth < depth + 1 then .error (.treeTooDeep (depth + 1) maxDepth)
  else
    match nodes[node]? with
    | none => .error (.nodeOutOfRange node node nodes.size)
    | some (.leaf triangleOffset count) =>
      let start := triangleOffset.toNat
      let stop := start + count.toNat
      if triangleCount < stop then .error (.triangleOutOfRange node start stop triangleCount)
      else .ok []
    | some (.branch _ _ _ aChild bChild) =>
      if maxDepth < depth + 2 then .error (.treeTooDeep (depth + 2) maxDepth)
      else
        let a := aChild.toNat
        let b := bChild.toNat
        if a ≤ node ∨ nodes.size ≤ a then .error (.nodeOutOfRange node a nodes.size)
        else if b ≤ node ∨ nodes.size ≤ b then .error (.nodeOutOfRange node b nodes.size)
        else .ok [(b, depth + 1), (a, depth + 1)]

/-- The weight of a waiting node: more than that of the two children that may take its place. -/
def waitingWeight (e : Nat × Nat) : Nat := Nat.pow 3 (maxDepth - e.2)

/-- The weight of all waiting nodes. -/
def totalWeight : List (Nat × Nat) → Nat
  | [] => 0
  | e :: waiting => waitingWeight e + totalWeight waiting

/-- Two lists of waiting nodes weigh as much as both together. -/
theorem totalWeight_append (l₁ l₂ : List (Nat × Nat)) :
    totalWeight (l₁ ++ l₂) = totalWeight l₁ + totalWeight l₂ := by
  induction l₁ with
  | nil => simp [totalWeight]
  | cons e l₁ ih => simp only [List.cons_append, totalWeight, ih, Nat.add_assoc]

/-- A node weighs more than what it makes wait, whatever that is. -/
theorem totalWeight_lt_waitingWeight {nodes : Array KdNode} {triangleCount node depth : Nat}
    {next : List (Nat × Nat)} (h : checkNode nodes triangleCount node depth = .ok next) :
    totalWeight next < waitingWeight (node, depth) := by
  have pos : 0 < waitingWeight (node, depth) := Nat.pow_pos (by decide)
  unfold checkNode at h
  split at h
  · cases h
  split at h
  · cases h
  · simp only at h
    split at h
    · cases h
    · cases h; exact pos
  · split at h
    · cases h
    rename_i hdepth
    simp only at h
    split at h
    · cases h
    split at h
    · cases h
    cases h
    have he : maxDepth - depth = (maxDepth - (depth + 1)) + 1 := by omega
    have step : Nat.pow 3 (maxDepth - (depth + 1) + 1) = Nat.pow 3 (maxDepth - (depth + 1)) * 3 := rfl
    have : 0 < Nat.pow 3 (maxDepth - (depth + 1)) := Nat.pow_pos (by decide)
    simp only [totalWeight, waitingWeight, he, step]
    omega

/-- Checks the waiting nodes, each with the number of nodes above it, first one first. -/
def checkAll (nodes : Array KdNode) (triangleCount : Nat) : List (Nat × Nat) →
    Except CollisionError Unit
  | [] => .ok ()
  | (node, depth) :: waiting =>
    match _h : checkNode nodes triangleCount node depth with
    | .error e => .error e
    | .ok next => checkAll nodes triangleCount (next ++ waiting)
termination_by waiting => totalWeight waiting
decreasing_by
  have := totalWeight_lt_waitingWeight ‹checkNode nodes triangleCount node depth = .ok next›
  simp only [totalWeight_append, totalWeight]
  omega

/-- A tree over this many triangles is safe to walk. -/
def validate {α : Type} (t : KdTree α) (triangleCount : Nat) : Except CollisionError Unit :=
  if t.nodes.isEmpty then .error .emptyMesh else checkAll t.nodes triangleCount [(0, 0)]

end ConvexCollision.KdTree
