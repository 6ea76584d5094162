import ConvexCollision.Proofs.Mesh.InRange

/-!
# ConvexCollision.Proofs.Mesh.Validated -- what a mesh that passes the check can be asked

Nothing that a query looks up in a validated mesh is missing, with one exception that the check does
not cover: the number of the axis that a branch of the tree splits. A look-up or a cast comes to its
end exactly when its walk comes to no branch on an axis that there is not.
-/

namespace ConvexCollision.MeshData

variable {α : Type} [Scalar α]

/-- The walk of a look-up in a box comes to a branch on an axis that there is not. -/
def LookupBlocked (m : MeshData α) (box : Bounds α) : Prop :=
  m.bounds.intersects box = true ∧
    ∃ node, KdTree.Visits m.tree.nodes
      (fun axis aMax => m.tree.grid.cellFloor axis (box.mins.coord axis) ≤ aMax)
      (fun axis bMin => bMin ≤ m.tree.grid.cellCeil axis (box.maxs.coord axis)) 0 node ∧
      KdTree.MissesAxis m.tree.nodes node

/-- The walk of a cast from a point comes to a branch on an axis that there is not. -/
def CastBlocked (m : MeshData α) (point : Vec3 α) : Prop :=
  m.tree.isOutside point = false ∧
    ∃ node, KdTree.Visits m.tree.nodes
      (fun axis aMax => axis == .y || m.tree.grid.cellFloor axis (point.coord axis) ≤ aMax)
      (fun axis bMin => bMin ≤ m.tree.grid.cellCeil axis (point.coord axis)) 0 node ∧
      KdTree.MissesAxis m.tree.nodes node

variable {m : MeshData α}

/-- A look-up in a mesh whose numbers fit together meets a fault exactly when its walk is blocked, and
it is that fault. -/
theorem InRange.lookup_isOk_iff (h : m.InRange) (box : Bounds α) (layers : Layers) :
    ((∃ found, m.lookup box layers = .ok found) ↔ ¬ m.LookupBlocked box) ∧
      (m.LookupBlocked box → m.lookup box layers = .error .axisOutOfRange) := by
  have hblocked : m.LookupBlocked box ↔ m.bounds.intersects box = true ∧
      (m.lookupTrace box).stop = some .axisOutOfRange :=
    and_congr_right fun _ => (KdTree.trace_stop_eq_some_iff h.tree).symm
  rw [hblocked, h.lookup_eq]
  by_cases hbox : m.bounds.intersects box = true
  · rw [if_pos hbox]
    cases hstop : (m.lookupTrace box).stop with
    | none => simp
    | some f =>
      rw [KdTree.trace_stop h.tree f hstop]
      simp [hbox]
  · rw [if_neg hbox]
    simp [hbox]

/-- The same of a cast. -/
theorem InRange.shadowCast_isOk_iff (h : m.InRange) (point : Vec3 α) :
    ((∃ hit, m.shadowCast point = .ok hit) ↔ ¬ m.CastBlocked point) ∧
      (m.CastBlocked point → m.shadowCast point = .error .axisOutOfRange) := by
  have hblocked : m.CastBlocked point ↔ m.tree.isOutside point = false ∧
      (m.castTrace point).stop = some .axisOutOfRange :=
    and_congr_right fun _ => (KdTree.trace_stop_eq_some_iff h.tree).symm
  rw [hblocked, h.shadowCast_eq]
  cases hout : m.tree.isOutside point with
  | true =>
    rw [if_pos rfl]
    simp
  | false =>
    rw [if_neg Bool.false_ne_true]
    cases hstop : (m.castTrace point).stop with
    | none => simp
    | some f =>
      rw [KdTree.trace_stop h.tree f hstop]
      simp

/-- **What a validated mesh can be asked.** Every triangle that there is can be had with its corners,
and every contact with it can be judged. A look-up or a cast comes to its end exactly when its walk
comes to no branch on an axis that there is not, and meets that fault otherwise. -/
theorem validated_queries_isOk_iff (h : m.validate = .ok ()) :
    (∀ box layers, ((∃ found, m.lookup box layers = .ok found) ↔ ¬ m.LookupBlocked box) ∧
      (m.LookupBlocked box → m.lookup box layers = .error .axisOutOfRange)) ∧
    (∀ point, ((∃ hit, m.shadowCast point = .ok hit) ↔ ¬ m.CastBlocked point) ∧
      (m.CastBlocked point → m.shadowCast point = .error .axisOutOfRange)) ∧
    ∀ i < m.triangles.size, (∃ t, m.triangle i = .ok t) ∧
      ∀ normal, ∃ keep, m.keepsContact i normal = .ok keep := by
  have hrange := inRange_of_validate h
  refine ⟨hrange.lookup_isOk_iff, hrange.shadowCast_isOk_iff, ?_⟩
  intro i hi
  exact ⟨⟨_, hrange.triangle_eq_ok hi⟩, hrange.keepsContact_isOk hi⟩

/-! ## A branch on a fourth axis -/

/-- A floor of one triangle. Its tree splits an axis that there is not, with the triangle on the first
side and nothing on the second one. -/
def fourthAxisMesh : MeshData Float32 where
  vertices := #[⟨0, 0, 0⟩, ⟨0, 0, 1⟩, ⟨1, 0, 0⟩]
  triangles := #[{ indices := (0, 1, 2) }]
  tree := {
    grid := { bounds := ⟨⟨0, 0, 0⟩, ⟨1, 0, 1⟩⟩, sizeInv := ⟨65535, 0, 65535⟩ }
    nodes := #[.branch 3 65535 0 1 2, .leaf 0 1, .leaf 0 0] }

theorem fourthAxisMesh_validate : fourthAxisMesh.validate = .ok () := by
  show KdTree.checkAll fourthAxisMesh.tree.nodes 1 [(0, 0)] = .ok ()
  simp [KdTree.checkAll, KdTree.checkNode, fourthAxisMesh, KdTree.maxDepth]

/-- A look-up in its own box is blocked, one on the far side of the origin is not. -/
theorem fourthAxisMesh_queries :
    fourthAxisMesh.lookup fourthAxisMesh.bounds Layers.all = .error .axisOutOfRange ∧
      ∃ found, fourthAxisMesh.lookup ⟨⟨-2, -2, -2⟩, ⟨-1, -1, -1⟩⟩ Layers.all = .ok found := by
  obtain ⟨hlookup, -, -⟩ := validated_queries_isOk_iff fourthAxisMesh_validate
  constructor
  -- the walk starts at the branch
  · exact (hlookup _ _).2 ⟨by decide, 0, .root, 3, 65535, 0, 1, 2, rfl, rfl⟩
  · refine (hlookup _ _).1.mpr fun hblocked => ?_
    exact absurd hblocked.1 (by decide)

/-- The mesh passes the check, and a look-up in its own box meets a fault. -/
theorem fourthAxisMesh_lookup : fourthAxisMesh.validate = .ok () ∧
    fourthAxisMesh.lookup fourthAxisMesh.bounds Layers.all = .error .axisOutOfRange :=
  ⟨fourthAxisMesh_validate, rfl⟩

end ConvexCollision.MeshData
