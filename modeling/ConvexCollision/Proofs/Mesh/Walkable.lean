import ConvexCollision.Proofs.Mesh.Lookup

/-!
# ConvexCollision.Proofs.Mesh.Walkable -- meshes whose trees can be walked

A mesh is walkable when no look-up in it and no cast on it meets a fault. A mesh that was built is
walkable (`walkable_of_build`), since its tree splits the axes of space only.
-/

namespace ConvexCollision.Mesh

variable {α : Type} [Scalar α]

/-- Look-ups and casts come to their end. -/
structure Walkable (m : Mesh α) : Prop where
  /-- A look-up does. -/
  visit : ∀ box layers, ∃ found, m.visit box layers = .ok found
  /-- A cast does. -/
  shadowCast : ∀ point, ∃ hit, m.shadowCast point = .ok hit

/-- A mesh that was built is the data that was built. -/
theorem build_data {vertices : Array (Vec3 α)} {triangles : Array MeshTriangle} {m : Mesh α}
    (h : build vertices triangles = .ok m) : MeshData.build vertices triangles = .ok m.data := by
  unfold build at h
  obtain ⟨data, hdata, h⟩ := bind_eq_ok_iff.mp h
  unfold ofData at h
  split at h
  · cases h
    exact hdata
  · cases h

theorem getElem?_eq_stored {m : Mesh α} {i : Nat} (hi : i < m.triangleCount) :
    m.data.triangles[i]? = some (m.stored i) := by
  unfold stored
  rw [Array.getD_eq_getD_getElem?, Array.getElem?_eq_getElem hi]
  rfl

/-- What a look-up gives is what its walk has found at its end. -/
theorem visit_eq_ok_iff {m : Mesh α} {box : Bounds α} {layers : Layers} {found : Array Nat} :
    m.visit box layers = .ok found ↔ m.lookup box layers = .ok found := by
  show m.data.visit box layers = .ok found ↔ (m.data.visit box layers).mapError Halt.fault = .ok found
  cases m.data.visit box layers <;> simp [Except.mapError]

theorem Walkable.lookup {m : Mesh α} (h : m.Walkable) (box : Bounds α) (layers : Layers) :
    ∃ found, m.lookup box layers = .ok found := by
  obtain ⟨found, hfound⟩ := h.visit box layers
  exact ⟨found, visit_eq_ok_iff.mp hfound⟩

/-- A mesh that was built can be walked. -/
theorem walkable_of_build {vertices : Array (Vec3 α)} {triangles : Array MeshTriangle} {m : Mesh α}
    (h : build vertices triangles = .ok m) : m.Walkable := by
  obtain ⟨-, items, order, hbuilt⟩ := MeshData.builtOf_of_build (build_data h)
  constructor
  · intro box layers
    have hlookup := hbuilt.inRange.lookup_eq box layers
    rw [(hbuilt.lookupTrace box).1] at hlookup
    split at hlookup
    · exact ⟨_, visit_eq_ok_iff.mpr hlookup⟩
    · exact ⟨_, visit_eq_ok_iff.mpr hlookup⟩
  · intro point
    have hcast := hbuilt.inRange.shadowCast_eq point
    rw [hbuilt.castTrace_stop point] at hcast
    split at hcast
    · exact ⟨_, hcast⟩
    · exact ⟨_, hcast⟩

/-- What a look-up finds in a mesh that was built are triangles of the mesh. -/
theorem lt_of_mem_visit {vertices : Array (Vec3 α)} {triangles : Array MeshTriangle} {m : Mesh α}
    (h : build vertices triangles = .ok m) {box : Bounds α} {layers : Layers} {found : Array Nat}
    (hvisit : m.visit box layers = .ok found) {i : Nat} (hi : i ∈ found) : i < m.triangleCount := by
  obtain ⟨-, items, order, hbuilt⟩ := MeshData.builtOf_of_build (build_data h)
  have hlookup : m.data.lookup box layers = .ok found := visit_eq_ok_iff.mp hvisit
  rw [hbuilt.inRange.lookup_eq, (hbuilt.lookupTrace box).1] at hlookup
  split at hlookup
  · rw [← Except.ok.inj hlookup, List.mem_toArray, List.mem_filter] at hi
    obtain ⟨t, ht, -⟩ := MeshData.exists_of_isMet hi.2
    exact (Array.getElem?_eq_some_iff.mp ht).1
  · rw [← Except.ok.inj hlookup] at hi
    exact absurd hi (Array.not_mem_empty i)

/-! ## A mesh of one triangle -/

/-- The table of a single triangle, over the first three vertices. -/
def singleTriangle : Array MeshTriangle := #[{ indices := (0, 1, 2) }]

/-- The data of a mesh of one triangle. -/
theorem exists_build_data (t : Triangle α) : ∃ data,
    MeshData.build #[t.a, t.b, t.c] singleTriangle = .ok data ∧
      data.vertices = #[t.a, t.b, t.c] ∧ data.triangles = singleTriangle ∧
      data.tree.nodes = #[.leaf 0 1] := by
  obtain ⟨tree, htree, hnodes⟩ : ∃ tree,
      KdTree.build #[t.a, t.b, t.c] (singleTriangle.toList.map (·.indices)) = .ok (tree, #[0]) ∧
        tree.nodes = #[.leaf 0 1] := ⟨_, rfl, rfl⟩
  unfold MeshData.build MeshData.buildBy
  rw [htree]
  refine ⟨_, rfl, rfl, ?_, hnodes⟩
  have hstored : (#[0].map fun i => singleTriangle.getD i default) = singleTriangle := by
    simp [singleTriangle]
  -- no two of its edges join the same vertices
  have hshared : MeshData.sharedEdges singleTriangle = [[⟨0, .first⟩], [⟨0, .second⟩], [⟨0, .third⟩]] := by
    decide
  show MeshData.markSeamsBy id _ (#[0].map fun i => singleTriangle.getD i default) = singleTriangle
  rw [hstored, MeshData.markSeamsBy, hshared]
  rfl

/-- A mesh of one triangle can be built. -/
theorem exists_build_single (t : Triangle α) : ∃ m : Mesh α,
    build #[t.a, t.b, t.c] singleTriangle = .ok m ∧
      m.triangleCount = 1 ∧ m.triangle 0 = t ∧ m.stored 0 = { indices := (0, 1, 2) } := by
  obtain ⟨data, hdata, hvertices, htriangles, hnodes⟩ := exists_build_data t
  have hchecked : KdTree.checkAll #[.leaf 0 1] 1 [(0, 0)] = .ok () := by
    simp [KdTree.checkAll, KdTree.checkNode, KdTree.maxDepth]
  have hvalid : data.validate = .ok () := by
    unfold MeshData.validate KdTree.validate
    simp only [htriangles, hvertices, hnodes, MeshData.badIndex?]
    exact hchecked
  have hstored : (⟨data, hvalid⟩ : Mesh α).stored 0 = { indices := (0, 1, 2) } := by
    unfold stored
    rw [htriangles]
    rfl
  refine ⟨⟨data, hvalid⟩, ?_, ?_, ?_, hstored⟩
  · unfold build
    rw [hdata]
    show ofData data = _
    unfold ofData
    split
    · rfl
    · next e he =>
      rw [hvalid] at he
      cases he
  · show data.triangles.size = 1
    rw [htriangles]
    rfl
  · unfold triangle
    rw [hstored, hvertices]
    rfl

end ConvexCollision.Mesh
