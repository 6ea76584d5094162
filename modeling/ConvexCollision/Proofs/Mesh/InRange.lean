import ConvexCollision.Mesh
import ConvexCollision.Proofs.KdTree.Validate

/-!
# ConvexCollision.Proofs.Mesh.InRange -- queries of a mesh whose numbers fit together

`MeshData.InRange` says that every number in the tables of a mesh refers to something: a triangle's
corners to vertices, the tree's children to nodes and its leaves to triangles. The queries of such a
mesh look nothing up in vain. What is left of them is a filter over what the walk meets
(`lookup_eq`), or a fold over it (`shadowCast_eq`), unless a missing axis ends the walk.
-/

namespace ConvexCollision.MeshData

variable {α : Type} [Scalar α]

/-- Every number in the tables of the mesh refers to something. -/
structure InRange (m : MeshData α) : Prop where
  /-- The corners of triangles are vertices. -/
  corners : ∀ t ∈ m.triangles, ∀ c, (t.index c).toNat < m.vertices.size
  /-- The tree can be walked, and its leaves cover triangles. -/
  tree : KdTree.Sound m.tree.nodes m.triangles.size (KdTree.maxDepth - 1) 0

/-! ## §A Validation -/

omit [Scalar α] in
theorem index_lt_of_badIndex? {m : MeshData α} {t : MeshTriangle} (h : m.badIndex? t = none)
    (c : Corner) : (t.index c).toNat < m.vertices.size := by
  unfold badIndex? at h
  rw [List.find?_eq_none] at h
  have hc := h (t.index c) (List.mem_map_of_mem (by cases c <;> decide))
  rw [decide_eq_true_eq] at hc
  omega

omit [Scalar α] in
/-- The numbers of a mesh that passes the check fit together. -/
theorem inRange_of_validate {m : MeshData α} (h : m.validate = .ok ()) : m.InRange := by
  unfold validate at h
  by_cases hempty : m.triangles.isEmpty = true
  · rw [if_pos hempty] at h
    cases h
  rw [if_neg hempty] at h
  split at h
  · cases h
  rename_i hnone
  refine ⟨?_, KdTree.sound_of_validate h⟩
  intro t ht c
  obtain ⟨i, hi, rfl⟩ := Array.mem_iff_getElem.mp ht
  -- the check has looked at every triangle, at its own place
  rw [List.findSome?_eq_none_iff] at hnone
  have hmem : (m.triangles[i], i) ∈ m.triangles.toList.zipIdx := by
    rw [List.mem_zipIdx_iff_getElem?, Array.getElem?_toList]
    exact Array.getElem?_eq_getElem hi
  have hbad := hnone _ hmem
  rw [Option.map_eq_none_iff] at hbad
  exact index_lt_of_badIndex? hbad c

/-! ## §B Looking things up -/

section Access

variable {m : MeshData α}

omit [Scalar α] in
theorem stored_eq_ok {i : Nat} (hi : i < m.triangles.size) : m.stored i = .ok m.triangles[i] := by
  unfold stored
  rw [Array.getElem?_eq_getElem hi]

theorem vertex_eq_ok {i : UInt16} (hi : i.toNat < m.vertices.size) :
    m.vertex i = .ok (m.vertices.getD i.toNat Vec3.zero) := by
  unfold vertex
  rw [Array.getD_eq_getD_getElem?, Array.getElem?_eq_getElem hi]
  rfl

theorem InRange.locate_eq_ok (h : m.InRange) {t : MeshTriangle} (ht : t ∈ m.triangles) :
    m.locate t = .ok (MeshData.corners m.vertices t) := by
  unfold locate
  rw [vertex_eq_ok (h.corners t ht .first), vertex_eq_ok (h.corners t ht .second),
    vertex_eq_ok (h.corners t ht .third)]
  rfl

theorem InRange.triangle_eq_ok (h : m.InRange) {i : Nat} (hi : i < m.triangles.size) :
    m.triangle i = .ok (MeshData.corners m.vertices m.triangles[i]) := by
  unfold triangle
  rw [stored_eq_ok hi]
  exact h.locate_eq_ok (Array.getElem_mem hi)

/-- Whether a contact is kept is always decided. -/
theorem InRange.keepsContact_isOk (h : m.InRange) {i : Nat} (hi : i < m.triangles.size)
    (normal : Vec3 α) : ∃ keep, m.keepsContact i normal = .ok keep := by
  unfold keepsContact
  rw [stored_eq_ok hi]
  simp only [bind, Except.bind]
  by_cases hseams : (Corner.all.filter m.triangles[i].isSeam).isEmpty = true
  · rw [if_pos hseams]
    exact ⟨true, rfl⟩
  · rw [if_neg hseams, h.locate_eq_ok (Array.getElem_mem hi)]
    exact ⟨_, rfl⟩

/-- A triangle shares a layer with `layers`, and its box meets `box`. -/
def isMet (m : MeshData α) (box : Bounds α) (layers : Layers) (i : Nat) : Bool :=
  match m.triangles[i]? with
  | some t => t.layers.intersects layers && (MeshData.corners m.vertices t).bounds.intersects box
  | none => false

theorem exists_of_isMet {box : Bounds α} {layers : Layers} {i : Nat}
    (h : m.isMet box layers i = true) : ∃ t, m.triangles[i]? = some t ∧
      t.layers.intersects layers = true ∧
      (MeshData.corners m.vertices t).bounds.intersects box = true := by
  unfold isMet at h
  split at h
  · next t ht =>
    rw [Bool.and_eq_true] at h
    exact ⟨t, ht, h⟩
  · exact absurd h Bool.false_ne_true

/-- What it is for a query to meet a triangle, in terms of what can be asked of the mesh. -/
theorem InRange.isMet_iff (h : m.InRange) (box : Bounds α) (layers : Layers) (i : Nat) :
    m.isMet box layers i = true ↔ i < m.triangles.size ∧ ∃ t tri, m.stored i = .ok t ∧
      m.triangle i = .ok tri ∧ t.layers.intersects layers = true ∧
      tri.bounds.intersects box = true := by
  unfold isMet
  by_cases hi : i < m.triangles.size
  · rw [Array.getElem?_eq_getElem hi, stored_eq_ok hi, h.triangle_eq_ok hi]
    simp [hi]
  · rw [Array.getElem?_eq_none (Nat.le_of_not_lt hi)]
    simp [hi]

theorem InRange.meets_eq_ok (h : m.InRange) {i : Nat} (hi : i < m.triangles.size)
    (box : Bounds α) (layers : Layers) : m.meets box layers i = .ok (m.isMet box layers i) := by
  unfold meets isMet
  rw [stored_eq_ok hi, Array.getElem?_eq_getElem hi]
  simp only [bind, Except.bind]
  cases m.triangles[i].layers.intersects layers with
  | false => rfl
  | true =>
    rw [if_pos rfl, h.locate_eq_ok (Array.getElem_mem hi)]
    rfl

end Access

/-! ## §C Walks over the tree -/

section Walk

variable {σ : Type}

/-- A fold whose steps all succeed is a plain fold. -/
theorem foldlM_eq_ok {emit : σ → Nat → Except (Halt σ) σ} {f : σ → Nat → σ} {l : List Nat}
    (h : ∀ i ∈ l, ∀ s, emit s i = .ok (f s i)) (s : σ) :
    l.foldlM emit s = .ok (l.foldl f s) := by
  induction l generalizing s with
  | nil => rfl
  | cons i l ih =>
    rw [List.foldlM_cons, h i List.mem_cons_self s, List.foldl_cons]
    exact ih (fun j hj => h j (List.mem_cons_of_mem i hj)) (f s i)

/-- A walk along which every step succeeds ends with the fold over what it met, or with the fault that
stopped it. -/
theorem run_eq {t : KdTree.Trace} {emit : σ → Nat → Except (Halt σ) σ} {f : σ → Nat → σ}
    (h : ∀ i ∈ t.met, ∀ s, emit s i = .ok (f s i)) (s : σ) :
    (t.run emit s).mapError Halt.fault =
      match t.stop with
      | none => .ok (t.met.foldl f s)
      | some fault => .error fault := by
  unfold KdTree.Trace.run
  rw [foldlM_eq_ok h]
  cases t.stop <;> rfl

theorem foldl_push_eq_filter (p : Nat → Bool) (l : List Nat) (found : Array Nat) :
    l.foldl (fun found i => if p i then found.push i else found) found =
      found ++ (l.filter p).toArray := by
  induction l generalizing found with
  | nil => simp
  | cons i l ih =>
    rw [List.foldl_cons, ih]
    cases hp : p i with
    | false => rw [List.filter_cons_of_neg (by rw [hp]; exact Bool.false_ne_true)]; rfl
    | true =>
      rw [List.filter_cons_of_pos hp, if_pos rfl]
      simp

variable {m : MeshData α}

/-- The walk of a look-up that starts at the root. -/
def lookupTrace (m : MeshData α) (box : Bounds α) : KdTree.Trace :=
  KdTree.trace m.tree.nodes
    (fun axis aMax => m.tree.grid.cellFloor axis (box.mins.coord axis) ≤ aMax)
    (fun axis bMin => bMin ≤ m.tree.grid.cellCeil axis (box.maxs.coord axis))
    (KdTree.maxDepth - 1) 0

/-- The walk of a cast that starts at the root. -/
def castTrace (m : MeshData α) (point : Vec3 α) : KdTree.Trace :=
  KdTree.trace m.tree.nodes
    (fun axis aMax => axis == .y || m.tree.grid.cellFloor axis (point.coord axis) ≤ aMax)
    (fun axis bMin => bMin ≤ m.tree.grid.cellCeil axis (point.coord axis))
    (KdTree.maxDepth - 1) 0

/-- A look-up gives what its walk meets and the query meets as well. -/
theorem InRange.lookup_eq (h : m.InRange) (box : Bounds α) (layers : Layers) :
    m.lookup box layers =
      if m.bounds.intersects box then
        match (m.lookupTrace box).stop with
        | none => .ok ((m.lookupTrace box).met.filter (m.isMet box layers)).toArray
        | some fault => .error fault
      else .ok #[] := by
  unfold lookup visit KdTree.lookup
  show Except.mapError _ (if m.bounds.intersects box = true then _ else _) = _
  by_cases hbox : m.bounds.intersects box = true
  · rw [if_pos hbox, if_pos hbox, KdTree.walk_eq_trace h.tree]
    -- the walk meets triangles only, so each can be asked about
    have hstep : ∀ i ∈ (m.lookupTrace box).met, ∀ found : Array Nat,
        (do return if ← Halt.after found (m.meets box layers i) then found.push i else found :
          Except (Halt (Array Nat)) (Array Nat)) =
          .ok (if m.isMet box layers i then found.push i else found) := by
      intro i hi found
      rw [h.meets_eq_ok (KdTree.lt_of_mem_trace h.tree i hi)]
      rfl
    rw [← lookupTrace, run_eq hstep, foldl_push_eq_filter, Array.empty_append]
  · rw [if_neg hbox, if_neg hbox]
    rfl

/-- A cast gives the highest of the surfaces that its walk meets. -/
theorem InRange.shadowCast_eq (h : m.InRange) (point : Vec3 α) :
    m.shadowCast point =
      if m.tree.isOutside point then .ok none
      else
        match (m.castTrace point).stop with
        | none => .ok ((m.castTrace point).met.foldl (fun best i => higher best
            (groundBelow? (MeshData.corners m.vertices (m.triangles.getD i default))
              (m.triangles.getD i default).surface point)) none)
        | some fault => .error fault := by
  unfold shadowCast KdTree.shadowCast
  by_cases hout : m.tree.isOutside point = true
  · rw [if_pos hout, if_pos hout]
    rfl
  · rw [if_neg hout, if_neg hout, KdTree.walk_eq_trace h.tree, ← castTrace]
    refine run_eq ?_ none
    intro i hi best
    have hlt := KdTree.lt_of_mem_trace h.tree i hi
    rw [stored_eq_ok hlt, Array.getD_eq_getD_getElem?, Array.getElem?_eq_getElem hlt]
    simp only [bind, Except.bind, h.locate_eq_ok (Array.getElem_mem hlt)]
    rfl

end Walk

end ConvexCollision.MeshData
