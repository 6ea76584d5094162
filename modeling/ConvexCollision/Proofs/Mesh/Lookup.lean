import ConvexCollision.Proofs.KdTree.Lookup
import ConvexCollision.Proofs.Mesh.InRange
import ConvexCollision.Proofs.Mesh.Marks
import ConvexCollision.Proofs.Single.Laws

/-!
# ConvexCollision.Proofs.Mesh.Lookup -- a look-up misses no triangle

A look-up in a mesh that was built finds what asking every triangle in turn would find, each once.
`BuiltOf` relates the triangles of the mesh to those that its tree was built over, and needs no law of
the numbers. When the vertices are finite, the tree's branches record cells outward of them, and the
box of the tree holds all of them, so that the walk of a look-up comes to each triangle that it should.
-/

namespace ConvexCollision.MeshData

variable {α : Type} [Scalar α]

/-! ## §A The triangles of a mesh that was built -/

/-- The mesh was built over some items, stored in some order: its tree spans them, and what is stored
at a place is the triangle of the item there. -/
structure BuiltOf (m : MeshData α) (items : List (KdTree.Item α)) (order : List Nat) : Prop where
  /-- No two items have the same number. -/
  numbered : (items.map (·.index)).Nodup
  /-- The grid lies over the boxes of all items. -/
  grid : m.tree.grid =
    Grid.ofBounds (items.foldl (fun b t => b.union t.bounds) Bounds.empty)
  /-- The tree spans the order. -/
  spans : ∀ divides, KdTree.Records m.tree.grid divides items →
    KdTree.Spans m.tree.nodes divides (KdTree.maxDepth - 1) 0 m.tree.nodes.size 0 order
  /-- The order has a place for each triangle. -/
  length : order.length = m.triangles.size
  /-- The corners of a stored triangle are vertices. -/
  corners : ∀ t ∈ m.triangles, ∀ c, (t.index c).toNat < m.vertices.size
  /-- The place of a triangle holds the number of an item with its box. -/
  placed : ∀ (k : Nat) (t : MeshTriangle), m.triangles[k]? = some t →
    ∃ item ∈ items, order[k]? = some item.index ∧
      item.bounds = (MeshData.corners m.vertices t).bounds
  /-- The corners of an item are vertices. -/
  points : ∀ item ∈ items, ∃ a ∈ m.vertices, ∃ b ∈ m.vertices, ∃ c ∈ m.vertices,
    item.bounds = Bounds.ofPoints [a, b, c]

/-- What is stored at a place of the order, but for the marks. -/
theorem indices_of_stored {normals : Array (Vec3 α)} {triangles : Array MeshTriangle}
    {order : Array Nat} {k : Nat} {t : MeshTriangle}
    (h : (markSeamsBy id normals (order.map fun i => triangles.getD i default))[k]? = some t) :
    ∃ i, order[k]? = some i ∧ t.indices = (triangles.getD i default).indices := by
  rw [markSeamsBy_eq] at h
  obtain ⟨s, hs, hmarked⟩ := marked_of_markAll h
  rw [Array.getElem?_map, Option.map_eq_some_iff] at hs
  obtain ⟨i, hi, rfl⟩ := hs
  exact ⟨i, hi, hmarked.indices⟩

/-- The corners of a triangle that the build takes up are vertices, and the box of its item is the box
of the triangle. -/
theorem bounds_of_item {vertices : Array (Vec3 α)} {index : Nat} {t : MeshTriangle}
    {item : KdTree.Item α} (h : KdTree.item vertices index t.indices = .ok item) :
    (∀ c, (t.index c).toNat < vertices.size) ∧
      item.bounds = (MeshData.corners vertices t).bounds := by
  obtain ⟨-, a, b, c, ha, hb, hc, hbounds⟩ := KdTree.item_eq_ok h
  refine ⟨?_, ?_⟩
  · intro corner
    cases corner
    · exact (Array.getElem?_eq_some_iff.mp ha).1
    · exact (Array.getElem?_eq_some_iff.mp hb).1
    · exact (Array.getElem?_eq_some_iff.mp hc).1
  · rw [hbounds]
    unfold MeshData.corners MeshTriangle.index Triangle.bounds
    simp only [Array.getD_eq_getD_getElem?, ha, hb, hc, Option.getD_some]

/-- A mesh that is built is built over the items of its triangles. -/
theorem builtOf_of_build {vertices : Array (Vec3 α)} {triangles : Array MeshTriangle}
    {m : MeshData α} (h : build vertices triangles = .ok m) :
    m.vertices = vertices ∧ ∃ items order, m.BuiltOf items order := by
  unfold build buildBy at h
  obtain ⟨⟨tree, order⟩, htree, h⟩ := bind_eq_ok_iff.mp h
  cases h
  obtain ⟨hperm, items, hindices, hfound, hgrid, hspans⟩ :=
    KdTree.buildBy_eq_ok KdTree.sorts_sortOn htree
  -- the item whose number stands at a place of the order is that of the triangle stored there
  have hplace : ∀ (normals : Array (Vec3 α)) (k : Nat) (t : MeshTriangle),
      (markSeamsBy id normals (order.map fun i => triangles.getD i default))[k]? = some t →
      ∃ item ∈ items, order.toList[k]? = some item.index ∧
        KdTree.item vertices item.index t.indices = .ok item := by
    intro normals k t ht
    obtain ⟨i, hi, hsame⟩ := indices_of_stored ht
    have hmem : i ∈ items.map (·.index) := by
      rw [hindices, ← hperm.mem_iff, Array.mem_toList_iff]
      exact Array.mem_of_getElem? hi
    obtain ⟨item, hitem, rfl⟩ := List.mem_map.mp hmem
    obtain ⟨corners, hcorners, hok⟩ := hfound item hitem
    refine ⟨item, hitem, by rw [Array.getElem?_toList, hi], ?_⟩
    rw [List.getElem?_map, Array.getElem?_toList, Option.map_eq_some_iff] at hcorners
    obtain ⟨tri, htri, rfl⟩ := hcorners
    rw [hsame, Array.getD_eq_getD_getElem?, htri]
    exact hok
  refine ⟨rfl, items, order.toList, ?_, hgrid, hspans, ?_, ?_, ?_, ?_⟩
  · rw [hindices]
    exact List.nodup_range
  · simp [markSeamsBy_eq]
  · intro t ht
    obtain ⟨k, hk⟩ := Array.getElem?_of_mem ht
    obtain ⟨item, -, -, hok⟩ := hplace _ k t hk
    exact (bounds_of_item hok).1
  · intro k t ht
    obtain ⟨item, hitem, horder, hok⟩ := hplace _ k t ht
    exact ⟨item, hitem, horder, (bounds_of_item hok).2⟩
  · intro item hitem
    obtain ⟨corners, -, hok⟩ := hfound item hitem
    obtain ⟨-, a, b, c, ha, hb, hc, hbounds⟩ := KdTree.item_eq_ok hok
    exact ⟨a, Array.mem_of_getElem? ha, b, Array.mem_of_getElem? hb, c, Array.mem_of_getElem? hc,
      hbounds⟩

/-- Every number in a mesh that was built refers to something. -/
theorem BuiltOf.inRange {m : MeshData α} {items : List (KdTree.Item α)} {order : List Nat}
    (h : m.BuiltOf items order) : m.InRange := by
  refine ⟨h.corners, ?_⟩
  -- how the branches divide does not matter for which nodes there are
  have hspans := h.spans (fun _ _ _ _ _ => True) fun _ _ _ _ _ _ _ _ _ => trivial
  exact hspans.sound (Nat.le_of_eq (by rw [Nat.zero_add, h.length]))

/-- Nothing ends a walk over a mesh that was built before its time, and it meets no triangle twice. -/
theorem BuiltOf.lookupTrace {m : MeshData α} {items : List (KdTree.Item α)} {order : List Nat}
    (h : m.BuiltOf items order) (box : Bounds α) :
    (m.lookupTrace box).stop = none ∧ (m.lookupTrace box).met.Nodup := by
  have hspans := h.spans (fun _ _ _ _ _ => True) fun _ _ _ _ _ _ _ _ _ => trivial
  exact ⟨hspans.trace_stop, hspans.trace_met_sublist.nodup List.nodup_range'⟩

/-- Nor is there anything that ends a cast before its time. -/
theorem BuiltOf.castTrace_stop {m : MeshData α} {items : List (KdTree.Item α)} {order : List Nat}
    (h : m.BuiltOf items order) (point : Vec3 α) : (m.castTrace point).stop = none := by
  have hspans := h.spans (fun _ _ _ _ _ => True) fun _ _ _ _ _ _ _ _ _ => trivial
  exact hspans.trace_stop

/-! ## §B Nothing is missed -/

section Lawful

variable [Grid.Lawful α]

/-- The boxes of all items are finite and lie within the box of the mesh, and its grid is usable. -/
theorem BuiltOf.finite {m : MeshData α} {items : List (KdTree.Item α)} {order : List Nat}
    (h : m.BuiltOf items order) (hfinite : ∀ v ∈ m.vertices, v.IsFinite) :
    (∀ item ∈ items, item.bounds.IsFinite ∧ item.bounds.Within m.bounds) ∧
      m.tree.grid.Usable := by
  have hitems : ∀ item ∈ items, item.bounds.IsFinite := by
    intro item hitem
    obtain ⟨a, ha, b, hb, c, hc, hbounds⟩ := h.points item hitem
    rw [hbounds]
    refine Bounds.isFinite_ofPoints ?_
    simp only [List.mem_cons, List.not_mem_nil, or_false]
    rintro p (rfl | rfl | rfl)
    · exact hfinite p ha
    · exact hfinite p hb
    · exact hfinite p hc
  -- the box of the mesh starts out inverted, with finite ends
  obtain ⟨hbox, -, hwithin⟩ := Bounds.isFinite_empty.foldl_union hitems
  refine ⟨fun item hitem => ⟨hitems item hitem, ?_⟩, ?_⟩
  · show item.bounds.Within m.tree.grid.bounds
    rw [h.grid]
    exact hwithin item hitem
  · rw [h.grid]
    exact Grid.usable_ofBounds hbox.mins

/-- A triangle that a query meets is met by the walk, and its box meets the box of the mesh. -/
theorem BuiltOf.mem_lookupTrace {m : MeshData α} {items : List (KdTree.Item α)} {order : List Nat}
    (h : m.BuiltOf items order) (hfinite : ∀ v ∈ m.vertices, v.IsFinite) {box : Bounds α}
    (hbox : box.Defined) {i : Nat} {t : MeshTriangle} (ht : m.triangles[i]? = some t)
    (hmeets : (MeshData.corners m.vertices t).bounds.intersects box = true) :
    m.bounds.intersects box = true ∧ i ∈ (m.lookupTrace box).met := by
  obtain ⟨hitems, hgrid⟩ := h.finite hfinite
  obtain ⟨item, hitem, horder, hbounds⟩ := h.placed i t ht
  rw [← hbounds] at hmeets
  refine ⟨(hitems item hitem).2.intersects hmeets, ?_⟩
  have hspans := h.spans (KdTree.Outward m.tree.grid items)
    (KdTree.records_outward hgrid h.numbered fun item hitem => (hitems item hitem).1)
  have hmet := hspans.mem_lookup (fun item hitem => (hitems item hitem).1) hbox hitem horder hmeets
  rwa [Nat.zero_add] at hmet

/-- A triangle whose box reaches from below a point to straight above or below it is met by the walk of
a cast, and the point is not outside the mesh. -/
theorem BuiltOf.mem_castTrace {m : MeshData α} {items : List (KdTree.Item α)} {order : List Nat}
    (h : m.BuiltOf items order) (hfinite : ∀ v ∈ m.vertices, v.IsFinite) {point : Vec3 α} {i : Nat}
    {t : MeshTriangle} (ht : m.triangles[i]? = some t)
    (hstarts : ∀ axis, (MeshData.corners m.vertices t).bounds.mins.coord axis ≤ point.coord axis)
    (hends : ∀ axis, axis ≠ .y →
      point.coord axis ≤ (MeshData.corners m.vertices t).bounds.maxs.coord axis) :
    m.tree.isOutside point = false ∧ i ∈ (m.castTrace point).met := by
  obtain ⟨hitems, hgrid⟩ := h.finite hfinite
  obtain ⟨item, hitem, horder, hbounds⟩ := h.placed i t ht
  rw [← hbounds] at hstarts hends
  constructor
  · have hwithin := (hitems item hitem).2
    have hbelow (axis : Axis) : ¬ point.coord axis < m.tree.bounds.mins.coord axis := fun hlt =>
      (Scalar.Ordered.lt_iff.mp hlt).2 (Scalar.Ordered.le_trans (hwithin.mins axis) (hstarts axis))
    have habove (axis : Axis) (hy : axis ≠ .y) : ¬ m.tree.bounds.maxs.coord axis < point.coord axis :=
      fun hlt => (Scalar.Ordered.lt_iff.mp hlt).2
        (Scalar.Ordered.le_trans (hends axis hy) (hwithin.maxs axis))
    unfold KdTree.isOutside
    simp only [Bool.or_eq_false_iff, decide_eq_false_iff_not]
    exact ⟨⟨⟨⟨hbelow .x, habove .x (by decide)⟩, hbelow .z⟩, habove .z (by decide)⟩, hbelow .y⟩
  · have hspans := h.spans (KdTree.Outward m.tree.grid items)
      (KdTree.records_outward hgrid h.numbered fun item hitem => (hitems item hitem).1)
    have hmet := hspans.mem_cast hitem horder hstarts hends
    rwa [Nat.zero_add] at hmet

end Lawful

variable [Grid.Ordered α]

/-- **A look-up is exact.** In a mesh that was built on finite vertices, a look-up in a box without
undefined coordinates finds exactly those triangles that share a layer with the query and whose box
meets its box, each of them once. The box may be inverted, empty or infinite. -/
theorem mem_lookup_iff_meets {vertices : Array (Vec3 α)} {triangles : Array MeshTriangle}
    {m : MeshData α} (h : build vertices triangles = .ok m) (hfinite : ∀ v ∈ vertices, v.IsFinite)
    {box : Bounds α} (hbox : box.Defined) (layers : Layers) :
    ∃ found, m.lookup box layers = .ok found ∧ found.toList.Nodup ∧
      ∀ i, i ∈ found ↔ i < m.triangles.size ∧ ∃ t tri, m.stored i = .ok t ∧ m.triangle i = .ok tri ∧
        t.layers.intersects layers = true ∧ tri.bounds.intersects box = true := by
  obtain ⟨rfl, items, order, hbuilt⟩ := builtOf_of_build h
  obtain ⟨hstop, hnodup⟩ := hbuilt.lookupTrace box
  have hasked : ∀ i, m.isMet box layers i = true ↔ i < m.triangles.size ∧ ∃ t tri,
      m.stored i = .ok t ∧ m.triangle i = .ok tri ∧ t.layers.intersects layers = true ∧
      tri.bounds.intersects box = true := fun i => hbuilt.inRange.isMet_iff box layers i
  -- what the query meets lies within the mesh, so the first test and the walk let it through
  have hwalked : ∀ i, m.isMet box layers i = true →
      m.bounds.intersects box = true ∧ i ∈ (m.lookupTrace box).met := by
    intro i hi
    obtain ⟨t, ht, -, hmeets⟩ := exists_of_isMet hi
    exact hbuilt.mem_lookupTrace hfinite hbox ht hmeets
  rw [hbuilt.inRange.lookup_eq, hstop]
  by_cases hmeets : m.bounds.intersects box = true
  · rw [if_pos hmeets]
    refine ⟨_, rfl, hnodup.filter _, ?_⟩
    intro i
    rw [← hasked, List.mem_toArray, List.mem_filter]
    exact ⟨fun hi => hi.2, fun hi => ⟨(hwalked i hi).2, hi⟩⟩
  · rw [if_neg hmeets]
    refine ⟨_, rfl, List.nodup_nil, ?_⟩
    intro i
    rw [← hasked]
    exact ⟨fun hi => absurd hi (Array.not_mem_empty i), fun hi => absurd (hwalked i hi).1 hmeets⟩

/-- The vertices of a floor along the x axis. -/
def floorVertices : Array (Vec3 Float32) :=
  #[⟨0, 0, 0⟩, ⟨0, 0, 1⟩, ⟨1, 0, 0⟩, ⟨1, 0, 1⟩, ⟨2, 0, 0⟩, ⟨2, 0, 1⟩, ⟨3, 0, 0⟩]

/-- Its triangles, one too many for a single leaf. -/
def floorTriangles : Array MeshTriangle :=
  #[{ indices := (0, 1, 2) }, { indices := (2, 1, 3) }, { indices := (2, 3, 4) },
    { indices := (4, 3, 5) }, { indices := (4, 5, 6) }]

/-- Everything beyond a place on the floor. -/
def beyondFloor : Bounds Float32 := ⟨⟨2.5, -1, -1⟩, ⟨1 / 0, 1, 1⟩⟩

/-- The floor can be built, and a look-up beyond a place on it is exact. -/
theorem lookup_beyondFloor : ∃ m found, build floorVertices floorTriangles = .ok m ∧
    m.lookup beyondFloor Layers.all = .ok found ∧ found.toList.Nodup ∧
    ∀ i, i ∈ found ↔ i < m.triangles.size ∧ ∃ t tri, m.stored i = .ok t ∧ m.triangle i = .ok tri ∧
      t.layers.intersects Layers.all = true ∧ tri.bounds.intersects beyondFloor = true := by
  obtain ⟨m, hm⟩ := exists_eq_ok_of_isOk
    (show (build floorVertices floorTriangles).isOk = true by decide +kernel)
  have hfinite : ∀ v ∈ floorVertices, v.IsFinite := by
    have hcoords : ∀ v ∈ floorVertices, Scalar.isFinite v.x = true ∧ Scalar.isFinite v.y = true ∧
        Scalar.isFinite v.z = true := by
      decide
    intro v hv axis
    obtain ⟨hx, hy, hz⟩ := hcoords v hv
    cases axis
    · exact hx
    · exact hy
    · exact hz
  have hbox : beyondFloor.Defined := by
    constructor <;> intro axis <;> cases axis <;> decide
  obtain ⟨found, hlookup, hnodup, hexact⟩ := mem_lookup_iff_meets hm hfinite hbox Layers.all
  exact ⟨m, found, hm, hlookup, hnodup, hexact⟩

end ConvexCollision.MeshData
