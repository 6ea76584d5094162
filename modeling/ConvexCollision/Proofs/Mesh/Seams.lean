import Mathlib.Data.List.Nodup
import Mathlib.Data.Sym.Sym2
import ConvexCollision.Proofs.KdTree.Arrangement
import ConvexCollision.Proofs.Mesh.Marks
import ConvexCollision.Proofs.Single.Null

/-!
# ConvexCollision.Proofs.Mesh.Seams -- seams are the edges between neighbours in one plane

The edges of a mesh are put in a table by their vertices, and whatever order the table is gone through in,
the edges that end up marked are the same ones. `Shares` is what an insertion into the table keeps: each
entry holds the edges with its vertices that have come so far, in order. An edge is then marked when a
different edge of its entry belongs to a triangle in the same plane (`mem_seams_iff`).

A triangle without area may have one edge twice. It never marks itself, because it has no normal: with two
corners in one place the normal is zero however the coordinates are rounded, infinite ones included.
-/

namespace ConvexCollision

namespace MeshTriangle

/-- The two vertices of an edge, in no order. -/
def ends (t : MeshTriangle) (c : Corner) : Sym2 UInt16 := s(t.index c, t.index c.next)

theorem edgeKey_eq_iff {t t' : MeshTriangle} {c c' : Corner} :
    t.edgeKey c = t'.edgeKey c' ↔ t.ends c = t'.ends c' := by
  unfold edgeKey ends
  generalize t.index c = p, t.index c.next = q, t'.index c' = p', t'.index c'.next = q'
  -- both keys have the smaller number first
  have hkey (p q : UInt16) : (if p ≤ q then (p, q) else (q, p)) = (p, q) ∧ p ≤ q ∨
      (if p ≤ q then (p, q) else (q, p)) = (q, p) ∧ q < p := by
    split
    · next h => exact .inl ⟨rfl, h⟩
    · next h => exact .inr ⟨rfl, UInt16.not_le.mp h⟩
  dsimp only
  rcases hkey p q with ⟨h, hle⟩ | ⟨h, hle⟩ <;> rcases hkey p' q' with ⟨h', hle'⟩ | ⟨h', hle'⟩ <;>
    rw [h, h', Sym2.eq_iff, Prod.mk.injEq] <;> grind

end MeshTriangle

namespace MeshData

variable {α : Type} [Scalar α] {triangles : Array MeshTriangle}

/-! ## §A The table of edges -/

/-- A table holds some edges by their vertices: those of each entry are all with its vertices, in order. -/
structure Shares (table : EdgeTable) (es : List ((UInt16 × UInt16) × Edge)) : Prop where
  /-- No two entries have the same vertices. -/
  keys : (table.map (·.1)).Nodup
  /-- What an entry holds. -/
  entry : ∀ g ∈ table, g.2 = (es.filter fun e => e.1 = g.1).map (·.2)
  /-- Every edge has an entry. -/
  present : ∀ e ∈ es, e.1 ∈ table.map (·.1)

theorem keys_shareEdge (key : UInt16 × UInt16) (e : Edge) (table : EdgeTable) :
    (shareEdge key e table).map (·.1) =
      if key ∈ table.map (·.1) then table.map (·.1) else table.map (·.1) ++ [key] := by
  induction table with
  | nil => rfl
  | cons g rest ih =>
    obtain ⟨key', sharing⟩ := g
    rw [shareEdge]
    by_cases h : key' = key
    · simp [h]
    · rw [if_neg h, List.map_cons, ih]
      simp only [List.map_cons, List.mem_cons, Ne.symm h, false_or]
      split <;> rfl

/-- An entry of a table with one more edge: it is as it was, or the edge is its last one. -/
theorem mem_shareEdge {key : UInt16 × UInt16} {e : Edge} {table : EdgeTable}
    (hkeys : (table.map (·.1)).Nodup) {g : (UInt16 × UInt16) × List Edge} (h : g ∈ shareEdge key e table) :
    (g ∈ table ∧ g.1 ≠ key) ∨ g.1 = key ∧
      ((∃ sharing, (key, sharing) ∈ table ∧ g.2 = sharing ++ [e]) ∨ key ∉ table.map (·.1) ∧ g.2 = [e]) := by
  induction table with
  | nil =>
    rw [shareEdge, List.mem_singleton] at h
    subst h
    exact .inr ⟨rfl, .inr ⟨List.not_mem_nil, rfl⟩⟩
  | cons entry rest ih =>
    obtain ⟨key', sharing⟩ := entry
    rw [List.map_cons, List.nodup_cons] at hkeys
    rw [shareEdge] at h
    by_cases hkey : key' = key
    · subst hkey
      rw [if_pos rfl, List.mem_cons] at h
      rcases h with rfl | h
      · exact .inr ⟨rfl, .inl ⟨sharing, List.mem_cons_self, rfl⟩⟩
      · refine .inl ⟨List.mem_cons_of_mem _ h, ?_⟩
        intro heq
        exact hkeys.1 (List.mem_map.mpr ⟨g, h, heq⟩)
    · rw [if_neg hkey, List.mem_cons] at h
      rcases h with rfl | h
      · exact .inl ⟨List.mem_cons_self, hkey⟩
      · rcases ih hkeys.2 h with ⟨hmem, hne⟩ | ⟨heq, ⟨sharing', hmem, hg⟩ | ⟨hnew, hg⟩⟩
        · exact .inl ⟨List.mem_cons_of_mem _ hmem, hne⟩
        · exact .inr ⟨heq, .inl ⟨sharing', List.mem_cons_of_mem _ hmem, hg⟩⟩
        · refine .inr ⟨heq, .inr ⟨?_, hg⟩⟩
          rw [List.map_cons, List.mem_cons]
          exact not_or.mpr ⟨Ne.symm hkey, hnew⟩

/-- One more edge. -/
theorem Shares.shareEdge {table : EdgeTable}
    {es : List ((UInt16 × UInt16) × Edge)} (h : Shares table es) (key : UInt16 × UInt16) (e : Edge) :
    Shares (MeshData.shareEdge key e table) (es ++ [(key, e)]) := by
  have hkeys := keys_shareEdge key e table
  refine ⟨?_, ?_, ?_⟩
  · rw [hkeys]
    split
    · exact h.keys
    · next hnew => exact h.keys.append (List.nodup_singleton key) (List.disjoint_singleton.mpr hnew)
  · intro g hg
    rw [List.filter_append, List.map_append]
    rcases mem_shareEdge h.keys hg with ⟨hmem, hne⟩ | ⟨heq, ⟨sharing, hmem, hlast⟩ | ⟨hnew, hlast⟩⟩
    · rw [h.entry g hmem]
      simp [Ne.symm hne]
    · rw [hlast, heq, show sharing = _ from h.entry _ hmem]
      simp
    · have hnone : es.filter (fun e => e.1 = key) = [] := by
        rw [List.filter_eq_nil_iff]
        intro e he hkey
        exact hnew (of_decide_eq_true hkey ▸ h.present e he)
      rw [hlast, heq, hnone]
      simp
  · intro f hf
    rw [hkeys]
    rcases List.mem_append.mp hf with hf | hf
    · have := h.present f hf
      split
      · exact this
      · exact List.mem_append_left _ this
    · rw [List.mem_singleton.mp hf]
      split
      · next hmem => exact hmem
      · exact List.mem_append_right _ (List.mem_singleton_self key)

theorem shares_foldl (es : List ((UInt16 × UInt16) × Edge)) :
    Shares (es.foldl (fun table (key, e) => MeshData.shareEdge key e table) []) es := by
  induction es using List.reverseRecOn with
  | nil =>
    exact ⟨List.nodup_nil, fun g hg => absurd hg List.not_mem_nil, fun e he => absurd he List.not_mem_nil⟩
  | append_singleton es e ih =>
    rw [List.foldl_append]
    exact ih.shareEdge e.1 e.2

theorem shares_edgeTable (triangles : Array MeshTriangle) : Shares (edgeTable triangles) (edges triangles) :=
  shares_foldl (edges triangles)

/-! ## §B The edges of a group -/

theorem mem_edges {key : UInt16 × UInt16} {e : Edge} :
    (key, e) ∈ edges triangles ↔ ∃ t, triangles[e.triangle]? = some t ∧ t.edgeKey e.corner = key := by
  have hall (c : Corner) : c ∈ Corner.all := by cases c <;> decide
  obtain ⟨n, c⟩ := e
  unfold edges
  simp only [List.mem_flatMap, List.mem_map, Prod.exists, List.mk_mem_zipIdx_iff_getElem?,
    Array.getElem?_toList, Prod.mk.injEq, Edge.mk.injEq]
  constructor
  · rintro ⟨t, k, ht, i, -, hkey, rfl, rfl⟩
    exact ⟨t, ht, hkey⟩
  · rintro ⟨t, ht, hkey⟩
    exact ⟨t, n, ht, c, hall c, hkey, rfl, rfl⟩

theorem nodup_edges (triangles : Array MeshTriangle) : ((edges triangles).map (·.2)).Nodup := by
  unfold edges
  rw [List.map_flatMap, List.nodup_flatMap]
  constructor
  · rintro ⟨t, n⟩ -
    simp [Corner.all]
  · have hnumbers : (triangles.toList.zipIdx.map (·.2)).Nodup := by
      rw [List.zipIdx_map_snd]
      exact List.nodup_range'
    refine (List.pairwise_map.mp hnumbers).imp fun {x y} hne => ?_
    intro e hx hy
    simp only [List.mem_map] at hx hy
    obtain ⟨_, ⟨i, -, rfl⟩, rfl⟩ := hx
    obtain ⟨_, ⟨j, -, rfl⟩, heq⟩ := hy
    exact hne (congrArg Edge.triangle heq).symm

/-- Among different edges, one is marked when another one belongs to a triangle in the same plane. -/
theorem mem_seamsAmong {normals : Array (Vec3 α)}
    (hsymm : ∀ e f, InOnePlane normals e f → InOnePlane normals f e) {g : List Edge} (hnodup : g.Nodup)
    {e : Edge} : e ∈ seamsAmong normals g ↔ e ∈ g ∧ ∃ f ∈ g, f ≠ e ∧ InOnePlane normals e f := by
  induction g with
  | nil => simp [seamsAmong]
  | cons a rest ih =>
    obtain ⟨ha, hrest⟩ := List.nodup_cons.mp hnodup
    have hpairs : (e ∈ rest.flatMap fun f => if InOnePlane normals a f then [a, f] else []) ↔
        ∃ f ∈ rest, InOnePlane normals a f ∧ (e = a ∨ e = f) := by
      rw [List.mem_flatMap]
      refine exists_congr fun f => and_congr_right fun _ => ?_
      split
      · next h => simp [h]
      · next h => simp [h]
    rw [seamsAmong, List.mem_append, hpairs, ih hrest]
    constructor
    · rintro (⟨f, hf, hplane, rfl | rfl⟩ | ⟨he, f, hf, hne, hplane⟩)
      · exact ⟨List.mem_cons_self, f, List.mem_cons_of_mem _ hf, fun h => ha (h ▸ hf), hplane⟩
      · exact ⟨List.mem_cons_of_mem _ hf, a, List.mem_cons_self, fun h => ha (h ▸ hf),
          hsymm _ _ hplane⟩
      · exact ⟨List.mem_cons_of_mem _ he, f, List.mem_cons_of_mem _ hf, hne, hplane⟩
    · rintro ⟨he, f, hf, hne, hplane⟩
      rcases List.mem_cons.mp he with rfl | hrest
      · exact .inl ⟨f, (List.mem_cons.mp hf).resolve_left hne, hplane, .inl rfl⟩
      · rcases List.mem_cons.mp hf with rfl | hf
        · exact .inl ⟨e, hrest, hsymm _ _ hplane, .inr rfl⟩
        · exact .inr ⟨hrest, f, hf, hne, hplane⟩

/-- The edges that are marked. -/
theorem mem_seams_iff {normals : Array (Vec3 α)}
    (hsymm : ∀ e f, InOnePlane normals e f → InOnePlane normals f e) {e : Edge} :
    e ∈ (sharedEdges triangles).flatMap (seamsAmong normals) ↔
      ∃ key f, (key, e) ∈ edges triangles ∧ (key, f) ∈ edges triangles ∧ f ≠ e ∧ InOnePlane normals e f := by
  have hshares := shares_edgeTable triangles
  -- what stands in an entry of the table
  have hentry : ∀ g ∈ edgeTable triangles, ∀ e, e ∈ g.2 ↔ (g.1, e) ∈ edges triangles := by
    intro g hg e
    rw [hshares.entry g hg]
    simp
  have hnodup : ∀ g ∈ edgeTable triangles, g.2.Nodup := by
    intro g hg
    rw [hshares.entry g hg]
    exact (nodup_edges triangles).sublist (List.filter_sublist.map _)
  unfold sharedEdges
  rw [List.flatMap_map, List.mem_flatMap]
  constructor
  · rintro ⟨g, hg, he⟩
    obtain ⟨he, f, hf, hne, hplane⟩ := (mem_seamsAmong hsymm (hnodup g hg)).mp he
    exact ⟨g.1, f, (hentry g hg e).mp he, (hentry g hg f).mp hf, hne, hplane⟩
  · rintro ⟨key, f, he, hf, hne, hplane⟩
    obtain ⟨g, hg, rfl⟩ := List.mem_map.mp (hshares.present _ he)
    exact ⟨g, hg, (mem_seamsAmong hsymm (hnodup g hg)).mpr
      ⟨(hentry g hg e).mpr he, f, (hentry g hg f).mpr hf, hne, hplane⟩⟩

/-! ## §C Neighbours -/

/-- Another triangle has an edge between the two vertices of an edge of this one, in either direction, and the
inner product of the normals of the two is above the bound for triangles in one plane. -/
def HasNeighbour (vertices : Array (Vec3 α)) (triangles : Array MeshTriangle) (k : Nat) (t : MeshTriangle)
    (c : Corner) : Prop :=
  ∃ k' t' c', k' ≠ k ∧ triangles[k']? = some t' ∧ t'.ends c' = t.ends c ∧
    coplanar < (corners vertices t).normal.dot (corners vertices t').normal

/-- Whether an edge has a neighbour depends on the corners of the triangles only. -/
theorem HasNeighbour.of_indices {vertices : Array (Vec3 α)} {triangles triangles' : Array MeshTriangle}
    (hsame : ∀ (k : Nat) t, triangles[k]? = some t → ∃ t', triangles'[k]? = some t' ∧ t'.indices = t.indices)
    {k : Nat} {t t' : MeshTriangle} (ht : t'.indices = t.indices) {c : Corner}
    (h : HasNeighbour vertices triangles k t c) : HasNeighbour vertices triangles' k t' c := by
  obtain ⟨k', s, c', hne, hs, hends, hplane⟩ := h
  obtain ⟨s', hs', hsame⟩ := hsame k' s hs
  refine ⟨k', s', c', hne, hs', ?_, ?_⟩
  · unfold MeshTriangle.ends MeshTriangle.index at hends ⊢
    rwa [hsame, ht]
  · unfold corners MeshTriangle.index at hplane ⊢
    rwa [hsame, ht]

/-- It does not depend on the marks. -/
theorem hasNeighbour_markAll {vertices : Array (Vec3 α)} {es : List Edge} {k : Nat} {s t : MeshTriangle}
    {c : Corner} (h : t.indices = s.indices) :
    HasNeighbour vertices (markAll triangles es) k t c ↔ HasNeighbour vertices triangles k s c := by
  refine ⟨.of_indices (fun k t ht => ?_) h.symm, .of_indices (fun k s hs => ?_) h⟩
  · obtain ⟨s, hs, hmarked⟩ := marked_of_markAll ht
    exact ⟨s, hs, hmarked.indices.symm⟩
  · obtain ⟨t, ht, hmarked⟩ := exists_markAll hs es
    exact ⟨t, ht, hmarked.indices⟩

/-- The order in which the table of edges is gone through does not matter. -/
theorem buildBy_eq_build {arrange : List (List Edge) → List (List Edge)}
    (harrange : ∀ groups, (arrange groups).Perm groups) (vertices : Array (Vec3 α))
    (triangles : Array MeshTriangle) : buildBy arrange vertices triangles = build vertices triangles := by
  have hmarks (normals : Array (Vec3 α)) (triangles : Array MeshTriangle) :
      markSeamsBy arrange normals triangles = markSeamsBy id normals triangles := by
    rw [markSeamsBy_eq, markSeamsBy_eq]
    refine markAll_congr fun e => ?_
    simp only [List.mem_flatMap, (harrange (sharedEdges triangles)).mem_iff, id]
  unfold build buildBy
  simp only [hmarks]

/-! ## §D What seams rest on -/

/-- Products do not depend on the order of their factors, and triangles in one plane face the same way. -/
class Seaming (α : Type) [Scalar α] : Prop extends Scalar.Ordered α, Scalar.Nulls α where
  /-- Two factors can be exchanged. -/
  mul_comm : ∀ a b : α, a * b = b * a
  /-- The bound is positive. -/
  coplanar_pos : (0 : α) < coplanar

instance : Seaming Float32 where
  mul_comm := Single.product_comm
  coplanar_pos := by decide +kernel

section Seaming

variable [Seaming α]

theorem dot_symm (v w : Vec3 α) : v.dot w = w.dot v := by
  unfold Vec3.dot
  rw [Seaming.mul_comm v.x, Seaming.mul_comm v.y, Seaming.mul_comm v.z]

/-- A triangle that has an edge twice has no normal. -/
theorem normal_eq_zero_of_ends {vertices : Array (Vec3 α)} {t : MeshTriangle} {c c' : Corner}
    (hne : c' ≠ c) (h : t.ends c' = t.ends c) : (corners vertices t).normal = Vec3.zero := by
  -- two of its three vertices have the same number
  have hindex : t.index .first = t.index .second ∨ t.index .second = t.index .third ∨
      t.index .third = t.index .first := by
    unfold MeshTriangle.ends at h
    rw [Sym2.eq_iff] at h
    cases c <;> cases c' <;> simp only [Corner.next] at h <;> first | exact absurd rfl hne | tauto
  have hvertex (c c' : Corner) (h : t.index c = t.index c') :
      vertices.getD (t.index c).toNat Vec3.zero = vertices.getD (t.index c').toNat Vec3.zero := by
    rw [h]
  exact Triangle.normal_eq_zero (hindex.imp (hvertex _ _) (.imp (hvertex _ _) (hvertex _ _)))

/-- The edges that are marked are those with a neighbour in one plane. -/
theorem mem_seams_iff_hasNeighbour {vertices : Array (Vec3 α)} {k : Nat} {t : MeshTriangle} {c : Corner}
    (ht : triangles[k]? = some t) :
    ⟨k, c⟩ ∈ (sharedEdges triangles).flatMap
        (seamsAmong (triangles.map fun t => (corners vertices t).normal)) ↔
      HasNeighbour vertices triangles k t c := by
  have hnormal {k : Nat} {t : MeshTriangle} (ht : triangles[k]? = some t) :
      (triangles.map fun t => (corners vertices t).normal).getD k Vec3.zero =
        (corners vertices t).normal := by
    rw [Array.getD_eq_getD_getElem?, Array.getElem?_map, ht]
    rfl
  rw [mem_seams_iff fun e f hplane => by
    unfold InOnePlane
    rwa [dot_symm]]
  constructor
  · rintro ⟨key, ⟨k', c'⟩, he, hf, hne, hplane⟩
    obtain ⟨s, hs, hkey⟩ := mem_edges.mp he
    obtain ⟨t', ht', hkey'⟩ := mem_edges.mp hf
    obtain rfl : t = s := Option.some.inj (ht.symm.trans hs)
    have hends : t'.ends c' = t.ends c := MeshTriangle.edgeKey_eq_iff.mp (hkey'.trans hkey.symm)
    have hplane : coplanar < (corners vertices t).normal.dot (corners vertices t').normal := by
      rw [← hnormal ht, ← hnormal ht']
      exact hplane
    refine ⟨k', t', c', ?_, ht', hends, hplane⟩
    -- a triangle with the edge twice would have no normal
    rintro rfl
    obtain rfl : t = t' := Option.some.inj (ht.symm.trans ht')
    have hc : c' ≠ c := fun hc => hne (congrArg _ hc)
    rw [normal_eq_zero_of_ends hc hends] at hplane
    exact (Vec3.isNull_zero.dot_left _).not_lt Seaming.coplanar_pos hplane
  · rintro ⟨k', t', c', hne, ht', hends, hplane⟩
    refine ⟨t.edgeKey c, ⟨k', c'⟩, mem_edges.mpr ⟨t, ht, rfl⟩,
      mem_edges.mpr ⟨t', ht', MeshTriangle.edgeKey_eq_iff.mpr hends⟩,
      fun heq => hne (congrArg Edge.triangle heq), ?_⟩
    unfold InOnePlane
    rw [hnormal ht, hnormal ht']
    exact hplane

/-- **Seams are the edges between neighbours in one plane.** However the edges of a mesh are gone through, its
triangles are those given, in some order, and an edge of one of them is a seam exactly if it was marked before
or another triangle has an edge between the same vertices and lies in the same plane. The triangles have no
other bits changed, and nothing else. This holds of any vertices, in any number of triangles around an edge,
and of triangles without area. -/
theorem isSeam_iff_neighbour {arrange : List (List Edge) → List (List Edge)}
    (harrange : ∀ groups, (arrange groups).Perm groups) {vertices : Array (Vec3 α)}
    {triangles : Array MeshTriangle} {m : MeshData α} (h : buildBy arrange vertices triangles = .ok m) :
    m.vertices = vertices ∧ m.triangles.size = triangles.size ∧
    ∃ order : List Nat, order.Perm (List.range triangles.size) ∧
      ∀ (k : Nat) (t : MeshTriangle), m.triangles[k]? = some t →
        ∃ i s, order[k]? = some i ∧ triangles[i]? = some s ∧
          s.Marked t (HasNeighbour m.vertices m.triangles k t) := by
  rw [buildBy_eq_build harrange] at h
  unfold build buildBy at h
  obtain ⟨⟨tree, order⟩, htree, h⟩ := bind_eq_ok_iff.mp h
  cases h
  obtain ⟨hperm, -⟩ := KdTree.buildBy_eq_ok KdTree.sorts_sortOn htree
  rw [List.length_map, Array.length_toList] at hperm
  have hsize : order.size = triangles.size := by
    rw [← Array.length_toList, hperm.length_eq, List.length_range]
  simp only [markSeamsBy_eq, id]
  refine ⟨trivial, by simp [hsize], order.toList, hperm, ?_⟩
  intro k t ht
  obtain ⟨s, hs, hmarked⟩ := marked_of_markAll ht
  obtain ⟨i, hi, hfound⟩ : ∃ i, order[k]? = some i ∧ triangles.getD i default = s := by
    rwa [Array.getElem?_map, Option.map_eq_some_iff] at hs
  have hrange : i < triangles.size := by
    rw [← List.mem_range, ← hperm.mem_iff, Array.mem_toList_iff]
    exact Array.mem_of_getElem? hi
  refine ⟨i, s, by rw [Array.getElem?_toList, hi], ?_, hmarked.congr fun c => ?_⟩
  · rw [← hfound, Array.getD_eq_getD_getElem?, Array.getElem?_eq_getElem hrange]
    rfl
  · rw [mem_seams_iff_hasNeighbour hs]
    exact (hasNeighbour_markAll hmarked.indices).symm

end Seaming

/-- The corners of a square on the ground. -/
def squareVertices : Array (Vec3 Float32) := #[⟨0, 0, 0⟩, ⟨0, 0, 1⟩, ⟨1, 0, 1⟩, ⟨1, 0, 0⟩]

/-- Its two halves. One comes with an edge marked, and with a bit that stands for no edge. -/
def squareTriangles : Array MeshTriangle :=
  #[{ indices := (0, 1, 2), filteredEdges := 0x41 }, { indices := (0, 2, 3) }]

/-- The square can be built, gone through backwards, and its seams are as they should be. -/
theorem isSeam_square : ∃ m, buildBy List.reverse squareVertices squareTriangles = .ok m ∧
    m.vertices = squareVertices ∧ m.triangles.size = squareTriangles.size ∧
    ∃ order : List Nat, order.Perm (List.range squareTriangles.size) ∧
      ∀ (k : Nat) (t : MeshTriangle), m.triangles[k]? = some t →
        ∃ i s, order[k]? = some i ∧ squareTriangles[i]? = some s ∧
          s.Marked t (HasNeighbour m.vertices m.triangles k t) := by
  obtain ⟨m, hm⟩ := exists_eq_ok_of_isOk
    (show (buildBy List.reverse squareVertices squareTriangles).isOk = true by decide +kernel)
  exact ⟨m, hm, isSeam_iff_neighbour List.reverse_perm hm⟩

/-- The diagonal is marked on both sides. -/
example : (build squareVertices squareTriangles).map (fun m => m.triangles.map (·.filteredEdges)) =
    .ok #[0x45, 0x01] := by
  decide +kernel

end MeshData

end ConvexCollision
