import Mathlib.Data.List.Induction
import Mathlib.Tactic.Tauto
import ConvexCollision.Mesh

/-!
# ConvexCollision.Proofs.Mesh.Marks -- what marking seams changes

Seams are marked by setting bits, one edge after the other. However the edges come to be marked, each bit
stands for whether its edge was among them (`Marked`), so neither the order nor the number of times matters
(`markAll_congr`), and nothing else of a triangle changes. The passes over groups of edges are brought to
this form: what they do is to mark a list of edges (`markSeamsBy_eq`).
-/

namespace ConvexCollision

namespace MeshTriangle

/-! ## §A The bits of a triangle -/

/-- The bits that stand for no edge. -/
def spareBits : UInt8 := 0xF8

theorem or_and (a b c : UInt8) : (a ||| b) &&& c = (a &&& c) ||| (b &&& c) := by
  apply UInt8.toBitVec_inj.mp
  ext i hi
  simp [Bool.and_or_distrib_right]

/-- The bits of the edges and the others are all. -/
theorem eq_of_bits {a b : UInt8} (hedges : ∀ c : Corner, a &&& c.edgeBit = b &&& c.edgeBit)
    (hspare : a &&& spareBits = b &&& spareBits) : a = b := by
  have hall (d : UInt8) : d = (d &&& Corner.first.edgeBit) ||| (d &&& Corner.second.edgeBit) |||
      (d &&& Corner.third.edgeBit) ||| (d &&& spareBits) := by
    rw [UInt8.and_comm d, UInt8.and_comm d, UInt8.and_comm d, UInt8.and_comm d, ← or_and, ← or_and,
      ← or_and]
    exact UInt8.neg_one_and.symm
  rw [hall a, hall b, hedges, hedges, hedges, hspare]

/-- A bit is off, or it is what it stands for. -/
theorem and_edgeBit (a : UInt8) (c : Corner) : a &&& c.edgeBit = 0 ∨ a &&& c.edgeBit = c.edgeBit := by
  have hall : ∀ b : BitVec 8,
      b &&& c.edgeBit.toBitVec = 0 ∨ b &&& c.edgeBit.toBitVec = c.edgeBit.toBitVec := by
    cases c <;> decide +kernel
  exact (hall a.toBitVec).imp UInt8.toBitVec_inj.mp UInt8.toBitVec_inj.mp

theorem isSeam_markSeam (t : MeshTriangle) (c d : Corner) :
    (t.markSeam c).isSeam d = true ↔ t.isSeam d = true ∨ d = c := by
  have hbit : c.edgeBit &&& d.edgeBit = 0 ↔ d ≠ c := by cases c <;> cases d <;> decide
  unfold isSeam markSeam
  simp only [bne_iff_ne, or_and, ne_eq, UInt8.or_eq_zero_iff, hbit]
  tauto

theorem spare_markSeam (t : MeshTriangle) (c : Corner) :
    (t.markSeam c).filteredEdges &&& spareBits = t.filteredEdges &&& spareBits := by
  have hbit : c.edgeBit &&& spareBits = 0 := by cases c <;> rfl
  show (t.filteredEdges ||| c.edgeBit) &&& spareBits = _
  rw [or_and, hbit, UInt8.or_zero]

/-- One triangle is another one with some edges marked. -/
structure Marked (s t : MeshTriangle) (edges : Corner → Prop) : Prop where
  /-- The corners are the same. -/
  indices : t.indices = s.indices
  /-- What it is made of is the same. -/
  surface : t.surface = s.surface
  /-- The layers are the same. -/
  layers : t.layers = s.layers
  /-- An edge is a seam if it was one or is among those marked. -/
  isSeam : ∀ c, t.isSeam c = true ↔ s.isSeam c = true ∨ edges c
  /-- The other bits are the same. -/
  spare : t.filteredEdges &&& spareBits = s.filteredEdges &&& spareBits

theorem Marked.none (t : MeshTriangle) : t.Marked t fun _ => False :=
  ⟨rfl, rfl, rfl, fun _ => (or_false _).to_iff.symm, rfl⟩

theorem Marked.markSeam {s t : MeshTriangle} {edges : Corner → Prop} (h : s.Marked t edges)
    (d : Corner) : s.Marked (t.markSeam d) fun c => edges c ∨ c = d := by
  refine ⟨h.indices, h.surface, h.layers, fun c => ?_, (spare_markSeam t d).trans h.spare⟩
  rw [isSeam_markSeam, h.isSeam, or_assoc]

theorem Marked.congr {s t : MeshTriangle} {edges edges' : Corner → Prop} (h : s.Marked t edges)
    (hedges : ∀ c, edges c ↔ edges' c) : s.Marked t edges' :=
  ⟨h.indices, h.surface, h.layers, fun c => (h.isSeam c).trans (or_congr_right (hedges c)), h.spare⟩

/-- Which edges were marked is all that there is to know. -/
theorem Marked.unique {s t t' : MeshTriangle} {edges : Corner → Prop} (h : s.Marked t edges)
    (h' : s.Marked t' edges) : t = t' := by
  have hbits : t.filteredEdges = t'.filteredEdges := by
    refine eq_of_bits (fun c => ?_) (h.spare.trans h'.spare.symm)
    have hsame : t.filteredEdges &&& c.edgeBit = 0 ↔ t'.filteredEdges &&& c.edgeBit = 0 := by
      have hseam := (h.isSeam c).trans (h'.isSeam c).symm
      unfold MeshTriangle.isSeam at hseam
      rwa [bne_iff_ne, bne_iff_ne, not_iff_not] at hseam
    rcases and_edgeBit t.filteredEdges c with hoff | hon
    · rw [hoff, hsame.mp hoff]
    · rcases and_edgeBit t'.filteredEdges c with hoff' | hon'
      · rw [hoff', hsame.mpr hoff']
      · rw [hon, hon']
  obtain ⟨indices, surface, layers, bits⟩ := t
  obtain ⟨indices', surface', layers', bits'⟩ := t'
  obtain rfl : indices = indices' := h.indices.trans h'.indices.symm
  obtain rfl : surface = surface' := h.surface.trans h'.surface.symm
  obtain rfl : layers = layers' := h.layers.trans h'.layers.symm
  obtain rfl : bits = bits' := hbits
  rfl

end MeshTriangle

namespace MeshData

variable {α : Type} [Scalar α] {triangles : Array MeshTriangle} {es fs : List Edge}

/-! ## §B Marking a list of edges -/

/-- The triangles with some edges marked as seams. -/
def markAll (triangles : Array MeshTriangle) (es : List Edge) : Array MeshTriangle :=
  es.foldl markEdge triangles

@[simp] theorem size_markAll (triangles : Array MeshTriangle) (es : List Edge) :
    (markAll triangles es).size = triangles.size := by
  unfold markAll
  induction es generalizing triangles with
  | nil => rfl
  | cons e es ih =>
    rw [List.foldl_cons, ih]
    exact Array.size_modify

theorem markAll_concat (triangles : Array MeshTriangle) (es : List Edge) (e : Edge) :
    markAll triangles (es ++ [e]) = markEdge (markAll triangles es) e := by
  unfold markAll
  rw [List.foldl_append]
  rfl

/-- What is stored at a place is the triangle there with its edges on the list marked. -/
theorem marked_of_markAll {k : Nat} {t : MeshTriangle} (h : (markAll triangles es)[k]? = some t) :
    ∃ s, triangles[k]? = some s ∧ s.Marked t fun c => ⟨k, c⟩ ∈ es := by
  induction es using List.reverseRecOn generalizing t with
  | nil => exact ⟨t, h, (MeshTriangle.Marked.none t).congr fun c => by simp⟩
  | append_singleton es e ih =>
    rw [markAll_concat, markEdge, Array.getElem?_modify] at h
    by_cases he : e.triangle = k
    · rw [if_pos he, Option.map_eq_some_iff] at h
      obtain ⟨t, ht, rfl⟩ := h
      obtain ⟨s, hs, hmarked⟩ := ih ht
      refine ⟨s, hs, (hmarked.markSeam e.corner).congr fun c => ?_⟩
      obtain ⟨triangle, corner⟩ := e
      simp only [List.mem_append, List.mem_singleton, Edge.mk.injEq]
      exact or_congr_right ⟨fun hc => ⟨he.symm, hc⟩, fun hc => hc.2⟩
    · rw [if_neg he] at h
      obtain ⟨s, hs, hmarked⟩ := ih h
      refine ⟨s, hs, hmarked.congr fun c => ?_⟩
      rw [List.mem_append, List.mem_singleton]
      exact ⟨.inl, fun hc => hc.resolve_right fun hc => he (hc ▸ rfl)⟩

/-- Every triangle is still there. -/
theorem exists_markAll {k : Nat} {s : MeshTriangle} (h : triangles[k]? = some s) (es : List Edge) :
    ∃ t, (markAll triangles es)[k]? = some t ∧ s.Marked t fun c => ⟨k, c⟩ ∈ es := by
  have hk : k < (markAll triangles es).size := by
    rw [size_markAll]
    exact (Array.getElem?_eq_some_iff.mp h).1
  obtain ⟨s', hs', hmarked⟩ := marked_of_markAll (Array.getElem?_eq_getElem hk)
  obtain rfl : s = s' := Option.some.inj (h.symm.trans hs')
  exact ⟨_, Array.getElem?_eq_getElem hk, hmarked⟩

/-- It only matters which edges are on the list. -/
theorem markAll_congr (h : ∀ e, e ∈ es ↔ e ∈ fs) : markAll triangles es = markAll triangles fs := by
  refine Array.ext (by simp) fun k hk hk' => ?_
  obtain ⟨s, hs, hmarked⟩ := marked_of_markAll (Array.getElem?_eq_getElem hk)
  obtain ⟨s', hs', hmarked'⟩ := marked_of_markAll (Array.getElem?_eq_getElem hk')
  obtain rfl : s = s' := Option.some.inj (hs.symm.trans hs')
  exact hmarked.unique (hmarked'.congr fun c => (h ⟨k, c⟩).symm)

/-! ## §C The marks of a group -/

/-- The two edges belong to triangles in one plane. -/
def InOnePlane (normals : Array (Vec3 α)) (e f : Edge) : Prop :=
  coplanar < (normals.getD e.triangle Vec3.zero).dot (normals.getD f.triangle Vec3.zero)

instance (normals : Array (Vec3 α)) (e f : Edge) : Decidable (InOnePlane normals e f) :=
  inferInstanceAs (Decidable (_ < _))

/-- The edges among some between the same vertices that are marked, in the order in which they are. -/
def seamsAmong (normals : Array (Vec3 α)) : List Edge → List Edge
  | [] => []
  | e :: rest =>
    (rest.flatMap fun f => if InOnePlane normals e f then [e, f] else []) ++ seamsAmong normals rest

theorem markPair_eq (normals : Array (Vec3 α)) (e : Edge) (triangles : Array MeshTriangle) (f : Edge) :
    markPair normals e triangles f =
      markAll triangles (if InOnePlane normals e f then [e, f] else []) := by
  by_cases h : InOnePlane normals e f
  · rw [if_pos h]
    exact if_pos h
  · rw [if_neg h]
    exact if_neg h

theorem markSharing_eq (normals : Array (Vec3 α)) (triangles : Array MeshTriangle) (g : List Edge) :
    markSharing normals triangles g = markAll triangles (seamsAmong normals g) := by
  induction g generalizing triangles with
  | nil => rfl
  | cons e rest ih =>
    rw [markSharing, ih, seamsAmong]
    unfold markAll
    rw [List.foldl_append, List.foldl_flatMap]
    congr 1
    exact congrArg (fun f => rest.foldl f triangles) (funext₂ fun ts f => markPair_eq normals e ts f)

/-- **Marking seams marks a list of edges**, those that each group of edges gives. -/
theorem markSeamsBy_eq (arrange : List (List Edge) → List (List Edge)) (normals : Array (Vec3 α))
    (triangles : Array MeshTriangle) : markSeamsBy arrange normals triangles =
      markAll triangles ((arrange (sharedEdges triangles)).flatMap (seamsAmong normals)) := by
  unfold markSeamsBy markAll
  rw [List.foldl_flatMap]
  exact congrArg (fun f => (arrange (sharedEdges triangles)).foldl f triangles)
    (funext₂ fun ts g => markSharing_eq normals ts g)

end MeshData

end ConvexCollision
