import Mathlib.Analysis.SpecialFunctions.Trigonometric.Basic
import ConvexCollision.Proofs.Mesh.Lookup
import ConvexCollision.Proofs.Mesh.Seams
import ConvexCollision.Proofs.Mesh.Rounded

/-!
# ConvexCollision.Proofs.Mesh.OwnContact -- whether a triangle keeps the contact of its own face

A contact is dropped where its normal leans out across a seam, and the normal of a face leans out of it by
nothing. That is so in exact numbers, and it is so after rounding for a triangle square to an axis, however
large it is: what leads out across an edge has nothing on that axis, and the normal has nothing on the others
(`leansAcross_of_squareTo`). Any other triangle leans by what rounding leaves, and that grows with the triangle
while the tolerance does not. It stays below the tolerance for triangles of moderate size
(`leansAcross_of_moderate`). On a steep face with long sides it may not, and where two such triangles share a
seam it can be that neither keeps the contact of their common face.
-/

namespace ConvexCollision

open Scalar (IsNull Nulls)
open Single (toReal relative relative_eq)

/-! ## §A Triangles square to an axis -/

namespace Triangle

variable {α : Type} [Scalar α] {t : Triangle α} {axis : Axis}

/-- The triangle lies square to an axis: its corners have the same coordinate on it. -/
def SquareTo (t : Triangle α) (axis : Axis) : Prop :=
  ∀ c d, (t.corner c).coord axis = (t.corner d).coord axis

variable [Nulls α]

theorem SquareTo.isNull_sub (h : t.SquareTo axis) (c d : Corner) :
    IsNull ((t.corner c - t.corner d).coord axis) := by
  rw [Vec3.coord_sub, h c d]
  exact Nulls.isNull_sub_self _

/-- The normal lies along the axis. -/
theorem SquareTo.isNull_normal (h : t.SquareTo axis) (other : Axis) (hother : other ≠ axis) :
    IsNull (t.normal.coord other) := by
  have hcross := Vec3.isNull_cross hother (h.isNull_sub .second .first) (h.isNull_sub .third .first)
  unfold normal Vec3.normalizeOrZero
  dsimp only
  split
  · cases other <;> exact Nulls.isNull_mul_left _ hcross
  · cases other <;> exact Nulls.isNull_zero

/-- The way out across an edge leads along no axis that the triangle is square to. -/
theorem SquareTo.isNull_outward (h : t.SquareTo axis) (c : Corner) :
    IsNull ((t.outward c).coord axis) := by
  have hoffset := h.isNull_sub c.next c
  have hopposite := h.isNull_sub c.next.next c
  cases axis <;> exact Nulls.isNull_sub (Nulls.isNull_mul_left _ hoffset) hopposite

end Triangle

namespace MeshData

open Triangle

/-- The face of a triangle that is square to an axis leans across no edge. -/
theorem leansAcross_of_squareTo {t : Triangle Float32} {axis : Axis} (h : t.SquareTo axis) (c : Corner) :
    leansAcross t t.normal c = false :=
  decide_eq_false ((Vec3.isNull_dot (h.isNull_outward c) h.isNull_normal).not_lt (by decide +kernel))

/-- A contact that leans across no edge is kept. -/
theorem keepsContact_eq_true {α : Type} [Scalar α] {m : MeshData α} {i : Nat} {t : Triangle α}
    {normal : Vec3 α} (ht : m.triangle i = .ok t) (h : ∀ c, leansAcross t normal c = false) :
    m.keepsContact i normal = .ok true := by
  unfold triangle at ht
  obtain ⟨s, hs, hlocate⟩ := bind_eq_ok_iff.mp ht
  have hnone : (Corner.all.filter s.isSeam).any (leansAcross t normal) = false := by
    rw [List.any_eq_false]
    intro c _
    rw [h c]
    exact Bool.false_ne_true
  unfold keepsContact
  rw [hs]
  by_cases hseams : (Corner.all.filter s.isSeam).isEmpty = true
  · simp [bind, Except.bind, pure, Except.pure, hseams]
  · simp [bind, Except.bind, pure, Except.pure, hseams, hlocate, hnone]

end MeshData

/-! ## §B Own contacts -/

namespace MeshData

open Triangle

theorem lt_seamTolerance : 1400 * relative < toReal seamTolerance := by
  have hvalue : Single.value seamTolerance = 13743895 * 2 ^ 112 := by decide +kernel
  rw [Single.toReal_eq, hvalue]
  norm_num [relative_eq]

/-- The face of a triangle of moderate size leans across no edge. -/
theorem leansAcross_of_moderate {t : Triangle Float32} {l : ℝ} (h : t.exact.Moderate l)
    (hfinite : ∀ c, (t.corner c).IsFinite) (c : Corner) : leansAcross t t.normal c = false := by
  refine decide_eq_false fun hleans => ?_
  have herror := (h.near_outward_dot_normal hfinite c).error_le
  rw [sub_zero] at herror
  have hreal := Single.toReal_lt_toReal hleans
  linarith [le_abs_self (toReal ((t.outward c).dot t.normal)), lt_seamTolerance]

/-- The corners of a triangle of a mesh that was built are among its vertices. -/
theorem corner_of_build {vertices : Array (Vec3 Float32)} {triangles : Array MeshTriangle}
    {m : MeshData Float32} (h : build vertices triangles = .ok m) {i : Nat} (hi : i < m.triangles.size) :
    ∃ t, m.triangle i = .ok t ∧ ∀ c, t.corner c ∈ vertices := by
  obtain ⟨hvertices, items, order, hbuilt⟩ := builtOf_of_build h
  have hrange := hbuilt.inRange
  refine ⟨_, hrange.triangle_eq_ok hi, fun c => ?_⟩
  have hlt := hrange.corners m.triangles[i] (Array.getElem_mem hi) c
  rw [← hvertices]
  have hcorner : (corners m.vertices m.triangles[i]).corner c =
      m.vertices[(m.triangles[i].index c).toNat] := by
    cases c <;> simp [corners, Triangle.corner, Array.getD_eq_getD_getElem?, Array.getElem?_eq_getElem hlt]
  rw [hcorner]
  exact Array.getElem_mem hlt

/-- **A triangle keeps the contact of its own face** if it is square to an axis, of any size, or if it is of
moderate size. Whether the contact is kept is decided without a fault, and its edges may be seams or not. -/
theorem keepsContact_normal {vertices : Array (Vec3 Float32)} {triangles : Array MeshTriangle}
    {m : MeshData Float32} (h : build vertices triangles = .ok m) (hfinite : ∀ v ∈ vertices, v.IsFinite)
    {i : Nat} (hi : i < m.triangles.size) : ∃ t, m.triangle i = .ok t ∧
      ((∃ axis, t.SquareTo axis) ∨ (∃ l, t.exact.Moderate l) → m.keepsContact i t.normal = .ok true) := by
  obtain ⟨t, ht, hcorners⟩ := corner_of_build h hi
  refine ⟨t, ht, fun hshape => keepsContact_eq_true ht fun c => ?_⟩
  rcases hshape with ⟨axis, hsquare⟩ | ⟨l, hmoderate⟩
  · exact leansAcross_of_squareTo hsquare c
  · exact leansAcross_of_moderate hmoderate (fun c => hfinite _ (hcorners c)) c

/-- The two halves of a face with four corners. -/
def halves : Array MeshTriangle := #[{ indices := (0, 1, 2) }, { indices := (0, 2, 3) }]

/-- The corners of a slope. -/
def slopeVertices : Array (Vec3 Float32) := #[⟨0, 0, 0⟩, ⟨2, 1, 2⟩, ⟨0, 3, 3⟩, ⟨-2, 2, 1⟩]

/-- Its first half. -/
def slope : Triangle Float32 := ⟨⟨0, 0, 0⟩, ⟨2, 1, 2⟩, ⟨0, 3, 3⟩⟩

theorem moderate_slope : slope.exact.Moderate 5 := by
  have htwo : toReal 2 = 2 := Single.toReal_of_value (n := 2) (by decide +kernel)
  have hthree : toReal 3 = 3 := Single.toReal_of_value (n := 3) (by decide +kernel)
  have hexact : slope.exact = ⟨⟨0, 0, 0⟩, ⟨2, 1, 2⟩, ⟨0, 3, 3⟩⟩ := by
    simp only [slope, Triangle.exact, Vec3.exact, Single.toReal_zero, Single.toReal_one, htwo, hthree]
  rw [hexact]
  refine ⟨by norm_num, ?_, ?_⟩
  · intro c d
    refine Real.sqrt_le_iff.mpr ⟨by norm_num, ?_⟩
    cases c <;> cases d <;> norm_num [Triangle.corner, Vec3.lengthSq_eq, Vec3.dot_def]
  · have harea : 9 ≤ (Triangle.area ⟨⟨0, 0, 0⟩, ⟨2, 1, 2⟩, ⟨0, 3, 3⟩⟩).length :=
      Real.le_sqrt_of_sq_le (by norm_num [Triangle.area, Vec3.lengthSq_eq, Vec3.dot_def, Vec3.cross])
    norm_num at harea ⊢
    linarith

/-- The slope can be built, and its first half keeps the contact of its own face at the seam between them. -/
theorem slope_keeps_own : ∃ m, build slopeVertices halves = .ok m ∧ 0 < m.triangles.size ∧
    m.triangles.map (·.filteredEdges) = #[4, 1] ∧ m.triangle 0 = .ok slope ∧
    m.keepsContact 0 slope.normal = .ok true := by
  have hbuilt : (build slopeVertices halves).map
        (fun m => (m.triangles.map (·.filteredEdges), m.triangle 0)) =
      .ok (#[4, 1], .ok slope) := by
    decide +kernel
  obtain ⟨m, hm⟩ := exists_eq_ok_of_isOk (show (build slopeVertices halves).isOk = true by decide +kernel)
  rw [hm] at hbuilt
  obtain ⟨hseams, hslope⟩ := Prod.mk.inj (Except.ok.inj hbuilt)
  have hsize : 0 < m.triangles.size := by
    rw [← Array.size_map (f := (·.filteredEdges)), hseams]
    decide
  obtain ⟨t, ht, hkeeps⟩ := keepsContact_normal hm (by decide) hsize
  obtain rfl : slope = t := Except.ok.inj (hslope.symm.trans ht)
  exact ⟨m, hm, hsize, hseams, hslope, hkeeps (.inr ⟨5, moderate_slope⟩)⟩

/-- The corners of a steep face with long sides. -/
def steepVertices : Array (Vec3 Float32) :=
  #[⟨0, 0, 0⟩, ⟨780, -997, -885⟩, ⟨-54, 97, -485⟩, ⟨-2394, 3088, 2170⟩]

/-- Its two halves. -/
def steep : Triangle Float32 × Triangle Float32 :=
  (⟨⟨0, 0, 0⟩, ⟨780, -997, -885⟩, ⟨-54, 97, -485⟩⟩, ⟨⟨0, 0, 0⟩, ⟨-54, 97, -485⟩, ⟨-2394, 3088, 2170⟩⟩)

/-- Neither half of the steep face keeps the contact of its own face. -/
theorem steep_drops_own : ∃ m, build steepVertices halves = .ok m ∧ (∀ v ∈ steepVertices, v.IsFinite) ∧
    m.triangles.size = 2 ∧ ∀ i < 2, ∃ t, m.triangle i = .ok t ∧ t.normal ≠ Vec3.zero ∧
      m.keepsContact i t.normal = .ok false := by
  have htriangles : (build steepVertices halves).map
        (fun m => (m.triangles.size, m.triangle 0, m.triangle 1)) =
      .ok (2, .ok steep.1, .ok steep.2) := by
    decide +kernel
  have hdrops : (build steepVertices halves).map
        (fun m => (m.keepsContact 0 steep.1.normal, m.keepsContact 1 steep.2.normal)) =
      .ok (.ok false, .ok false) := by
    decide +kernel
  obtain ⟨m, hm⟩ := exists_eq_ok_of_isOk (show (build steepVertices halves).isOk = true by decide +kernel)
  rw [hm] at htriangles hdrops
  obtain ⟨hsize, htriangles⟩ := Prod.mk.inj (Except.ok.inj htriangles)
  obtain ⟨hfirst, hsecond⟩ := Prod.mk.inj htriangles
  obtain ⟨hdrops_first, hdrops_second⟩ := Prod.mk.inj (Except.ok.inj hdrops)
  refine ⟨m, hm, by decide, hsize, fun i hi => ?_⟩
  rcases Nat.le_one_iff_eq_zero_or_eq_one.mp (Nat.le_of_lt_succ hi) with rfl | rfl
  · exact ⟨steep.1, hfirst, by decide +kernel, hdrops_first⟩
  · exact ⟨steep.2, hsecond, by decide +kernel, hdrops_second⟩

end MeshData

end ConvexCollision
