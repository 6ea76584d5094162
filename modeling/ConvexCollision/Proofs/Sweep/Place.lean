import ConvexCollision.Proofs.Approach.Conservative
import ConvexCollision.Proofs.Bounds
import ConvexCollision.Proofs.Mesh.Walkable
import ConvexCollision.Proofs.World.Boxes

/-!
# ConvexCollision.Proofs.Sweep.Place -- an object on its way, and the triangles that it can meet

The solid of an object can be put at any place (`DynamicObject.solidAt`), and what a tick does to the
object leaves it the same there. On the way along a motion the object goes through the places from where
the motion began to where the object stands (`DynamicObject.onWay`), and being apart from a triangle at a
time of the approach is not to overlap it at that place.

When the cached box holds the object, the box that is stretched back along the motion holds it all the way.
So a triangle that the object overlaps somewhere on the way, and shares a layer with, is found by a look-up
in the stretched box (`Mesh.mem_visit_of_overlapsAt`).
-/

namespace ConvexCollision

/-! ## §A The object at a place -/

namespace DynamicObject

variable {o o' : DynamicObject ℝ} {place x : Vec3 ℝ}

/-- The points of the object when it stands at a place. -/
def solidAt (o : DynamicObject ℝ) (place : Vec3 ℝ) : Set (Vec3 ℝ) :=
  Support.solid ({ o with position := place } : DynamicObject ℝ).support

/-- The object shares a point with a triangle when it stands at a place. -/
def OverlapsAt (o : DynamicObject ℝ) (place : Vec3 ℝ) (t : Triangle ℝ) : Prop :=
  (t.points ∩ o.solidAt place).Nonempty

/-- Where the object is at a time of its motion, at the end of which it stands. -/
noncomputable def onWay (o : DynamicObject ℝ) (motion : Vec3 ℝ) (time : ℝ) : Vec3 ℝ :=
  o.position + (time - 1) • motion

/-- The box of the object holds all its points. -/
def Boxed (o : DynamicObject ℝ) : Prop := ∀ x ∈ o.solidAt o.position, o.box.Holds x

theorem mem_solidAt : x ∈ o.solidAt place ↔ x - place ∈ Support.solid o.kept.support := by
  refine forall_congr' fun d => ?_
  rw [support_eq_add { o with position := place }]
  show d.dot x ≤ d.dot (o.kept.support d + place) ↔ d.dot (x - place) ≤ d.dot (o.kept.support d)
  rw [Vec3.dot_add, Vec3.dot_sub, sub_le_iff_le_add]

/-- Objects that are the same but for what a tick writes to are the same at every place. -/
theorem solidAt_of_kept (h : o'.kept = o.kept) : o'.solidAt = o.solidAt := by
  funext place
  ext x
  rw [mem_solidAt, mem_solidAt, h]

/-- At another place the object has its points moved. -/
theorem add_mem_solidAt {offset : Vec3 ℝ} :
    x + offset ∈ o.solidAt (place + offset) ↔ x ∈ o.solidAt place := by
  rw [mem_solidAt, mem_solidAt, add_sub_add_right_eq_sub]

/-- The mover of an approach is the object on its way. -/
theorem solid_placed (o : DynamicObject ℝ) (motion : Vec3 ℝ) (time : ℝ) :
    Support.solid (Approach.placed o.support motion time) = o.solidAt (o.onWay motion time) := by
  ext x
  unfold Approach.placed onWay
  rw [Support.mem_solid_translate, Scalar.one_real, Vec3.mul_eq_smul]
  rw [show (x - (time - 1) • motion ∈ Support.solid o.support) =
    (x - (time - 1) • motion ∈ o.solidAt o.position) from rfl, ← add_mem_solidAt, sub_add_cancel]

/-- To be apart from a triangle is not to overlap it. -/
theorem apartAt_iff {t : Triangle ℝ} {motion : Vec3 ℝ} {time : ℝ} :
    Approach.ApartAt t.support o.support motion time ↔ ¬o.OverlapsAt (o.onWay motion time) t := by
  unfold Approach.ApartAt OverlapsAt
  rw [t.solid_support, solid_placed, Set.disjoint_iff_inter_eq_empty, Set.not_nonempty_iff_eq_empty]

/-- An object that is carried along with its box stays in it. -/
theorem Carried.boxed (h : o.Carried o') (hbox : o.Boxed) : o'.Boxed := by
  obtain ⟨offset, hposition, hmoved⟩ := h.moved.exists_offset
  intro x hx
  rw [solidAt_of_kept h.kept, hposition, ← sub_add_cancel x offset, add_mem_solidAt] at hx
  have hholds := hbox _ hx
  rw [hmoved]
  have hcoord (v : Vec3 ℝ) (axis : Axis) : (v + offset).coord axis = v.coord axis + offset.coord axis := by
    cases axis <;> rfl
  have hback (axis : Axis) : x.coord axis = (x - offset).coord axis + offset.coord axis := by
    rw [← hcoord, sub_add_cancel]
  constructor
  · intro axis
    rw [hback, show (o.box.translate offset).mins = o.box.mins + offset from rfl, hcoord]
    exact add_le_add_left (hholds.mins axis) _
  · intro axis
    rw [hback, show (o.box.translate offset).maxs = o.box.maxs + offset from rfl, hcoord]
    exact add_le_add_left (hholds.maxs axis) _

/-! ## §B The stretched box -/

/-- The box that is stretched back along the motion holds the object all the way. -/
theorem Boxed.holds (hbox : o.Boxed) {motion : Vec3 ℝ} {time : ℝ} (h : 0 ≤ time) (h1 : time ≤ 1)
    (hx : x ∈ o.solidAt (o.onWay motion time)) : (o.box.extendDirection (-motion)).Holds x := by
  rw [onWay, ← sub_add_cancel x ((time - 1) • motion), add_mem_solidAt] at hx
  have hholds := hbox _ hx
  -- on each axis the object is behind where it stands by at most the motion
  have hback (axis : Axis) :
      x.coord axis = (x - (time - 1) • motion).coord axis + (1 - time) * -motion.coord axis := by
    cases axis <;> simp only [Vec3.coord, Vec3.sub_x, Vec3.sub_y, Vec3.sub_z, Vec3.smul_x, Vec3.smul_y,
      Vec3.smul_z] <;> ring
  have hmins (axis : Axis) : (o.box.extendDirection (-motion)).mins.coord axis =
      o.box.mins.coord axis + min (-motion.coord axis) 0 := by
    unfold Bounds.extendDirection
    simp only [Scalar.minNum_real, Scalar.zero_real]
    cases axis <;> rfl
  have hmaxs (axis : Axis) : (o.box.extendDirection (-motion)).maxs.coord axis =
      o.box.maxs.coord axis + max (-motion.coord axis) 0 := by
    unfold Bounds.extendDirection
    simp only [Scalar.maxNum_real, Scalar.zero_real]
    cases axis <;> rfl
  have hpart (c : ℝ) : min c 0 ≤ (1 - time) * c ∧ (1 - time) * c ≤ max c 0 := by
    rcases le_total c 0 with hc | hc
    · rw [min_eq_left hc, max_eq_right hc]
      constructor <;> nlinarith
    · rw [min_eq_right hc, max_eq_left hc]
      constructor <;> nlinarith
  constructor
  · intro axis
    rw [hmins, hback]
    exact add_le_add (hholds.mins axis) (hpart _).1
  · intro axis
    rw [hmaxs, hback]
    exact add_le_add (hholds.maxs axis) (hpart _).2

end DynamicObject

/-- Boxes that hold a common point meet. -/
theorem Bounds.Holds.intersects {b b' : Bounds ℝ} {x : Vec3 ℝ} (h : b.Holds x) (h' : b'.Holds x) :
    b.intersects b' = true := by
  rw [Bounds.intersects_iff]
  intro axis
  exact ⟨not_lt.mpr ((h'.mins axis).trans (h.maxs axis)), not_lt.mpr ((h.mins axis).trans (h'.maxs axis))⟩

/-- **No triangle in the way is overlooked.** In a mesh that was built, a look-up in the stretched box
finds every triangle that shares a layer with the object and that the object overlaps on its way. -/
theorem Mesh.mem_visit_of_overlapsAt {vertices : Array (Vec3 ℝ)} {triangles : Array MeshTriangle}
    {m : Mesh ℝ} (h : Mesh.build vertices triangles = .ok m) {o : DynamicObject ℝ} (hbox : o.Boxed)
    {motion : Vec3 ℝ} {found : Array Nat}
    (hvisit : m.visit (o.box.extendDirection (-motion)) o.layers = .ok found) {i : Nat}
    (hi : i < m.triangleCount) (hlayers : (m.stored i).layers.intersects o.layers = true) {time : ℝ}
    (ht : 0 ≤ time) (ht1 : time ≤ 1) (hoverlap : o.OverlapsAt (o.onWay motion time) (m.triangle i)) :
    i ∈ found := by
  obtain ⟨x, hx, hsolid⟩ := hoverlap
  have hmeets := (Triangle.bounds_holds hx).intersects (hbox.holds ht ht1 hsolid)
  obtain ⟨-, items, order, hbuilt⟩ := MeshData.builtOf_of_build (Mesh.build_data h)
  have hstored := Mesh.getElem?_eq_stored hi
  have hdefined : (o.box.extendDirection (-motion)).Defined := ⟨fun _ => le_refl _, fun _ => le_refl _⟩
  obtain ⟨hmesh, hmet⟩ := hbuilt.mem_lookupTrace (fun v _ => Triangle.isFinite_real v) hdefined hstored
    hmeets
  have hlookup : m.data.lookup _ _ = .ok found := Mesh.visit_eq_ok_iff.mp hvisit
  rw [hbuilt.inRange.lookup_eq, if_pos hmesh, (hbuilt.lookupTrace _).1] at hlookup
  rw [← Except.ok.inj hlookup, List.mem_toArray, List.mem_filter]
  refine ⟨hmet, ?_⟩
  unfold MeshData.isMet
  rw [hstored]
  show ((m.stored i).layers.intersects o.layers && (m.triangle i).bounds.intersects _) = true
  rw [hlayers, hmeets]
  rfl

end ConvexCollision
