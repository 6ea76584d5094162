import Mathlib.Topology.Algebra.Group.Basic
import Mathlib.Topology.Homeomorph.Lemmas
import Mathlib.Topology.Instances.Real.Lemmas
import ConvexCollision.Proofs.Exact.BodyBox

/-!
# ConvexCollision.Proofs.Exact.Interior -- the points strictly inside a solid

Space has the topology of its three coordinates. A point in the interior of a solid can be pushed a little
further along any direction without leaving the solid, so it falls short of every support point
(`Support.fallsShort_of_mem_interior`). An open set within the solid that holds all such points is therefore
the interior (`Support.interior_solid_eq`), which gives the interior of a box, a ball and an upright cylinder
in closed form.

A unit yaw and a move take space to itself in both directions continuously (`Placed.frame`), so the interior
of a solid that is put in place is the interior of the solid, put in place
(`Placed.mem_interior_solid_iff`).
-/

namespace ConvexCollision

open Rotation

/-! ## §A The topology of space -/

namespace Vec3

/-- Vectors lie close together when their coordinates do. -/
noncomputable instance : TopologicalSpace (Vec3 ℝ) := .induced coords inferInstance

theorem continuous_coords : Continuous coords := continuous_induced_dom

@[fun_prop] theorem continuous_x : Continuous (x : Vec3 ℝ → ℝ) := (continuous_apply 0).comp continuous_coords

@[fun_prop] theorem continuous_y : Continuous (y : Vec3 ℝ → ℝ) := (continuous_apply 1).comp continuous_coords

@[fun_prop] theorem continuous_z : Continuous (z : Vec3 ℝ → ℝ) := (continuous_apply 2).comp continuous_coords

/-- A map into space is continuous when its three coordinates are. -/
theorem continuous_of_coord {X : Type*} [TopologicalSpace X] {f : X → Vec3 ℝ}
    (hx : Continuous fun t => (f t).x) (hy : Continuous fun t => (f t).y)
    (hz : Continuous fun t => (f t).z) : Continuous f := by
  refine continuous_induced_rng.mpr (continuous_pi fun i => ?_)
  fin_cases i
  · exact hx
  · exact hy
  · exact hz

/-- A point moves continuously along a line. -/
theorem continuous_line (p d : Vec3 ℝ) : Continuous fun t : ℝ => p + t • d := by
  refine continuous_of_coord ?_ ?_ ?_ <;> simp only [add_x, add_y, add_z, smul_x, smul_y, smul_z] <;> fun_prop

theorem dot_self_lt {v : Vec3 ℝ} {c : ℝ} (h : v.length < c) : v.dot v < c * c := by
  rw [← length_mul_self]
  exact mul_self_lt_mul_self v.length_nonneg h

/-- Every vector lies along some direction, and a level one along a level direction. -/
theorem exists_dot_eq_length_mul (w : Vec3 ℝ) :
    ∃ d : Vec3 ℝ, d ≠ 0 ∧ d.dot w = d.length * w.length ∧ (w.y = 0 → d.y = 0) := by
  by_cases hw : w = 0
  · refine ⟨unitX, ?_, ?_, fun _ => ?_⟩
    · intro h
      have hone := congrArg x h
      simp [unitX] at hone
    · rw [hw, dot_zero, length_zero, mul_zero]
    · simp [unitX]
  · exact ⟨w, hw, (length_mul_self w).symm, id⟩

end Vec3

/-! ## §B Falling short of the support points -/

namespace Support

/-- The point lies less far along every direction than the point which the function gives for it. -/
def FallsShort (a : Support ℝ) (x : Vec3 ℝ) : Prop := ∀ d : Vec3 ℝ, d ≠ 0 → d.dot x < d.dot (a d)

variable {a : Support ℝ} {S : Set (Vec3 ℝ)} {x : Vec3 ℝ}

theorem fallsShort_of_mem_interior (hx : x ∈ interior (solid a)) : FallsShort a x := by
  intro d hd
  have hstart : x + (0 : ℝ) • d = x := by rw [zero_smul, add_zero]
  -- a short way along the direction still ends in the solid
  have hnear : ∀ᶠ t in nhds (0 : ℝ), x + t • d ∈ interior (solid a) :=
    (Vec3.continuous_line x d).continuousAt.eventually_mem (isOpen_interior.mem_nhds (hstart.symm ▸ hx))
  obtain ⟨t, hmem, ht⟩ :=
    ((hnear.filter_mono nhdsWithin_le_nhds).and (self_mem_nhdsWithin (s := Set.Ioi 0))).exists
  have hreach := interior_subset hmem d
  rw [Vec3.dot_add, Vec3.dot_smul] at hreach
  have hfurther : 0 < t * d.dot d := mul_pos ht (Vec3.dot_self_pos hd)
  linarith

/-- An open set within a solid is its interior, when it holds all points that fall short of every support
point. -/
theorem interior_solid_eq (hopen : IsOpen S) (hsub : S ⊆ solid a)
    (hshort : ∀ x, FallsShort a x → x ∈ S) : interior (solid a) = S :=
  Set.Subset.antisymm (fun x hx => hshort x (fallsShort_of_mem_interior hx)) (interior_maximal hsub hopen)

end Support

/-- A function that is the exact support function of some set is that of its solid. -/
theorem IsSupport.solid {a : Support ℝ} {A : Set (Vec3 ℝ)} (h : IsSupport a A) :
    IsSupport a (Support.solid a) where
  mem d := h.subset_solid (h.mem d)
  le d _ hx := hx d

theorem HalfAxis.dir_ne_zero (side : HalfAxis) : side.dir ≠ 0 := by
  obtain ⟨axis, forward⟩ := side
  cases axis <;> cases forward <;> simp [dir, unit, Vec3.unitX, Vec3.unitY, Vec3.unitZ, Vec3.ext_iff]

/-! ## §C The insides of solids -/

namespace Shape

variable {radius height : ℝ} {half : Vec3 ℝ} {v : Vec3 ℝ}

/-- The support points of a solid that lies evenly about the origin are as far out as it reaches. -/
theorem lt_evenReach (shape : Shape ℝ) (heven : shape.IsEven)
    (h : Support.FallsShort shape.support v) {d : Vec3 ℝ} (hd : d ≠ 0) : d.dot v < shape.evenReach d := by
  rw [← dot_support heven]
  exact h d hd

/-- A point that falls short of every support point lies strictly between the sides of the box. -/
theorem between_sides (shape : Shape ℝ) (heven : shape.IsEven)
    (h : Support.FallsShort shape.support v) (axis : Axis) :
    (shape.boundingBox none).mins.coord axis < v.coord axis ∧
      v.coord axis < (shape.boundingBox none).maxs.coord axis := by
  have hside (side : HalfAxis) : side.dir.dot v < (shape.boundingBox none).reach side := by
    have hlevel : KeepsLength none := by rintro r ⟨⟩
    rw [reach_boundingBox_of_isEven heven hlevel]
    exact lt_evenReach shape heven h side.dir_ne_zero
  have hback := hside ⟨axis, false⟩
  have hforward := hside ⟨axis, true⟩
  rw [HalfAxis.backward_dot, Bounds.reach_backward, neg_lt_neg_iff] at hback
  rw [HalfAxis.forward_dot, Bounds.reach_forward] at hforward
  exact ⟨hback, hforward⟩

theorem interior_solid_box (hx : 0 ≤ half.x) (hy : 0 ≤ half.y) (hz : 0 ≤ half.z) :
    interior (Support.solid (box half).support) = {v | |v.x| < half.x ∧ |v.y| < half.y ∧ |v.z| < half.z} := by
  refine Support.interior_solid_eq ?_ ?_ fun v hv => ?_
  · have hopen (f : Vec3 ℝ → ℝ) (hf : Continuous f) (c : ℝ) : IsOpen {v | |f v| < c} :=
      isOpen_lt hf.abs continuous_const
    exact (hopen _ Vec3.continuous_x _).inter
      ((hopen _ Vec3.continuous_y _).inter (hopen _ Vec3.continuous_z _))
  · exact fun v hv => (isSupport_box hx hy hz).subset_solid ⟨hv.1.le, hv.2.1.le, hv.2.2.le⟩
  · have hsides := between_sides (box half) trivial hv
    exact ⟨abs_lt.mpr (hsides .x), abs_lt.mpr (hsides .y), abs_lt.mpr (hsides .z)⟩

theorem interior_solid_sphere (hradius : 0 ≤ radius) :
    interior (Support.solid (sphere radius).support) = {v | v.lengthSq < radius * radius} := by
  refine Support.interior_solid_eq ?_ ?_ fun v hv => ?_
  · simp only [Vec3.lengthSq_eq, Vec3.dot_def]
    exact isOpen_lt (by fun_prop) continuous_const
  · intro v hv
    exact (isSupport_sphere hradius).subset_solid (Real.sqrt_le_iff.mpr ⟨hradius, sq radius ▸ hv.le⟩)
  · obtain ⟨d, hd, hdot, -⟩ := v.exists_dot_eq_length_mul
    have hshort := lt_evenReach (sphere radius) trivial hv hd
    rw [evenReach, hdot] at hshort
    exact Vec3.dot_self_lt (lt_of_mul_lt_mul_left hshort d.length_nonneg)

theorem interior_solid_cylinder (hradius : 0 ≤ radius) (hheight : 0 ≤ height) :
    interior (Support.solid (cylinder radius height).support) =
      {v | |v.y| < height ∧ v.x * v.x + v.z * v.z < radius * radius} := by
  refine Support.interior_solid_eq ?_ ?_ fun v hv => ⟨?_, ?_⟩
  · have hround : Continuous fun v : Vec3 ℝ => v.x * v.x + v.z * v.z := by fun_prop
    exact (isOpen_lt Vec3.continuous_y.abs continuous_const).inter (isOpen_lt hround continuous_const)
  · intro v hv
    exact (isSupport_cylinder hradius hheight).subset_solid
      ⟨Real.sqrt_le_iff.mpr ⟨hradius, sq radius ▸ hv.2.le⟩, hv.1.le⟩
  · exact abs_lt.mpr (between_sides (cylinder radius height) trivial hv .y)
  · -- seen from above the solid is a disc, and a level direction reaches its rim
    obtain ⟨d, hd, hdot, hlevel⟩ := (Vec2.flat ⟨v.x, v.z⟩).exists_dot_eq_length_mul
    have hlevel : d.y = 0 := hlevel rfl
    have hflat : Vec2.flat ⟨d.x, d.z⟩ = d := Vec3.ext rfl hlevel.symm rfl
    have hsame : d.dot (Vec2.flat ⟨v.x, v.z⟩) = d.dot v := by simp [Vec3.dot_def, Vec2.flat, hlevel]
    have hshort := lt_evenReach (cylinder radius height) trivial hv hd
    rw [evenReach, ← Vec2.length_flat, hflat, hlevel, abs_zero, zero_mul, add_zero, ← hsame, hdot] at hshort
    have hround := Vec3.dot_self_lt (lt_of_mul_lt_mul_left hshort d.length_nonneg)
    rwa [Vec2.flat_dot_flat] at hround

end Shape

/-! ## §D Solids in their places -/

theorem Bounds.reach_translate (b : Bounds ℝ) (offset : Vec3 ℝ) (side : HalfAxis) :
    (b.translate offset).reach side = b.reach side + side.dir.dot offset := by
  obtain ⟨axis, forward⟩ := side
  cases forward
  · rw [reach_backward, reach_backward, HalfAxis.backward_dot, translate, Vec3.coord_add, neg_add]
  · rw [reach_forward, reach_forward, HalfAxis.forward_dot, translate, Vec3.coord_add]

namespace Rotation

variable {turn : Option (Rotation ℝ)} (hturn : KeepsLength turn) (v : Vec3 ℝ)

include hturn

theorem yawed_unyawed : yawed turn (unyawed turn v) = v := by
  cases turn with
  | none => rfl
  | some r =>
    have hunit := hturn r rfl
    ext
    · show (v.x * r.cos + v.z * r.sin) * r.cos - (v.z * r.cos - v.x * r.sin) * r.sin = v.x
      linear_combination v.x * hunit
    · rfl
    · show (v.z * r.cos - v.x * r.sin) * r.cos + (v.x * r.cos + v.z * r.sin) * r.sin = v.z
      linear_combination v.z * hunit

theorem unyawed_yawed : unyawed turn (yawed turn v) = v := by
  cases turn with
  | none => rfl
  | some r =>
    have hunit := hturn r rfl
    ext
    · show (v.x * r.cos - v.z * r.sin) * r.cos + (v.z * r.cos + v.x * r.sin) * r.sin = v.x
      linear_combination v.x * hunit
    · rfl
    · show (v.z * r.cos + v.x * r.sin) * r.cos - (v.x * r.cos - v.z * r.sin) * r.sin = v.z
      linear_combination v.z * hunit

omit hturn in
@[simp] theorem unyawed_y : (unyawed turn v).y = v.y := by
  cases turn <;> rfl

/-- A direction that is turned back is as long seen from above as it was. -/
theorem unyawed_flat_dot_self :
    (unyawed turn v).x * (unyawed turn v).x + (unyawed turn v).z * (unyawed turn v).z =
      v.x * v.x + v.z * v.z := by
  have hlength := unyawed_dot_self v hturn
  simp only [Vec3.dot_def, unyawed_y] at hlength
  linarith

end Rotation

namespace Placed

/-- A point of the world, as the solid that is put in place sees it. -/
def unplace {α : Type} [Scalar α] (p : Placed α) (x : Vec3 α) : Vec3 α := unyawed p.rotation (x - p.position)

variable {p : Placed ℝ} (hturn : KeepsLength p.rotation) {x : Vec3 ℝ}

theorem continuous_place : Continuous p.place := by
  unfold place yawed
  cases p.rotation <;> refine Vec3.continuous_of_coord ?_ ?_ ?_ <;> simp [yawToWorld] <;> fun_prop

theorem continuous_unplace : Continuous p.unplace := by
  unfold unplace unyawed
  cases p.rotation <;> refine Vec3.continuous_of_coord ?_ ?_ ?_ <;> simp [yawToLocal] <;> fun_prop

include hturn

theorem place_unplace (x : Vec3 ℝ) : p.place (p.unplace x) = x := by
  rw [place, unplace, yawed_unyawed hturn, sub_add_cancel]

theorem unplace_place (x : Vec3 ℝ) : p.unplace (p.place x) = x := by
  rw [place, unplace, add_sub_cancel_right, unyawed_yawed hturn]

/-- The world as the solid that is put in place sees it, under a unit yaw or none. -/
noncomputable def frame : Vec3 ℝ ≃ₜ Vec3 ℝ where
  toFun := p.unplace
  invFun := p.place
  left_inv := place_unplace hturn
  right_inv := unplace_place hturn
  continuous_toFun := continuous_unplace
  continuous_invFun := continuous_place

/-- A point lies in a solid that is put in place when the solid sees it within. -/
theorem mem_solid_iff : x ∈ Support.solid p.support ↔ p.unplace x ∈ Support.solid p.shape.support := by
  have hreach (d : Vec3 ℝ) : d.dot x ≤ d.dot (p.support d) ↔
      (unyawed p.rotation d).dot (p.unplace x) ≤
        (unyawed p.rotation d).dot (p.shape.support (unyawed p.rotation d)) := by
    conv_lhs => rw [← place_unplace hturn x]
    rw [support_eq, dot_place, dot_place, one_mul, one_mul, add_le_add_iff_right]
  constructor
  · intro hx d
    have h := (hreach (yawed p.rotation d)).mp (hx _)
    rwa [unyawed_yawed hturn] at h
  · exact fun hx d => (hreach d).mpr (hx _)

/-- A point lies inside a solid that is put in place when the solid sees it inside. -/
theorem mem_interior_solid_iff :
    x ∈ interior (Support.solid p.support) ↔ p.unplace x ∈ interior (Support.solid p.shape.support) := by
  have hsolid : Support.solid p.support = Set.preimage (frame hturn) (Support.solid p.shape.support) :=
    Set.ext fun _ => mem_solid_iff hturn
  rw [hsolid, ← (frame hturn).preimage_interior]
  rfl

/-- The box of a solid that is put in place and lies evenly about its position holds all of it. -/
theorem boundingBox_holds (heven : p.shape.IsEven) (hx : x ∈ Support.solid p.support) :
    p.boundingBox.Holds x := by
  refine Bounds.holds_iff.mpr fun side => (hx side.dir).trans_eq ?_
  rw [support_eq, dot_place, one_mul, Shape.dot_support heven, ← Shape.reach_boundingBox_of_isEven heven hturn,
    boundingBox, Bounds.reach_translate]

end Placed

end ConvexCollision
