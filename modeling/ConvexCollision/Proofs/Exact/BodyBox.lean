import Mathlib.Analysis.SpecialFunctions.Trigonometric.Basic
import ConvexCollision.Proofs.Exact.Body
import ConvexCollision.Proofs.Exact.Box

/-!
# ConvexCollision.Proofs.Exact.BodyBox -- the boxes of solids and of objects

The box of a round solid or of a box under a yaw is written down by a formula, that of a pyramid or a kite is
made from its support points along the half axes, that of a swing from its turned corners. Each formula says
how far the support points lie out along the half axes (`Shape.reach_boundingBox_of_isEven`), so all of them
are the smallest box around the turned solid (`Shape.boundingBox_isSmallest_iff`). The box of an object is the
box of its shape, enlarged and moved, or, when the object is pitched, the box of its own support points.

The one exception is again the swing, whose search and whose box both begin at the ends of the finite range.
Its own box is the smallest one when along each half axis some turned corner does not fall short of the end
of the range (`Shape.Spans`), and the box of a pitched swing when some corner comes before that end. Where
all corners lie there, the support point is the origin, and a level pitch alone changes the box
(`DynamicObject.level_currentBox_eq_iff`).
-/

namespace ConvexCollision

open Rotation

/-! ## §A Turned sets -/

namespace Rotation

/-- The turn, if there is one, keeps lengths. -/
def KeepsLength (turn : Option (Rotation ℝ)) : Prop := ∀ r ∈ turn, r.cos * r.cos + r.sin * r.sin = 1

variable (turn : Option (Rotation ℝ)) (v : Vec3 ℝ)

theorem yawToWorld_getD : (turn.getD identity).yawToWorld v = yawed turn v := by
  cases turn with
  | none => ext <;> simp [yawToWorld, yawed, identity]
  | some r => rfl

theorem yawToLocal_getD : (turn.getD identity).yawToLocal v = unyawed turn v := by
  cases turn with
  | none => ext <;> simp [yawToLocal, unyawed, identity]
  | some r => rfl

theorem unyawed_neg : unyawed turn (-v) = -unyawed turn v := by
  cases turn with
  | none => rfl
  | some r => ext <;> simp [yawToLocal, unyawed] <;> ring

/-- A direction of the world that is turned back has its old length. -/
theorem unyawed_dot_self {turn : Option (Rotation ℝ)} (hturn : KeepsLength turn) :
    (unyawed turn v).dot (unyawed turn v) = v.dot v := by
  cases turn with
  | none => rfl
  | some r =>
    have hunit := hturn r rfl
    simp only [unyawed, yawToLocal, Vec3.dot_def]
    linear_combination (v.x * v.x + v.z * v.z) * hunit

end Rotation

variable {a : Support ℝ} {A : Set (Vec3 ℝ)} {turn : Option (Rotation ℝ)} {d : Vec3 ℝ}

/-- The support function of a set that may be turned about the vertical axis. -/
noncomputable def turnedSupport (turn : Option (Rotation ℝ)) (a : Support ℝ) : Support ℝ :=
  fun d => yawed turn (a (unyawed turn d))

theorem dot_turnedSupport (turn : Option (Rotation ℝ)) (a : Support ℝ) (d : Vec3 ℝ) :
    d.dot (turnedSupport turn a d) = (unyawed turn d).dot (a (unyawed turn d)) := dot_yawed _ _ _

theorem Furthest.yawed (h : Furthest a A (unyawed turn d)) :
    Furthest (turnedSupport turn a) (yawed turn '' A) d :=
  h.moved zero_le_one (c := 0) (fun p => by rw [dot_yawed, one_mul, add_zero]) rfl

/-! ## §B How far solids reach -/

theorem mul_signSelect (v extent : ℝ) : v * signSelect v extent = |v| * extent := by
  simp only [signSelect, Scalar.zero_real]
  split
  · rw [abs_of_pos ‹_›]
  · rw [abs_of_nonpos (not_lt.mp ‹_›), neg_mul, mul_neg]

theorem Vec2.dot_normalizeOrZero (v : Vec2 ℝ) : v.dot v.normalizeOrZero = v.length := by
  rw [← flat_dot_flat, flat_normalizeOrZero, Vec3.dot_normalizeOrZero, length_flat]

namespace Shape

/-- How far a solid that lies evenly about the origin reaches along a direction. -/
noncomputable def evenReach : Shape ℝ → Vec3 ℝ → ℝ
  | .box half, d => |d.x| * half.x + |d.y| * half.y + |d.z| * half.z
  | .sphere radius, d => d.length * radius
  | .capsule radius innerHalfHeight, d => d.length * radius + |d.y| * innerHalfHeight
  | .cylinder radius halfHeight, d => Vec2.length ⟨d.x, d.z⟩ * radius + |d.y| * halfHeight
  | .cylinderHorz radius halfHeight, d => Vec2.length ⟨d.x, d.y⟩ * radius + |d.z| * halfHeight
  | _, _ => 0

/-- The solid lies evenly about the origin. -/
def IsEven : Shape ℝ → Prop
  | .box _ | .sphere _ | .capsule _ _ | .cylinder _ _ | .cylinderHorz _ _ => True
  | .cone _ | .sweep _ _ _ | .swing _ => False

variable {shape : Shape ℝ}

theorem evenReach_neg (shape : Shape ℝ) (d : Vec3 ℝ) : shape.evenReach (-d) = shape.evenReach d := by
  have hlength : (-d).length = d.length := congrArg Real.sqrt (Vec3.lengthSq_neg d)
  cases shape <;>
    simp only [evenReach, hlength, Vec3.neg_x, Vec3.neg_y, Vec3.neg_z, abs_neg, Vec2.length, Vec2.lengthSq,
      Vec2.dot, neg_mul_neg]

theorem dot_support (heven : shape.IsEven) (d : Vec3 ℝ) : d.dot (shape.support d) = shape.evenReach d := by
  cases shape with
  | box half =>
    simp only [support, evenReach, Vec3.dot_def, mul_signSelect]
  | sphere radius =>
    show d.dot (radius • d.normalizeOrZero) = _
    rw [Vec3.dot_smul, Vec3.dot_normalizeOrZero, mul_comm]
    rfl
  | capsule radius innerHalfHeight =>
    have hball : d.dot (radius • d.normalizeOrZero) = radius * d.length := by
      rw [Vec3.dot_smul, Vec3.dot_normalizeOrZero]
    have hstem := mul_signSelect d.y innerHalfHeight
    simp only [Vec3.dot_def] at hball
    simp only [support, evenReach, Vec3.dot_def, Vec3.mul_eq_smul]
    linarith
  | cylinder radius halfHeight =>
    have hdisc := Vec2.dot_normalizeOrZero ⟨d.x, d.z⟩
    have hheight := mul_signSelect d.y halfHeight
    simp only [Vec2.dot] at hdisc
    simp only [support, evenReach, Vec3.dot_def]
    rw [hheight, ← hdisc]
    show d.x * (_ * radius) + _ + d.z * (_ * radius) = _
    ring
  | cylinderHorz radius halfHeight =>
    have hdisc := Vec2.dot_normalizeOrZero ⟨d.x, d.y⟩
    have hheight := mul_signSelect d.z halfHeight
    simp only [Vec2.dot] at hdisc
    simp only [support, evenReach, Vec3.dot_def]
    rw [hheight, ← hdisc]
    show d.x * (_ * radius) + d.y * (_ * radius) + _ = _
    ring
  | cone size => exact heven.elim
  | sweep range radius halfHeight => exact heven.elim
  | swing s => exact heven.elim

/-- No yaw at all is the yaw by nothing. -/
theorem boundingBox_getD (shape : Shape ℝ) (turn : Option (Rotation ℝ)) :
    shape.boundingBox (some (turn.getD identity)) = shape.boundingBox turn := by
  cases turn with
  | some r => rfl
  | none =>
    cases shape with
    | box half =>
      simp only [boundingBox, Option.getD, identity, Scalar.abs_real, Scalar.one_real, Scalar.zero_real,
        abs_one, abs_zero, mul_one, mul_zero, add_zero, zero_add]
    | _ => rfl

theorem reach_symmetricBox (maxs : Vec3 ℝ) (side : HalfAxis) :
    (symmetricBox maxs).reach side = maxs.coord side.axis := by
  obtain ⟨axis, forward⟩ := side
  cases forward
  · show -(-maxs).coord axis = _
    cases axis <;> exact neg_neg _
  · rfl

/-- A turn takes the axes apart: x and z to each other, y to itself. -/
theorem yawToLocal_unit (r : Rotation ℝ) (axis : Axis) : r.yawToLocal (HalfAxis.unit axis) =
    match axis with
    | .x => ⟨r.cos, 0, -r.sin⟩
    | .y => ⟨0, 1, 0⟩
    | .z => ⟨r.sin, 0, r.cos⟩ := by
  cases axis <;> ext <;> simp [HalfAxis.unit, yawToLocal, Vec3.unitX, Vec3.unitY, Vec3.unitZ]

section TurnedAxis

variable {r : Rotation ℝ} (hunit : r.cos * r.cos + r.sin * r.sin = 1) (axis : Axis)

include hunit

theorem length_turned_axis : (r.yawToLocal (HalfAxis.unit axis)).length = 1 := by
  rw [Vec3.length, yawToLocal_unit, Vec3.lengthSq_eq, Vec3.dot_def]
  cases axis <;> simp [hunit, add_comm (r.sin * r.sin)]

/-- Seen from above, a turned axis still has its length, but for the upright one. -/
theorem flat_length_turned_axis :
    Vec2.length ⟨(r.yawToLocal (HalfAxis.unit axis)).x, (r.yawToLocal (HalfAxis.unit axis)).z⟩ =
      if axis = .y then 0 else 1 := by
  rw [Vec2.length, yawToLocal_unit, Vec2.lengthSq, Vec2.dot]
  cases axis <;> simp [hunit, add_comm (r.sin * r.sin)]

omit hunit in
/-- Seen along z, the turned axes have the lengths of their components across. -/
theorem upright_length_turned_axis (r : Rotation ℝ) (axis : Axis) :
    Vec2.length ⟨(r.yawToLocal (HalfAxis.unit axis)).x, (r.yawToLocal (HalfAxis.unit axis)).y⟩ =
      match axis with
      | .x => |r.cos|
      | .y => 1
      | .z => |r.sin| := by
  rw [Vec2.length, yawToLocal_unit, Vec2.lengthSq, Vec2.dot]
  cases axis <;> simp [Real.sqrt_mul_self_eq_abs]

/-- The box of a solid that lies evenly about the origin reaches as far as the solid does along the axes,
turned back. -/
theorem reach_even (heven : shape.IsEven) (forward : Bool) :
    (shape.boundingBox (some r)).reach ⟨axis, forward⟩ =
      shape.evenReach (r.yawToLocal (HalfAxis.unit axis)) := by
  cases shape with
  | box half =>
    rw [boundingBox, reach_symmetricBox, evenReach, yawToLocal_unit]
    cases axis <;> simp [Vec3.coord] <;> ring
  | sphere radius =>
    rw [boundingBox, reach_symmetricBox, evenReach, length_turned_axis hunit, one_mul]
    cases axis <;> rfl
  | capsule radius innerHalfHeight =>
    rw [boundingBox, reach_symmetricBox, evenReach, length_turned_axis hunit, yawToLocal_unit]
    cases axis <;> simp [Vec3.coord]
  | cylinder radius halfHeight =>
    rw [boundingBox, reach_symmetricBox, evenReach, flat_length_turned_axis hunit, yawToLocal_unit]
    cases axis <;> simp [Vec3.coord]
  | cylinderHorz radius halfHeight =>
    rw [boundingBox, reach_symmetricBox, evenReach, upright_length_turned_axis, yawToLocal_unit]
    cases axis <;> simp [Vec3.coord, add_comm]
  | cone size => exact heven.elim
  | sweep range radius halfHeight => exact heven.elim
  | swing s => exact heven.elim

end TurnedAxis

/-- The box of a solid that lies evenly about the origin reaches as far as the turned solid does. -/
theorem reach_boundingBox_of_isEven (heven : shape.IsEven) (hturn : KeepsLength turn) (side : HalfAxis) :
    (shape.boundingBox turn).reach side = shape.evenReach (unyawed turn side.dir) := by
  -- the box is the same to both sides of the origin
  suffices h : ∀ axis, (shape.boundingBox turn).reach ⟨axis, side.forward⟩ =
      shape.evenReach (unyawed turn (HalfAxis.unit axis)) by
    obtain ⟨axis, forward⟩ := side
    rw [h]
    cases forward
    · show _ = shape.evenReach (unyawed turn (-HalfAxis.unit axis))
      rw [unyawed_neg, evenReach_neg]
    · rfl
  intro axis
  rw [← boundingBox_getD, ← yawToLocal_getD]
  have hunit : (turn.getD identity).cos * (turn.getD identity).cos +
      (turn.getD identity).sin * (turn.getD identity).sin = 1 := by
    cases turn with
    | none => simp [identity]
    | some r => exact hturn r rfl
  exact reach_even hunit axis heven side.forward

/-! ## §C The boxes of solids -/

/-- The support points along the half axes are those of the turned solid. -/
theorem axisBox_eq (a : Support ℝ) (turn : Option (Rotation ℝ)) :
    axisBox a (turn.getD identity) = Bounds.ofPoints ([Axis.x, .y, .z].flatMap fun axis =>
      [turnedSupport turn a (HalfAxis.dir ⟨axis, true⟩),
        turnedSupport turn a (HalfAxis.dir ⟨axis, false⟩)]) := by
  simp only [axisBox, yawToWorld_getD, yawToLocal_getD]
  rfl

/-- The box made of the support points along the half axes is the smallest one around a turned set that
holds the origin. -/
theorem isSmallest_axisBox (h : IsSupport a A) (hzero : 0 ∈ A) :
    (axisBox a (turn.getD identity)).IsSmallest (yawed turn '' A) := by
  have hfurthest (d : Vec3 ℝ) : Furthest (turnedSupport turn a) (yawed turn '' A) d := (h.furthest _).yawed
  rw [axisBox_eq]
  generalize hps : ([Axis.x, .y, .z].flatMap fun axis => _) = ps
  have hmem (side : HalfAxis) : turnedSupport turn a side.dir ∈ ps := by
    obtain ⟨axis, forward⟩ := side
    subst hps
    cases axis <;> cases forward <;> simp
  refine (Bounds.isSmallest_ofPoints_iff (List.ne_nil_of_mem (hmem ⟨.x, true⟩)) ?_ ?_).mpr ?_
  · intro p hp
    subst hps
    obtain ⟨axis, -, hp⟩ := List.mem_flatMap.mp hp
    rcases List.mem_pair.mp hp with rfl | rfl <;> exact (hfurthest _).mem
  · intro c hc
    refine Bounds.covers_iff.mpr fun side p hp => ?_
    exact ((hfurthest side.dir).le p hp).trans (Bounds.covers_iff.mp hc side _ (hmem side))
  · intro side
    refine ⟨_, hmem side, ?_⟩
    have horigin := h.le (unyawed turn side.dir) 0 hzero
    rw [Vec3.dot_zero] at horigin
    rw [dot_turnedSupport]
    exact (neg_neg_of_pos Scalar.maxFinite_pos).le.trans horigin

end Shape

namespace Swing

/-- No corners are in use, or along each half axis some turned corner does not fall short of the end of the
finite range. -/
def Spans (s : Swing ℝ) (turn : Option (Rotation ℝ)) : Prop :=
  s.held = [] ∨
    ∀ side : HalfAxis, ∃ corner ∈ s.held, -Scalar.maxFinite ≤ corner.dot (unyawed turn side.dir)

variable {s : Swing ℝ}

theorem held_eq_nil_iff (s : Swing ℝ) : s.held = [] ↔ s.dataCount = 0 := by
  unfold held
  rw [List.take_eq_nil_iff]
  constructor
  · rintro (h | h)
    · exact h
    · exact absurd (congrArg List.length h) (by simp)
  · exact .inl

theorem boundingBox_of_ne_nil (h : s.held ≠ []) (turn : Option (Rotation ℝ)) :
    s.boundingBox turn = Bounds.ofPoints (s.held.map (yawed turn)) := by
  unfold boundingBox
  rw [if_neg (mt s.held_eq_nil_iff.mpr h)]
  exact congrArg (fun f => Bounds.ofPoints (s.held.map f)) (funext (yawToWorld_getD turn))

/-- The box of a swing is the smallest one around its turned hull just when the corners span the range. -/
theorem boundingBox_isSmallest_iff (s : Swing ℝ) (turn : Option (Rotation ℝ)) :
    (s.boundingBox turn).IsSmallest (yawed turn '' s.points) ↔ s.Spans turn := by
  by_cases hnone : s.held = []
  · refine iff_of_true ?_ (.inl hnone)
    have hbox : s.boundingBox turn = ⟨0, 0⟩ := if_pos (s.held_eq_nil_iff.mp hnone)
    have hpoints : s.points = {0} := if_pos hnone
    have hturned : yawed turn (0 : Vec3 ℝ) = 0 := by
      cases turn with
      | none => rfl
      | some r => ext <;> simp [yawed, yawToWorld]
    have hreach (side : HalfAxis) : (⟨0, 0⟩ : Bounds ℝ).reach side = side.dir.dot 0 := by
      obtain ⟨axis, forward⟩ := side
      cases axis <;> cases forward <;> simp [Bounds.reach, Vec3.coord]
    rw [hbox, hpoints, Set.image_singleton, hturned]
    refine Bounds.isSmallest_of_furthest (a := fun _ => 0) hreach fun side => ⟨rfl, ?_⟩
    rintro x rfl
    exact le_rfl
  · have hpoints : s.points = convexHull ℝ {corner | corner ∈ s.held} := if_neg hnone
    rw [boundingBox_of_ne_nil hnone, hpoints,
      Bounds.isSmallest_ofPoints_iff (mt List.map_eq_nil_iff.mp hnone)]
    · simp only [List.mem_map, exists_exists_and_eq_and, dot_yawed, Vec3.dot_comm (unyawed _ _)]
      exact ⟨.inr, fun h => h.resolve_left hnone⟩
    · intro p hp
      obtain ⟨corner, hcorner, rfl⟩ := List.mem_map.mp hp
      exact Set.mem_image_of_mem _ (subset_convexHull ℝ _ hcorner)
    · intro c hc
      refine Bounds.covers_iff.mpr fun side => ?_
      rintro _ ⟨p, hp, rfl⟩
      rw [dot_yawed]
      refine Vec3.dot_le_of_mem_convexHull hp fun corner hcorner => ?_
      rw [← dot_yawed]
      exact Bounds.covers_iff.mp hc side _ (List.mem_map_of_mem hcorner)

end Swing

namespace Shape

variable {shape : Shape ℝ}

/-- Every solid but a swing comes before the ends of the finite range, or need not. -/
def Spans : Shape ℝ → Option (Rotation ℝ) → Prop
  | .swing s, turn => s.Spans turn
  | _, _ => True

/-- **The box of a solid is tight.** Under a yaw, or none, the box of a well-formed solid is the smallest one
around the turned solid, just when a swing spans the finite range. -/
theorem boundingBox_isSmallest_iff (hwf : shape.WellFormed) (hturn : KeepsLength turn) :
    (shape.boundingBox turn).IsSmallest (yawed turn '' shape.points) ↔ shape.Spans turn := by
  have heven (heven : shape.IsEven) (hresolves : ∀ d, shape.Resolves d) :
      (shape.boundingBox turn).IsSmallest (yawed turn '' shape.points) := by
    refine Bounds.isSmallest_of_furthest (a := turnedSupport turn shape.support) (fun side => ?_) fun side =>
      (furthest_support hwf (hresolves _)).yawed
    rw [dot_turnedSupport, dot_support heven, reach_boundingBox_of_isEven heven hturn]
  cases shape with
  | cone size =>
    refine iff_of_true (isSmallest_axisBox (isSupport_cone hwf.1 hwf.2.1) ?_) trivial
    exact subset_convexHull ℝ _ (Set.mem_insert _ _)
  | sweep range radius halfHeight =>
    refine iff_of_true (isSmallest_axisBox (isSupport_sweep hwf.1 hwf.2.1 hwf.2.2) ?_) trivial
    refine ⟨by simpa using hwf.2.2, 0, subset_convexHull ℝ _ ?_, by simp, by simp⟩
    exact ⟨⟨0, 0⟩, .inl rfl, by ext <;> simp [Vec2.flat]⟩
  | swing s => exact s.boundingBox_isSmallest_iff turn
  | box half => exact iff_of_true (heven trivial fun _ => trivial) trivial
  | sphere radius => exact iff_of_true (heven trivial fun _ => trivial) trivial
  | capsule radius innerHalfHeight => exact iff_of_true (heven trivial fun _ => trivial) trivial
  | cylinder radius halfHeight => exact iff_of_true (heven trivial fun _ => trivial) trivial
  | cylinderHorz radius halfHeight => exact iff_of_true (heven trivial fun _ => trivial) trivial

theorem hasFurthest_points (hwf : shape.WellFormed) : HasFurthest shape.points := by
  cases shape with
  | swing s =>
    show HasFurthest s.points
    by_cases hnone : s.held = []
    · have hresolves (d : Vec3 ℝ) : s.Resolves d := .inl hnone
      exact fun d => ⟨_, (s.furthest_support (hresolves d)).mem, (s.furthest_support (hresolves d)).le⟩
    · have hpoints : s.points = convexHull ℝ {corner | corner ∈ s.held} := if_neg hnone
      exact hpoints ▸ hasFurthest_convexHull hnone
  | _ => exact fun d => ⟨_, (furthest_support hwf trivial).mem, (furthest_support hwf trivial).le⟩

/-- A solid that finds its furthest points along the half axes spans the range. -/
theorem Spans.of_resolves (h : ∀ side : HalfAxis, shape.Resolves (unyawed turn side.dir)) :
    shape.Spans turn := by
  cases shape with
  | swing s =>
    by_cases hnone : s.held = []
    · exact .inl hnone
    · refine .inr fun side => ?_
      obtain ⟨corner, hcorner, hmark⟩ := (h side).resolve_left hnone
      exact ⟨corner, hcorner, hmark.le⟩
  | _ => trivial

end Shape

/-! ## §D The boxes of objects -/

namespace DynamicObject

variable {o : DynamicObject ℝ}

/-- The object has no size, or its shape finds what its box is made of: when it is pitched, its furthest
points along the half axes, and otherwise its own box. -/
def Spans (o : DynamicObject ℝ) : Prop :=
  o.scale = 0 ∨
    match o.pitch with
    | some _ => ∀ side : HalfAxis, o.type.shape.Resolves (o.unturned side.dir)
    | none => o.type.shape.Spans o.rotation

/-- The box of an object that is not pitched is the box of its shape, enlarged and moved. -/
theorem currentBox_of_unpitched (h : o.pitch = none) : o.currentBox =
    (o.type.shape.boundingBox o.rotation).moved o.scale (o.position + yawed o.rotation o.center) := by
  unfold currentBox
  rw [h]
  rfl

/-- The points of an object that is not pitched are those of its turned shape, enlarged and moved. -/
theorem points_of_unpitched (h : o.pitch = none) : o.points =
    (fun p => p * o.scale + (o.position + yawed o.rotation o.center)) ''
      (yawed o.rotation '' o.type.shape.points) := by
  unfold points
  rw [Set.image_image]
  congr 1
  funext p
  simp only [place, h, pitched]
  cases o.rotation with
  | none =>
    simp only [yawed]
    abel
  | some r => ext <;> simp [yawed, yawToWorld] <;> ring

/-- The box of a pitched object reaches as far as its support points do. -/
theorem reach_currentBox_of_pitched {r : Rotation ℝ} (h : o.pitch = some r) (side : HalfAxis) :
    o.currentBox.reach side = side.dir.dot (o.support side.dir) := by
  obtain ⟨axis, forward⟩ := side
  unfold currentBox
  rw [h]
  cases forward
  · rw [HalfAxis.backward_dot, Bounds.reach_backward]
    cases axis <;> rfl
  · rw [HalfAxis.forward_dot, Bounds.reach_forward]
    cases axis <;> rfl

theorem hasFurthest_points (hwf : o.type.shape.WellFormed) (hscale : 0 ≤ o.scale) : HasFurthest o.points :=
  (Shape.hasFurthest_points hwf).image hscale fun d p => dot_place o d p

/-- **The box of an object is tight.** The box of a well-formed object is the smallest one around it, pitched
or not, just when the object spans the finite range. -/
theorem currentBox_isSmallest_iff (hwf : o.type.shape.WellFormed) (hscale : 0 ≤ o.scale)
    (hturn : KeepsLength o.rotation) : o.currentBox.IsSmallest o.points ↔ o.Spans := by
  unfold Spans
  cases hpitch : o.pitch with
  | none =>
    have hfurthest : HasFurthest (yawed o.rotation '' o.type.shape.points) :=
      (Shape.hasFurthest_points hwf).image zero_le_one (c := 0) fun d p => by
        rw [dot_yawed, one_mul]
        exact (add_zero _).symm
    rw [currentBox_of_unpitched hpitch, points_of_unpitched hpitch,
      Bounds.isSmallest_moved_iff hfurthest hscale, Shape.boundingBox_isSmallest_iff hwf hturn]
  | some r =>
    have hreach := reach_currentBox_of_pitched hpitch
    constructor
    · intro hsmallest
      by_contra hnone
      obtain ⟨hne, hnot⟩ := not_or.mp hnone
      obtain ⟨side, hside⟩ := not_forall.mp hnot
      have hbody : (Body.object o).WellFormed := ⟨hwf, hscale⟩
      have hover : Overshoots o.support o.points side.dir :=
        Body.overshoots_support hbody side.dir (not_or.mpr ⟨hne, hside⟩)
      exact Bounds.not_isSmallest_of_overshoots (hasFurthest_points hwf hscale) (hreach side) hover hsmallest
    · intro h
      have hbody : (Body.object o).WellFormed := ⟨hwf, hscale⟩
      refine Bounds.isSmallest_of_furthest hreach fun side => ?_
      exact Body.furthest_support hbody side.dir (h.imp_right fun h => h side)

/-- A level pitch moves no point. -/
theorem place_level (h : o.pitch = some identity) : o.place = { o with pitch := none }.place := by
  funext p
  have hpitched (q : Vec3 ℝ) : pitched (some (identity : Rotation ℝ)) q = q := by
    ext <;> simp [pitched, pitchToWorld, identity]
  simp only [place, h, hpitched]
  rfl

/-- A level pitch turns no direction. -/
theorem unturned_level (h : o.pitch = some identity) (d : Vec3 ℝ) : o.unturned d = unyawed o.rotation d := by
  unfold unturned
  rw [h]
  ext <;> simp [unpitched, pitchToLocal, identity]

/-- Along a half axis that the shape does not resolve, the box of the shape stops at the end of the finite
range and the support point at the origin. -/
theorem level_reach_ne (hpitch : o.pitch = some identity) (hscale : o.scale ≠ 0) {side : HalfAxis}
    (h : ¬ o.type.shape.Resolves (o.unturned side.dir)) :
    o.currentBox.reach side ≠ { o with pitch := none }.currentBox.reach side := by
  rw [unturned_level hpitch] at h
  have hsupport : o.type.shape.support (unyawed o.rotation side.dir) = 0 := by
    cases hshape : o.type.shape with
    | swing s =>
      rw [hshape] at h
      exact s.support_of_not_resolves h
    | _ =>
      rw [hshape] at h
      exact absurd trivial h
  have hend : (o.type.shape.boundingBox o.rotation).reach side = -Scalar.maxFinite := by
    cases hshape : o.type.shape with
    | swing s =>
      rw [hshape] at h
      have hsome : s.held ≠ [] := fun hnone => h (.inl hnone)
      show (s.boundingBox o.rotation).reach side = _
      rw [Swing.boundingBox_of_ne_nil hsome]
      obtain ⟨-, hge, heq | ⟨p, hp, heq⟩⟩ := Bounds.exists_reach_ofPoints (s.held.map (yawed o.rotation)) side
      · exact heq
      · obtain ⟨corner, hcorner, rfl⟩ := List.mem_map.mp hp
        refine le_antisymm ?_ hge
        rw [heq, dot_yawed, Vec3.dot_comm]
        exact Swing.dot_le_of_not_resolves h corner hcorner
    | _ =>
      rw [hshape] at h
      exact absurd trivial h
  rw [reach_currentBox_of_pitched hpitch, support_eq, dot_place, unturned_level hpitch, hsupport,
    currentBox_of_unpitched (o := { o with pitch := none }) rfl, Bounds.reach_moved]
  show _ ≠ o.scale * (o.type.shape.boundingBox o.rotation).reach side + _
  rw [hend, Vec3.dot_zero, mul_zero, zero_add, Vec3.dot_add, dot_yawed, add_comm (side.dir.dot o.position)]
  intro heq
  have hzero : o.scale * Scalar.maxFinite = 0 := by linarith
  exact (mul_ne_zero hscale Scalar.maxFinite_pos.ne') hzero

/-- A level pitch leaves the box as it is, just when the object spans the finite range. -/
theorem level_currentBox_eq_iff (hwf : o.type.shape.WellFormed) (hscale : 0 ≤ o.scale)
    (hturn : KeepsLength o.rotation) (hpitch : o.pitch = some identity) :
    o.currentBox = { o with pitch := none }.currentBox ↔ o.Spans := by
  constructor
  · intro heq
    by_contra hnone
    have hnone : ¬ (o.scale = 0 ∨ ∀ side : HalfAxis, o.type.shape.Resolves (o.unturned side.dir)) := by
      rwa [Spans, hpitch] at hnone
    obtain ⟨hne, hnot⟩ := not_or.mp hnone
    obtain ⟨side, hside⟩ := not_forall.mp hnot
    exact level_reach_ne hpitch hne hside (congrArg (Bounds.reach · side) heq)
  · intro h
    have hpoints : o.points = { o with pitch := none }.points :=
      congrArg (· '' o.type.shape.points) (place_level hpitch)
    have hunpitched : { o with pitch := none }.Spans := by
      rw [Spans, hpitch] at h
      refine h.imp_right fun hresolves => Shape.Spans.of_resolves fun side => ?_
      exact unturned_level hpitch side.dir ▸ hresolves side
    have hsmallest := (currentBox_isSmallest_iff (o := { o with pitch := none }) hwf hscale
      hturn).mpr hunpitched
    rw [← hpoints] at hsmallest
    exact ((currentBox_isSmallest_iff hwf hscale hturn).mpr h).unique hsmallest

/-! ## §E Boxes are tight -/

/-- **Boxes are tight but for swings.** Under a yaw or none, the box of a well-formed solid is the smallest
one around the turned solid; the box of a well-formed object, pitched or not, is the smallest one around the
object, and a level pitch leaves it as it is. Of all solids only a swing can fail to have such a box, when
its corners come no nearer than the end of the finite range along some half axis. -/
theorem boxes_tight_iff {shape : Shape ℝ} {turn : Option (Rotation ℝ)} {o : DynamicObject ℝ}
    (hshape : shape.WellFormed) (hturn : KeepsLength turn)
    (hwf : o.type.shape.WellFormed) (hscale : 0 ≤ o.scale) (hyaw : KeepsLength o.rotation) :
    ((shape.boundingBox turn).IsSmallest (yawed turn '' shape.points) ↔ shape.Spans turn) ∧
      (o.recalcBox.box.IsSmallest o.points ↔ o.Spans) ∧
      (o.pitch = some identity →
        (o.recalcBox.box = { o with pitch := none }.recalcBox.box ↔ o.Spans)) :=
  ⟨Shape.boundingBox_isSmallest_iff hshape hturn, currentBox_isSmallest_iff hwf hscale hyaw,
    level_currentBox_eq_iff hwf hscale hyaw⟩

/-- An object of some shape at the origin, with a level pitch. -/
noncomputable def level (shape : Shape ℝ) (rotation : Option (Rotation ℝ)) (scale : ℝ) : DynamicObject ℝ :=
  { create default ⟨shape, 0, 0, 0⟩ default 0 rotation with pitch := some identity, scale }

/-- The box of a yawed kite and that of a blade, yawed and enlarged, are tight: one corner of the blade is
the origin, which comes before all ends of the finite range. -/
theorem blade_boxes_tight :
    let kite : Shape ℝ := .sweep ⟨1, 2⟩ 3 1
    let turn : Option (Rotation ℝ) := some ⟨3 / 5, 4 / 5⟩
    let o := level (.swing Body.blade) turn 2
    kite.WellFormed ∧ KeepsLength turn ∧ o.type.shape.WellFormed ∧ 0 ≤ o.scale ∧ KeepsLength o.rotation ∧
      (kite.boundingBox turn).IsSmallest (yawed turn '' kite.points) ∧
      o.recalcBox.box.IsSmallest o.points ∧
      o.recalcBox.box = { o with pitch := none }.recalcBox.box := by
  intro kite turn o
  have hkite : kite.WellFormed := by
    refine ⟨?_, ?_, ?_⟩ <;> norm_num [kite]
  have hturn : KeepsLength (some ⟨3 / 5, 4 / 5⟩) := by
    rintro r ⟨⟩
    norm_num
  have hblade : o.type.shape.WellFormed := by
    show decide (2 ≤ 4) = true
    decide
  have hscale : 0 ≤ o.scale := zero_le_two
  have hspans : o.Spans := by
    refine .inr fun side => .inr ⟨0, List.mem_cons_self, ?_⟩
    rw [Vec3.zero_dot]
    exact neg_neg_of_pos Scalar.maxFinite_pos
  obtain ⟨hsolid, hobject, hlevel⟩ := boxes_tight_iff hkite hturn hblade hscale hturn
  exact ⟨hkite, hturn, hblade, hscale, hturn, hsolid.mpr trivial, hobject.mpr hspans,
    (hlevel rfl).mpr hspans⟩

/-- The box of a blade whose corners lie at the end of the finite range is tight, but with a level pitch it
starts at the origin, where no part of the blade is. -/
theorem farBlade_box_not_tight :
    let o := level (.swing Body.farBlade) none 1
    o.type.shape.WellFormed ∧ 0 ≤ o.scale ∧ KeepsLength o.rotation ∧
      ¬ o.recalcBox.box.IsSmallest o.points ∧
      { o with pitch := none }.recalcBox.box.IsSmallest o.points ∧
      o.recalcBox.box ≠ { o with pitch := none }.recalcBox.box := by
  intro o
  have hblade : o.type.shape.WellFormed := by
    show decide (2 ≤ 4) = true
    decide
  have hscale : 0 ≤ o.scale := zero_le_one
  have hyaw : KeepsLength o.rotation := by rintro r ⟨⟩
  have hheld : Body.farBlade.held = [⟨Scalar.maxFinite, 0, 0⟩, ⟨Scalar.maxFinite, 0, 0⟩] := rfl
  have hnot : ¬ o.Spans := by
    rintro (hzero | hresolves)
    · exact one_ne_zero hzero
    · rcases hresolves ⟨.x, false⟩ with hnone | ⟨corner, hcorner, hmark⟩
      · rw [hheld] at hnone
        cases hnone
      · have hfar : corner = ⟨Scalar.maxFinite, 0, 0⟩ := by
          rw [hheld] at hcorner
          simpa using hcorner
        rw [unturned_level rfl, hfar, Vec3.dot_comm] at hmark
        exact absurd hmark (by rw [← dot_yawed]; simp [yawed, o, level, create, recalcBox, Vec3.coord])
  have hspans : { o with pitch := none }.Spans := by
    refine .inr (.inr fun side => ⟨_, hheld ▸ List.mem_cons_self, ?_⟩)
    rw [Vec3.dot_comm, ← dot_yawed]
    have hpos := Scalar.maxFinite_pos
    obtain ⟨axis, forward⟩ := side
    cases axis <;> cases forward <;> simp [yawed, o, level, create, recalcBox, Vec3.coord] <;> linarith
  have hpoints : o.points = { o with pitch := none }.points :=
    congrArg (· '' o.type.shape.points) (place_level rfl)
  refine ⟨hblade, hscale, hyaw, ?_, ?_, ?_⟩
  · exact mt (currentBox_isSmallest_iff hblade hscale hyaw).mp hnot
  · rw [hpoints]
    exact (currentBox_isSmallest_iff (o := { o with pitch := none }) hblade hscale hyaw).mpr hspans
  · exact mt (level_currentBox_eq_iff hblade hscale hyaw rfl).mp hnot

end DynamicObject

end ConvexCollision
