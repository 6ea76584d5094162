import ConvexCollision.Trigger
import ConvexCollision.Proofs.Bounds.Join
import ConvexCollision.Proofs.Exact.Interior

/-!
# ConvexCollision.Proofs.Trigger -- a trigger notices what is inside its solid

A trigger keeps its volume twice: as the volume that the test for points reads, and as the solid whose
support function the collision search asks. Both are private, so whatever is done to a trigger from outside
leaves the one the solid of the other (`SpatialTrigger.Agrees.edited`).

Over the real numbers the two then say the same. A point passes the test just when it lies in the interior of
the solid, as the solid is placed (`SpatialTrigger.inVolume_iff`): the test of a ball and of an upright
cylinder leaves the yaw out, which a unit yaw allows, and that of a box turns the point back. The box of the
trigger is asked first. Once it is up to date it holds the whole solid, so it never turns a point away that
the test would let pass.
-/

namespace ConvexCollision

open Rotation

namespace SpatialTrigger

/-! ## §A Changes -/

/-- What can be done to a trigger from outside: another volume, a write to one of its open fields, or its
box brought up to date. -/
inductive Edit (α : Type) where
  /-- Another volume. -/
  | setShape (shape : TriggerShape α)
  /-- Another identity. -/
  | setId (id : EntityId)
  /-- Another place. -/
  | setPosition (position : Vec3 α)
  /-- Another turn. -/
  | setRotation (rotation : Option (Rotation α))
  /-- Other layers. -/
  | setLayers (layers : Layers)
  /-- Any box whatever. -/
  | setBox (box : Bounds α)
  /-- Another list of the objects inside. -/
  | setContacts (activeContacts : Option ContactId)
  /-- The box of the solid. -/
  | recalcBox

section Edits

variable {α : Type} [Scalar α]

/-- The trigger after a change. -/
def edit (t : SpatialTrigger α) : Edit α → SpatialTrigger α
  | .setShape shape => t.setShape shape
  | .setId id => { t with id }
  | .setPosition position => { t with position }
  | .setRotation rotation => { t with rotation }
  | .setLayers layers => { t with layers }
  | .setBox box => { t with box }
  | .setContacts activeContacts => { t with activeContacts }
  | .recalcBox => t.recalcBox

/-- The trigger after one change after the other. -/
def edited (t : SpatialTrigger α) (edits : List (Edit α)) : SpatialTrigger α := edits.foldl edit t

/-- The solid of the trigger is that of its volume. -/
def Agrees (t : SpatialTrigger α) : Prop := t.collider = t.shape.solid

theorem agrees_create (id : EntityId) (shape : TriggerShape α) (layers : Layers) (position : Vec3 α)
    (rotation : Option (Rotation α)) : (create id shape layers position rotation).Agrees := rfl

variable {t : SpatialTrigger α}

/-- A change of the volume changes the solid along, and no other change touches either. -/
theorem Agrees.edit (h : t.Agrees) (e : Edit α) : (t.edit e).Agrees := by
  cases e with
  | setShape shape => rfl
  | _ => exact h

theorem Agrees.edited (h : t.Agrees) (edits : List (Edit α)) : (t.edited edits).Agrees := by
  induction edits generalizing t with
  | nil => exact h
  | cons e edits ih => exact ih (h.edit e)

/-! ## §B The test for points -/

/-- The test of a point against the volume, without a look at the box. -/
def inVolume (t : SpatialTrigger α) (point : Vec3 α) : Bool :=
  let relative := point - t.position
  match t.shape with
  | .sphere radius => decide (relative.lengthSq < radius * radius)
  | .cylinder radius halfHeight =>
    decide (Scalar.abs relative.y < halfHeight) &&
      decide (relative.x * relative.x + relative.z * relative.z < radius * radius)
  | .box halfSize => (unyawed t.rotation relative).abs.allLt halfSize

theorem contains_eq (t : SpatialTrigger α) (point : Vec3 α) :
    t.contains point = (t.box.contains point && t.inVolume point) := rfl

end Edits

variable {t : SpatialTrigger ℝ} {point : Vec3 ℝ}

theorem isEven_solid (shape : TriggerShape ℝ) : shape.solid.IsEven := by
  cases shape <;> trivial

/-- The points that pass the test are those in the interior of the solid. -/
theorem inVolume_iff (hagrees : t.Agrees) (hwf : t.shape.solid.WellFormed) (hturn : KeepsLength t.rotation) :
    t.inVolume point = true ↔ point ∈ interior (Support.solid t.support) := by
  have hplace : point ∈ interior (Support.solid t.support) ↔
      unyawed t.rotation (point - t.position) ∈ interior (Support.solid t.shape.solid.support) := by
    rw [← hagrees]
    exact Placed.mem_interior_solid_iff (p := t.placed) hturn
  rw [hplace]
  unfold inVolume
  generalize point - t.position = relative
  cases hshape : t.shape with
  | sphere radius =>
    rw [hshape] at hwf
    rw [TriggerShape.solid, Shape.interior_solid_sphere hwf, decide_eq_true_iff]
    show _ ↔ (unyawed t.rotation relative).lengthSq < _
    rw [Vec3.lengthSq_eq, Vec3.lengthSq_eq, unyawed_dot_self _ hturn]
  | cylinder radius halfHeight =>
    rw [hshape] at hwf
    rw [TriggerShape.solid, Shape.interior_solid_cylinder hwf.1 hwf.2, Bool.and_eq_true, decide_eq_true_iff,
      decide_eq_true_iff]
    show _ ↔ |(unyawed t.rotation relative).y| < _ ∧ _
    rw [unyawed_flat_dot_self hturn, unyawed_y, Scalar.abs_real]
  | box halfSize =>
    rw [hshape] at hwf
    rw [TriggerShape.solid, Shape.interior_solid_box hwf.1 hwf.2.1 hwf.2.2]
    simp only [Vec3.allLt, Bool.and_eq_true, decide_eq_true_iff, and_assoc]
    rfl

/-- A box that is up to date turns no point of the solid away. -/
theorem contains_box_recalcBox (hagrees : t.Agrees) (hturn : KeepsLength t.rotation)
    (hpoint : point ∈ Support.solid t.support) : t.recalcBox.box.contains point = true := by
  have heven : t.collider.IsEven := by
    rw [hagrees]
    exact isEven_solid t.shape
  exact Bounds.contains_iff_holds.mpr (Placed.boundingBox_holds (p := t.placed) hturn heven hpoint)

/-- The support function of a trigger is exact for its solid. -/
theorem isSupport_solid (hagrees : t.Agrees) (hwf : t.shape.solid.WellFormed) :
    IsSupport t.support (Support.solid t.support) := by
  rw [← hagrees] at hwf
  have hresolves (d : Vec3 ℝ) : t.collider.Resolves d := by
    rw [hagrees]
    cases t.shape <;> trivial
  have hbody : (Body.placed t.placed).WellFormed := hwf
  have hfurthest (d : Vec3 ℝ) : Furthest t.support t.placed.points d :=
    Body.furthest_support hbody d (hresolves _)
  exact IsSupport.solid ⟨fun d => (hfurthest d).mem, fun d => (hfurthest d).le⟩

/-! ## §C Points noticed -/

/-- **A trigger notices what is inside its solid.** Whatever was done to a trigger since it was made, as long
as its box was brought up to date last, no dimension of its volume is negative and its yaw is a unit one or
none: it notices just the points in the interior of the solid whose support function it gives to the search,
and that function is exact for the solid. The box that is asked first changes no answer. -/
theorem contains_iff_mem_interior {id : EntityId} {shape : TriggerShape ℝ} {layers : Layers}
    {position : Vec3 ℝ} {rotation : Option (Rotation ℝ)} {edits : List (Edit ℝ)} {t : SpatialTrigger ℝ}
    (ht : t = ((create id shape layers position rotation).edited edits).recalcBox)
    (hwf : t.shape.solid.WellFormed) (hturn : KeepsLength t.rotation) :
    IsSupport t.support (Support.solid t.support) ∧ ∀ point,
      (t.contains point = true ↔ point ∈ interior (Support.solid t.support)) ∧
      t.contains point = t.inVolume point := by
  have hagrees : t.Agrees := by
    rw [ht]
    exact ((agrees_create id shape layers position rotation).edited edits).edit .recalcBox
  have hfresh : t.recalcBox = t := by
    rw [ht]
    rfl
  refine ⟨isSupport_solid hagrees hwf, fun point => ?_⟩
  have hsame : t.contains point = t.inVolume point := by
    rw [contains_eq]
    cases hvolume : t.inVolume point with
    | false => rw [Bool.and_false]
    | true =>
      have hinside := (inVolume_iff hagrees hwf hturn).mp hvolume
      have hbox := contains_box_recalcBox hagrees hturn (interior_subset hinside)
      rw [hfresh] at hbox
      rw [hbox, Bool.and_true]
  rw [hsame]
  exact ⟨inVolume_iff hagrees hwf hturn, rfl⟩

/-- A ball that was turned, became a long thin box and was then moved. -/
noncomputable def turnedBox : SpatialTrigger ℝ :=
  ((create ⟨5⟩ (.sphere 1) Layers.all 0 none).edited
    [.setRotation (some ⟨3 / 5, 4 / 5⟩), .setShape (.box ⟨2, 1, 1 / 4⟩), .setPosition ⟨10, 0, -2⟩]).recalcBox

/-- The box notices a point along its turned length. Neither the point at the end of its length nor one as far
along x as the first, which lies outside the thin side, is inside. -/
theorem turnedBox_notices :
    turnedBox.shape.solid.WellFormed ∧ KeepsLength turnedBox.rotation ∧
      IsSupport turnedBox.support (Support.solid turnedBox.support) ∧
      (turnedBox.contains ⟨277 / 25, 0, -14 / 25⟩ = true ∧
        ⟨277 / 25, 0, -14 / 25⟩ ∈ interior (Support.solid turnedBox.support)) ∧
      (turnedBox.contains ⟨56 / 5, 0, -2 / 5⟩ = false ∧
        ⟨56 / 5, 0, -2 / 5⟩ ∉ interior (Support.solid turnedBox.support)) ∧
      turnedBox.contains ⟨59 / 5, 0, -2⟩ = false ∧
        ⟨59 / 5, 0, -2⟩ ∉ interior (Support.solid turnedBox.support) := by
  have hwf : turnedBox.shape.solid.WellFormed := by
    refine ⟨?_, ?_, ?_⟩ <;> norm_num
  have hturn : KeepsLength turnedBox.rotation := by
    rintro r ⟨⟩
    norm_num
  obtain ⟨hsupport, hpoints⟩ := contains_iff_mem_interior (t := turnedBox) rfl hwf hturn
  have hsame (v : Vec3 ℝ) : turnedBox.contains v =
      (unyawed (some ⟨3 / 5, 4 / 5⟩) (v - ⟨10, 0, -2⟩)).abs.allLt ⟨2, 1, 1 / 4⟩ := (hpoints v).2
  have hinside : turnedBox.contains ⟨277 / 25, 0, -14 / 25⟩ = true := by
    norm_num [hsame, unyawed, yawToLocal, Vec3.allLt, Vec3.abs]
  have hend : turnedBox.contains ⟨56 / 5, 0, -2 / 5⟩ = false := by
    norm_num [hsame, unyawed, yawToLocal, Vec3.allLt, Vec3.abs]
  have hthin : turnedBox.contains ⟨59 / 5, 0, -2⟩ = false := by
    norm_num [hsame, unyawed, yawToLocal, Vec3.allLt, Vec3.abs]
  have hout {v : Vec3 ℝ} (h : turnedBox.contains v = false) :
      v ∉ interior (Support.solid turnedBox.support) := fun hmem =>
    Bool.false_ne_true (h.symm.trans ((hpoints v).1.mpr hmem))
  exact ⟨hwf, hturn, hsupport, ⟨hinside, (hpoints _).1.mp hinside⟩, ⟨hend, hout hend⟩, hthin, hout hthin⟩

end SpatialTrigger

end ConvexCollision
