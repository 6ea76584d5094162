import ConvexCollision.Proofs.Format.RoundTrip
import ConvexCollision.Proofs.Shape.Swing
import ConvexCollision.Proofs.World.Despawn
import ConvexCollision.Proofs.World.Rebuilt

/-!
# ConvexCollision.Proofs.World.Swings -- the swings of a world that was built

A file may give a swing any counts, and a scene is read with them. Building it looks at one of the two: an
object is created exactly when the count of its swing stays within the slots, and an index out of range in
a build is always that of a planned swing (`Scene.exists_overfull_of_build`). A tick leaves the types of
objects alone (`World.Ticked.exists_type`), so that in a world that was built, and after any ticks, every
swing is one that was planned and can be read.

The other count is not looked at, since nothing in a world adds to a swing. Whoever holds a swing can go on
adding to it for ever exactly when both counts are sound.
-/

namespace ConvexCollision

variable {α : Type} [Scalar α]

/-! ## §A Creating an object -/

/-- The corners of a swing are within its slots. -/
def Shape.InRange (shape : Shape α) : Prop := ∀ s, shape = .swing s → s.Readable

theorem Shape.checked_eq_ok {shape shape' : Shape α} (h : shape.checked = .ok shape') :
    shape' = shape ∧ shape.InRange := by
  unfold checked at h
  split at h
  · next s =>
    split at h
    · next hrange =>
      cases h
      refine ⟨rfl, fun s' hs' => ?_⟩
      cases hs'
      exact Swing.isInRange_iff.mp hrange
    · cases h
  · next hother =>
    cases h
    exact ⟨rfl, fun s hs => absurd hs (hother s)⟩

theorem Shape.checked_eq_error {shape : Shape α} {f : Fault} (h : shape.checked = .error f) :
    ¬shape.InRange := by
  intro hrange
  unfold checked at h
  split at h
  · next s =>
    rw [if_pos (Swing.isInRange_iff.mpr (hrange s rfl))] at h
    cases h
  · cases h

namespace ObjectPlan

variable {p : ObjectPlan α} {o : DynamicObject α}

/-- A planned object is created with the planned type, if its swing can be read. -/
theorem create_eq_ok (h : p.create = .ok o) : o.type = p.type ∧ p.type.shape.InRange := by
  obtain ⟨shape, hchecked, h⟩ := bind_eq_ok_iff.mp h
  obtain ⟨rfl, hrange⟩ := Shape.checked_eq_ok hchecked
  cases h
  exact ⟨rfl, hrange⟩

theorem create_eq_error {f : Fault} (h : p.create = .error f) : ¬p.type.shape.InRange := by
  rcases bind_eq_error_iff.mp h with hchecked | ⟨shape, -, h⟩
  · exact Shape.checked_eq_error hchecked
  · cases h

end ObjectPlan

/-! ## §B Building a scene -/

namespace BuildFailure

variable {β : Type}

theorem ofRefusal_ne_faulty (x : Except CollisionError β) (f : Fault) : ofRefusal x ≠ .error (.faulty f) := by
  intro h
  cases x <;> cases h

theorem ofRegistration_ne_faulty (r : Except CollisionError Unit × World α) (f : Fault) :
    ofRegistration r ≠ .error (.faulty f) := by
  obtain ⟨result, w⟩ := r
  intro h
  cases result <;> cases h

theorem ofFault_eq_error {x : Except Fault β} {f : Fault} (h : ofFault x = .error (.faulty f)) :
    x = .error f := by
  cases x <;> cases h
  rfl

end BuildFailure

namespace World

variable {w : World α}

theorem addMeshes_ne_indexOutOfRange (ms : List (Mesh α)) :
    w.addMeshes ms ≠ .error (.faulty .indexOutOfRange) := by
  intro h
  obtain ⟨m, -, w', hadd⟩ := exists_of_foldlM_eq_error h
  have hadd := BuildFailure.ofFault_eq_error hadd
  unfold addMesh at hadd
  split at hadd <;> cases hadd

theorem addAll_ne_faulty (es : List (Element α)) (f : Fault) : w.addAll es ≠ .error (.faulty f) := by
  intro h
  obtain ⟨e, -, w', hadd⟩ := exists_of_foldlM_eq_error h
  exact BuildFailure.ofRegistration_ne_faulty _ f hadd

end World

namespace Scene

variable {s : Scene α} {w : World α}

/-- In a world that was built, every object is of a planned type, and every planned swing can be read. -/
theorem planned_of_build (h : s.build = .ok w) :
    (∀ p ∈ s.objects, p.type.shape.InRange) ∧
      ∀ o, .object o ∈ w.elements → ∃ p ∈ s.objects, o.type = p.type := by
  obtain ⟨ms, os, hcreated, hassemble⟩ := exists_build_eq_assemble h
  obtain ⟨-, helements⟩ := World.assemble_eq_ok ((hassemble s.config).symm.trans h)
  constructor
  · intro p hp
    obtain ⟨o, -, hcreate⟩ := exists_of_forall₂_of_mem (R := flip _) hcreated.flip hp
    exact (ObjectPlan.create_eq_ok (BuildFailure.ofFault_eq_ok hcreate)).2
  · intro o ho
    rw [← Array.mem_toList_iff, helements, Element.inOrder_map_entered] at ho
    rcases List.mem_append.mp ho with hobject | htrigger
    · obtain ⟨o', ho', heq⟩ := List.mem_map.mp hobject
      cases heq
      obtain ⟨o₀, ho₀, rfl⟩ := List.mem_map.mp ho'
      obtain ⟨p, hp, hcreate⟩ := exists_of_forall₂_of_mem hcreated ho₀
      exact ⟨p, hp, (ObjectPlan.create_eq_ok (BuildFailure.ofFault_eq_ok hcreate)).1⟩
    · obtain ⟨t, -, heq⟩ := List.mem_map.mp htrigger
      cases heq

/-- An index out of range in a build is that of a planned swing. -/
theorem exists_overfull_of_build (h : s.build = .error (.faulty .indexOutOfRange)) :
    ∃ p ∈ s.objects, ¬p.type.shape.InRange := by
  rcases bind_eq_error_iff.mp h with hmeshes | ⟨w₁, -, h⟩
  · obtain ⟨m, -, w, hadd⟩ := exists_of_foldlM_eq_error hmeshes
    rcases bind_eq_error_iff.mp hadd with hdata | ⟨m', -, hadd⟩
    · exact absurd hdata (BuildFailure.ofRefusal_ne_faulty _ _)
    · exact absurd hadd (World.addMeshes_ne_indexOutOfRange _)
  rcases bind_eq_error_iff.mp h with hobjects | ⟨w₂, -, htriggers⟩
  · obtain ⟨p, hp, w, hadd⟩ := exists_of_foldlM_eq_error hobjects
    rcases bind_eq_error_iff.mp hadd with hcreate | ⟨o, -, hadd⟩
    · exact ⟨p, hp, ObjectPlan.create_eq_error (BuildFailure.ofFault_eq_error hcreate)⟩
    · rw [World.addObjects_eq_addAll] at hadd
      exact absurd hadd (World.addAll_ne_faulty _ _)
  · rw [World.addTriggers_eq_addAll] at htriggers
    exact absurd htriggers (World.addAll_ne_faulty _ _)

end Scene

/-! ## §C Ticks -/

/-- A world and what becomes of it in ticks that come to their end. -/
inductive World.Ticked (w : World α) : World α → Prop
  /-- Before the first tick. -/
  | start : Ticked w w
  /-- After another tick. -/
  | tick {w' : World α} {outcome : World.Outcome α} (before : Ticked w w')
    (h : w'.collide = .ok outcome) : Ticked w outcome.world

/-- Every object after some ticks is of the type of an object from before them. -/
theorem World.Ticked.exists_type {w w' : World α} (h : w.Ticked w') {o : DynamicObject α}
    (ho : .object o ∈ w'.elements) : ∃ o₀, .object o₀ ∈ w.elements ∧ o.type = o₀.type := by
  -- on the ticks; none of them writes to the type of an object
  induction h generalizing o with
  | start => exact ⟨o, ho, rfl⟩
  | tick _ hcollide ih =>
    obtain ⟨e, he, hsame⟩ := exists_persists_of_collide hcollide ho
    cases hsame with
    | object hkept =>
      obtain ⟨o₀, ho₀, htype⟩ := ih he
      exact ⟨o₀, ho₀, (congrArg DynamicObject.type hkept).trans htype⟩

/-! ## §D What swings are good for -/

/-- **Swings that were grown are usable, and so are swings of sound counts.** From the empty swing every
sequence of strokes succeeds, the corners are then those of the last two pairs since the last clear, or of
the only one, and the swing can be used on and on. Any other swing can be used on and on exactly when its
counts are sound, and read exactly when its count stays within the slots. A world is only built from
planned swings that can be read, and after any ticks its swings are such swings; an index out of range in a
build is that of a planned swing that cannot be read. -/
theorem swings_usable :
    (∀ l : List (Swing.Stroke α), ∃ s : Swing α, Swing.empty.strokes l = .ok s ∧ s.Usable ∧
      ∃ shown, shown.Perm ((Swing.recorded l).drop ((Swing.recorded l).length - 2)) ∧
        s.corners = .ok (Swing.cornersOf shown)) ∧
    (∀ s : Swing α, (s.Usable ↔ s.Sound) ∧ (s.Readable ↔ s.dataCount ≤ 4)) ∧
    ∀ scene : Scene α,
      (∀ w, scene.build = .ok w →
        (∀ p ∈ scene.objects, p.type.shape.InRange) ∧
        ∀ w', w.Ticked w' → ∀ o, .object o ∈ w'.elements →
          o.type.shape.InRange ∧ ∃ p ∈ scene.objects, o.type = p.type) ∧
      (scene.build = .error (.faulty .indexOutOfRange) →
        ∃ p ∈ scene.objects, ∃ s, p.type.shape = .swing s ∧ 4 < s.dataCount) := by
  refine ⟨Swing.exists_strokes_empty, fun s => ⟨Swing.usable_iff, Swing.readable_iff⟩, fun scene => ⟨?_, ?_⟩⟩
  · intro w hbuild
    obtain ⟨hrange, hplanned⟩ := Scene.planned_of_build hbuild
    refine ⟨hrange, fun w' hticked o ho => ?_⟩
    obtain ⟨o₀, ho₀, htype⟩ := hticked.exists_type ho
    obtain ⟨p, hp, hplan⟩ := hplanned o₀ ho₀
    rw [htype, hplan]
    exact ⟨hrange p hp, p, hp, rfl⟩
  · intro hbuild
    obtain ⟨p, hp, hover⟩ := Scene.exists_overfull_of_build hbuild
    simp only [Shape.InRange, not_forall] at hover
    obtain ⟨s, hs, hunreadable⟩ := hover
    exact ⟨p, hp, s, hs, Nat.lt_of_not_le (mt Swing.readable_iff.mpr hunreadable)⟩

/-- A sword whose file says that five of its four slots are in use. -/
def overfull : ObjectType Float32 where
  shape := .swing ⟨#v[⟨0, 0, 0⟩, ⟨1, 0, 0⟩, ⟨0, 1, 0⟩, ⟨1, 1, 0⟩], 0, 5⟩
  bounce := 0
  friction := 0
  maxStableSlope := 0.25

/-- The sword alone. -/
def overfullScene : Scene Float32 where
  config := Config.standard
  meshes := []
  objects := [⟨⟨1⟩, overfull, ⟨0, 0, 0⟩, Vec3.zero, 0, Layers.all, false, .none, .medium, .neutral⟩]
  triggers := []

/-- The text of its file. -/
def overfullText : String := .ofList <|
  "\x7b\"meshes\":[],\"objects\":[\x7b\"entity_id\":1,\"object_type\":\x7b\"shape\":".toList ++
  "\x7b\"type\":\"swing\",\"corners\":[[0,0,0],[1,0,0],[0,1,0],[1,1,0]],\"next_corner\":".toList ++
  "0,\"data_count\":5\x7d,\"bounce\":0,\"friction\":0,\"max_stable_slope\":0.25\x7d,".toList ++
  "\"position\":[0,0,0]\x7d]\x7d".toList

/-- The file is read, and building what it says runs past the slots. -/
theorem overfullText_faulty :
    fileValue Scene.ofJson? (some overfullText) = .ok overfullScene ∧
    overfullScene.build = .error (.faulty .indexOutOfRange) ∧
    World.ofFile (some overfullText) = .error (.faulty .indexOutOfRange) := by
  have hread : (Json.ofText? overfullText).bind Scene.ofJson? = some overfullScene := by
    unfold overfullText
    rw [Json.ofText?_ofList]
    repeat rw [String.toList_ofList]
    decide +kernel
  have hfile : fileValue Scene.ofJson? (some overfullText) = .ok overfullScene := by
    rw [fileValue, hread]
  have hbuild : overfullScene.build = .error (.faulty .indexOutOfRange) := rfl
  refine ⟨hfile, hbuild, ?_⟩
  rw [World.ofFile_of_scene hfile, hbuild]
  rfl

/-- The blade over the step, without the room. -/
def bladeAlone : Scene Float32 := { bladeScene with triggers := [] }

/-- The world of the blade. -/
def bladeWorld : World Float32 := bladeAlone.build.toOption.getD default

theorem bladeAlone_build : bladeAlone.build = .ok bladeWorld := by
  obtain ⟨w, hw⟩ := exists_eq_ok_of_isOk (show bladeAlone.build.isOk = true by decide +kernel)
  unfold bladeWorld
  rw [hw]
  rfl

theorem bladeWorld_collide : ∃ outcome, bladeWorld.collide = .ok outcome ∧
    ∃ o, .object o ∈ outcome.world.elements := by
  have hids : bladeWorld.collide.toOption.map (fun outcome => outcome.world.objects.map (·.id)) =
      some [⟨7⟩] := by
    rw [World.collide_of_single (by decide +kernel)]
    decide +kernel
  obtain ⟨outcome, hcollide, hobjects⟩ := exists_eq_ok_of_map hids
  obtain ⟨o, ho⟩ : ∃ o, o ∈ outcome.world.objects := by
    cases hlist : outcome.world.objects with
    | nil =>
      rw [hlist] at hobjects
      cases hobjects
    | cons o _ => exact ⟨o, List.mem_cons_self⟩
  obtain ⟨e, he, hobject⟩ := List.mem_filterMap.mp ho
  cases e with
  | trigger t => cases hobject
  | object o' =>
    cases hobject
    exact ⟨outcome, hcollide, o, Array.mem_toList_iff.mp he⟩

/-- The swing of the blade is usable, and the one in its world can be read after a tick. The other sword is the
one in whose scene an index is out of range. -/
theorem blade_usable :
    (∃ s, blade.shape = .swing s ∧ s.Usable) ∧
    (∃ outcome o, bladeWorld.collide = .ok outcome ∧ .object o ∈ outcome.world.elements ∧
      o.type.shape.InRange) ∧
    ∃ p ∈ overfullScene.objects, ∃ s, p.type.shape = .swing s ∧ 4 < s.dataCount := by
  obtain ⟨-, hcounts, hscenes⟩ := swings_usable (α := Float32)
  refine ⟨⟨_, rfl, (hcounts _).1.mpr ⟨.inr rfl, .inr (.inr rfl)⟩⟩, ?_, (hscenes overfullScene).2 rfl⟩
  obtain ⟨outcome, hcollide, o, ho⟩ := bladeWorld_collide
  obtain ⟨-, hticked⟩ := (hscenes bladeAlone).1 bladeWorld bladeAlone_build
  exact ⟨outcome, o, hcollide, ho, (hticked _ (.tick .start hcollide) o ho).1⟩

end ConvexCollision
