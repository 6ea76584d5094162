import ConvexCollision.Proofs.Exact.Vector
import ConvexCollision.Proofs.World.Carried
import ConvexCollision.Proofs.World.Dropped
import ConvexCollision.Proofs.World.Run

/-!
# ConvexCollision.Proofs.World.Boxes -- cached boxes stay true

The box of an object is computed once in a tick, after free motion. From then on it is only moved along
with the object. Over the real numbers that is as good as computing it again: the box that an object's
fields stand for is the box of the same object at the origin, moved to where the object is
(`currentBox_eq_translate`), with a pitch or without one, and many moves add up to one
(`MovedTogether.exists_offset`).

So it does not matter what the fields were before the tick, or whether the box was right then.
-/

namespace ConvexCollision

/-! ## §A Moving a box -/

namespace Bounds

theorem translate_zero (b : Bounds ℝ) : b.translate 0 = b := by
  show Bounds.mk (b.mins + 0) (b.maxs + 0) = b
  rw [add_zero, add_zero]

theorem translate_add (b : Bounds ℝ) (s t : Vec3 ℝ) :
    b.translate (s + t) = (b.translate s).translate t := by
  show Bounds.mk (b.mins + (s + t)) (b.maxs + (s + t)) =
    Bounds.mk (b.mins + s + t) (b.maxs + s + t)
  rw [add_assoc, add_assoc]

end Bounds

/-- A position and a box that were moved together lie as they would after one move. -/
theorem MovedTogether.exists_offset {p p' : Vec3 ℝ} {b b' : Bounds ℝ} (h : MovedTogether p b p' b') :
    ∃ offset, p' = p + offset ∧ b' = b.translate offset := by
  -- on the moves, each of which adds to the offset
  induction h with
  | stay => exact ⟨0, (add_zero p).symm, b.translate_zero.symm⟩
  | move _ step ih =>
    obtain ⟨offset, rfl, rfl⟩ := ih
    exact ⟨offset + step, add_assoc _ _ _, (b.translate_add offset step).symm⟩
  | lift _ y ih =>
    obtain ⟨offset, rfl, rfl⟩ := ih
    refine ⟨_, ?_, (b.translate_add offset _).symm⟩
    rw [← add_assoc]
    generalize p + offset = q
    ext
    · show q.x = q.x + Scalar.instOfNat.ofNat
      rw [Scalar.zero_real, add_zero]
    · show y = q.y + (y - q.y)
      rw [add_sub_cancel]
    · show q.z = q.z + Scalar.instOfNat.ofNat
      rw [Scalar.zero_real, add_zero]

namespace DynamicObject

variable {o o' : DynamicObject ℝ}

/-- The points of an object are those of the same object at the origin, moved to where it is. -/
theorem support_eq_add (o : DynamicObject ℝ) (d : Vec3 ℝ) :
    o.support d = o.kept.support d + o.position := by
  have horigin (p : Vec3 ℝ) : p + o.kept.position = p := add_zero p
  unfold support
  rw [horigin]
  rfl

/-- The box that the fields of an object stand for is that of the same object at the origin, moved to
where it is. -/
theorem currentBox_eq_translate (o : DynamicObject ℝ) :
    o.currentBox = o.kept.currentBox.translate o.position := by
  have hpitch : o.kept.pitch = o.pitch := rfl
  unfold currentBox
  rw [hpitch]
  cases o.pitch with
  | some r =>
    -- each bound is a coordinate of a point of the object
    simp only [support_eq_add o]
    rfl
  | none =>
    have horigin (c : Vec3 ℝ) : o.kept.position + c = c := zero_add c
    simp only [horigin]
    show Bounds.mk (_ + (o.position + _)) (_ + (o.position + _)) =
      Bounds.mk (_ + _ + o.position) (_ + _ + o.position)
    rw [add_comm o.position, ← add_assoc, ← add_assoc]
    rfl

/-- An object whose box was right and that was carried has the right box. -/
theorem Carried.box_eq_currentBox (h : o.Carried o') (hbox : o.box = o.currentBox) :
    o'.box = o'.currentBox := by
  obtain ⟨offset, hposition, hmoved⟩ := h.moved.exists_offset
  rw [hmoved, hbox, currentBox_eq_translate o', h.kept, hposition, Bounds.translate_add,
    ← currentBox_eq_translate o]

end DynamicObject

/-! ## §B The start of a tick -/

variable {α : Type} [Scalar α]

/-- The box of the element is the one that its fields stand for. -/
def Element.IsCurrent : Element α → Prop
  | object o => o.box = o.currentBox
  | trigger t => t.box = t.placed.boundingBox

/-- Over the real numbers an element that is carried keeps the right box. -/
theorem Element.Carried.isCurrent {e e' : Element ℝ} (h : e.Carried e') (he : e.IsCurrent) :
    e'.IsCurrent := by
  cases h with
  | object h => exact h.box_eq_currentBox he
  | trigger t head => exact he

namespace World

theorem startElement_isCurrent (config : Config α) (e : Element α) (pool : ContactPool α) :
    (startElement config e pool).1.IsCurrent := by
  cases e with
  | object o => rfl
  | trigger t => rfl

/-- Whatever the boxes were before, they are right when a tick has started. -/
theorem start_isCurrent (w : World α) : ∀ e ∈ w.start.1.elements, e.IsCurrent :=
  forall_mem_start w (startElement_isCurrent w.config)

/-! ## §C A tick -/

/-- **Cached boxes stay true.** In exact arithmetic, and whatever the fields of the elements were
before a tick, the box of every object and of every trigger that is there after it is the one that
computing it anew would give. -/
theorem recalcBox_eq_self_of_collide {w : World ℝ} {outcome : Outcome ℝ}
    (h : w.collide = .ok outcome) :
    (∀ o, .object o ∈ outcome.world.elements → o.recalcBox = o) ∧
      ∀ t, .trigger t ∈ outcome.world.elements → t.recalcBox = t := by
  obtain ⟨elements, l, hsettle, hremove⟩ := exists_settled_of_collide h
  have hcurrent : ∀ e ∈ outcome.world.elements, e.IsCurrent := by
    intro e he
    have hsettled : e ∈ elements := (removeAll_subset hremove).1 e he
    obtain ⟨e₀, he₀, hcarried⟩ :=
      (settled_carried hsettle).exists_of_mem (Array.mem_toList_iff.mpr hsettled)
    exact hcarried.isCurrent (start_isCurrent w e₀ (Array.mem_toList_iff.mp he₀))
  constructor
  · intro o ho
    show DynamicObject.mk .. = o
    rw [← show o.box = o.currentBox from hcurrent _ ho]
  · intro t ht
    show SpatialTrigger.mk .. = t
    rw [← show t.box = t.placed.boundingBox from hcurrent _ ht]

/-- A fixed ball is added at the origin, and whoever holds the world puts it elsewhere without bringing
its box up to date. -/
noncomputable def misplacedBall : World ℝ :=
  let ball : DynamicObject ℝ := .create ⟨1⟩ ⟨.sphere 1, 0, 0, 0⟩ Layers.all Vec3.zero none
  ((World.new { Config.standard with contactPoolCapacity := 3 }).after
    (.addObject { ball with flags := ObjectFlags.fixed })).after
    (.modifyObject ⟨1⟩ fun o => { o with position := ⟨4, 0, 0⟩ })

/-- A tick leaves the ball where it was put. -/
theorem misplacedBall_collide : ∃ outcome, misplacedBall.collide = .ok outcome ∧
    ∃ o, .object o ∈ outcome.world.elements ∧ o.position = ⟨4, 0, 0⟩ := by
  rw [collide_of_single (Nat.le_of_eq rfl)]
  exact ⟨_, rfl, _, Array.mem_of_getElem? (i := 0) rfl, rfl⟩

/-- And its box is there as well. -/
theorem misplacedBall_recalcBox : ∃ outcome, misplacedBall.collide = .ok outcome ∧
    ∃ o, .object o ∈ outcome.world.elements ∧ o.position = ⟨4, 0, 0⟩ ∧ o.recalcBox = o := by
  obtain ⟨outcome, hcollide, o, ho, hposition⟩ := misplacedBall_collide
  exact ⟨outcome, hcollide, o, ho, hposition, (recalcBox_eq_self_of_collide hcollide).1 o ho⟩

end World

end ConvexCollision
