import ConvexCollision.Bounds
import ConvexCollision.Proofs.Order

/-!
# ConvexCollision.Proofs.Bounds -- boxes around finite points

A box made of finite points is finite, and lies within every box that it was put into. A box that
meets another one also meets all that the other one lies within.
-/

namespace ConvexCollision

/-- Every coordinate is finite. -/
def Vec3.IsFinite {α : Type} [Scalar α] (v : Vec3 α) : Prop :=
  ∀ axis, Scalar.isFinite (v.coord axis) = true

instance {α : Type} [Scalar α] (v : Vec3 α) : Decidable v.IsFinite :=
  decidable_of_iff (∀ axis ∈ Axis.all, Scalar.isFinite (v.coord axis) = true)
    ⟨fun h axis => h axis (by cases axis <;> decide), fun h axis _ => h axis⟩

namespace Bounds

variable {α : Type} [Scalar α]

/-- Both corners are finite. -/
structure IsFinite (b : Bounds α) : Prop where
  /-- The corner with the smallest coordinates. -/
  mins : b.mins.IsFinite
  /-- The corner with the largest coordinates. -/
  maxs : b.maxs.IsFinite

/-- No coordinate of a corner is undefined. -/
structure Defined (b : Bounds α) : Prop where
  /-- The corner with the smallest coordinates. -/
  mins : ∀ axis, b.mins.coord axis ≤ b.mins.coord axis
  /-- The corner with the largest coordinates. -/
  maxs : ∀ axis, b.maxs.coord axis ≤ b.maxs.coord axis

/-- The box reaches no further than another one on any side. -/
structure Within (a b : Bounds α) : Prop where
  /-- It starts no earlier. -/
  mins : ∀ axis, b.mins.coord axis ≤ a.mins.coord axis
  /-- It ends no later. -/
  maxs : ∀ axis, a.maxs.coord axis ≤ b.maxs.coord axis

/-- The box holds a point. -/
structure Holds (b : Bounds α) (p : Vec3 α) : Prop where
  /-- It starts no later than the point. -/
  mins : ∀ axis, b.mins.coord axis ≤ p.coord axis
  /-- It ends no earlier than the point. -/
  maxs : ∀ axis, p.coord axis ≤ b.maxs.coord axis

/-! ## §A Boxes that meet -/

theorem anyLt_eq_false_iff {a b : Vec3 α} :
    a.anyLt b = false ↔ ∀ axis, ¬ a.coord axis < b.coord axis := by
  unfold Vec3.anyLt
  simp only [Bool.or_eq_false_iff, decide_eq_false_iff_not]
  constructor
  · rintro ⟨⟨hx, hy⟩, hz⟩ axis
    cases axis
    · exact hx
    · exact hy
    · exact hz
  · exact fun h => ⟨⟨h .x, h .y⟩, h .z⟩

/-- Boxes meet when on no axis one of them ends before the other one starts. -/
theorem intersects_iff {a b : Bounds α} :
    a.intersects b = true ↔
      ∀ axis, ¬ a.maxs.coord axis < b.mins.coord axis ∧ ¬ b.maxs.coord axis < a.mins.coord axis := by
  unfold intersects
  rw [Bool.not_eq_true', Bool.or_eq_false_iff, anyLt_eq_false_iff, anyLt_eq_false_iff]
  exact forall_and.symm

/-- Boxes meet in either order or in neither. -/
theorem intersects_comm (a b : Bounds α) : a.intersects b = b.intersects a := by
  unfold intersects
  rw [Bool.or_comm]

section Ordered

variable [Scalar.Ordered α]

/-- Of two boxes that meet, neither ends before the other one starts. -/
theorem mins_le_maxs_of_intersects {a b : Bounds α} (ha : a.Defined) (hb : b.Defined)
    (h : a.intersects b = true) (axis : Axis) : a.mins.coord axis ≤ b.maxs.coord axis :=
  Scalar.le_of_not_lt (ha.mins axis) (hb.maxs axis) (intersects_iff.mp h axis).2

/-- What meets a box meets all that the box lies within. -/
theorem Within.intersects {a b box : Bounds α} (h : a.Within b) (hmeets : a.intersects box = true) :
    b.intersects box = true := by
  rw [intersects_iff] at hmeets ⊢
  intro axis
  refine ⟨fun hlt => (hmeets axis).1 ?_, fun hlt => (hmeets axis).2 ?_⟩
  · exact Scalar.lt_of_le_of_lt (h.maxs axis) hlt
  · exact Scalar.lt_of_lt_of_le hlt (h.mins axis)

theorem Within.trans {a b c : Bounds α} (h : a.Within b) (g : b.Within c) : a.Within c :=
  ⟨fun axis => Scalar.Ordered.le_trans (g.mins axis) (h.mins axis),
    fun axis => Scalar.Ordered.le_trans (h.maxs axis) (g.maxs axis)⟩

end Ordered

/-! ## §B Boxes that grow -/

theorem coord_lower (a p : Vec3 α) (axis : Axis) : (lower a p).coord axis =
    if p.coord axis < a.coord axis then p.coord axis else a.coord axis := by
  cases axis <;> rfl

theorem coord_upper (a p : Vec3 α) (axis : Axis) : (upper a p).coord axis =
    if a.coord axis < p.coord axis then p.coord axis else a.coord axis := by
  cases axis <;> rfl

theorem IsFinite.insert {b : Bounds α} (h : b.IsFinite) {p : Vec3 α} (hp : p.IsFinite) :
    (b.insert p).IsFinite := by
  refine ⟨fun axis => ?_, fun axis => ?_⟩
  · show Scalar.isFinite ((lower b.mins p).coord axis) = true
    rw [coord_lower]
    split
    · exact hp axis
    · exact h.mins axis
  · show Scalar.isFinite ((upper b.maxs p).coord axis) = true
    rw [coord_upper]
    split
    · exact hp axis
    · exact h.maxs axis

/-- A box into which finite points are put stays finite. -/
theorem IsFinite.foldl_insert {b : Bounds α} (h : b.IsFinite) {ps : List (Vec3 α)}
    (hps : ∀ p ∈ ps, p.IsFinite) : (ps.foldl Bounds.insert b).IsFinite := by
  induction ps generalizing b with
  | nil => exact h
  | cons p ps ih =>
    exact ih (h.insert (hps p List.mem_cons_self)) fun q hq => hps q (List.mem_cons_of_mem p hq)

variable [Scalar.FiniteEnds α]

theorem IsFinite.defined {b : Bounds α} (h : b.IsFinite) : b.Defined :=
  ⟨fun axis => Scalar.FiniteEnds.defined (h.mins axis),
    fun axis => Scalar.FiniteEnds.defined (h.maxs axis)⟩

theorem isFinite_empty : (empty : Bounds α).IsFinite := by
  refine ⟨fun axis => ?_, fun axis => ?_⟩
  · cases axis <;> exact Scalar.FiniteEnds.isFinite_maxFinite
  · cases axis <;> exact Scalar.FiniteEnds.isFinite_neg_maxFinite

/-- A box lies within what a point makes of it. -/
theorem IsFinite.within_insert {b : Bounds α} (h : b.IsFinite) (p : Vec3 α) :
    b.Within (b.insert p) := by
  refine ⟨fun axis => ?_, fun axis => ?_⟩
  · show (lower b.mins p).coord axis ≤ b.mins.coord axis
    rw [coord_lower]
    split
    · next hlt => exact (Scalar.Ordered.lt_iff.mp hlt).1
    · exact Scalar.FiniteEnds.defined (h.mins axis)
  · show b.maxs.coord axis ≤ (upper b.maxs p).coord axis
    rw [coord_upper]
    split
    · next hlt => exact (Scalar.Ordered.lt_iff.mp hlt).1
    · exact Scalar.FiniteEnds.defined (h.maxs axis)

/-- A box holds the point that it was grown to hold. -/
theorem IsFinite.holds_insert {b : Bounds α} (h : b.IsFinite) {p : Vec3 α} (hp : p.IsFinite) :
    (b.insert p).Holds p := by
  have hdefined := fun axis => Scalar.FiniteEnds.defined (hp axis)
  refine ⟨fun axis => ?_, fun axis => ?_⟩
  · show (lower b.mins p).coord axis ≤ p.coord axis
    rw [coord_lower]
    split
    · exact hdefined axis
    · next hlt => exact Scalar.le_of_not_lt (h.defined.mins axis) (hdefined axis) hlt
  · show p.coord axis ≤ (upper b.maxs p).coord axis
    rw [coord_upper]
    split
    · exact hdefined axis
    · next hlt => exact Scalar.le_of_not_lt (hdefined axis) (h.defined.maxs axis) hlt

/-- The box of finite points is finite. -/
theorem isFinite_ofPoints {ps : List (Vec3 α)} (hps : ∀ p ∈ ps, p.IsFinite) :
    (ofPoints ps).IsFinite := isFinite_empty.foldl_insert hps

/-- The union of finite boxes is finite and both lie within it. -/
theorem IsFinite.union {a b : Bounds α} (ha : a.IsFinite) (hb : b.IsFinite) :
    (a.union b).IsFinite ∧ a.Within (a.union b) ∧ b.Within (a.union b) := by
  have hmins := ha.insert hb.mins
  have hgrown := hmins.within_insert b.maxs
  refine ⟨hmins.insert hb.maxs, (ha.within_insert b.mins).trans hgrown, ?_⟩
  exact ⟨fun axis => Scalar.Ordered.le_trans (hgrown.mins axis) ((ha.holds_insert hb.mins).mins axis),
    (hmins.holds_insert hb.maxs).maxs⟩

/-- The union of a list of finite boxes is finite, and each of them lies within it. -/
theorem IsFinite.foldl_union {β : Type} {box : β → Bounds α} {l : List β}
    (hl : ∀ x ∈ l, (box x).IsFinite) {b : Bounds α} (h : b.IsFinite) :
    (l.foldl (fun b x => b.union (box x)) b).IsFinite ∧
      b.Within (l.foldl (fun b x => b.union (box x)) b) ∧
      ∀ x ∈ l, (box x).Within (l.foldl (fun b x => b.union (box x)) b) := by
  induction l generalizing b with
  | nil => exact ⟨h, ⟨h.defined.mins, h.defined.maxs⟩, fun x hx => absurd hx List.not_mem_nil⟩
  | cons x l ih =>
    obtain ⟨hunion, hleft, hright⟩ := h.union (hl x List.mem_cons_self)
    obtain ⟨hfinite, hwithin, hall⟩ := ih (fun y hy => hl y (List.mem_cons_of_mem x hy)) hunion
    refine ⟨hfinite, hleft.trans hwithin, ?_⟩
    intro y hy
    rcases List.mem_cons.mp hy with rfl | hy
    · exact hright.trans hwithin
    · exact hall y hy

end Bounds

end ConvexCollision
