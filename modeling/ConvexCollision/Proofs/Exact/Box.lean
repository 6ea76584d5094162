import ConvexCollision.Proofs.Bounds
import ConvexCollision.Proofs.Except
import ConvexCollision.Proofs.Exact.Shape

/-!
# ConvexCollision.Proofs.Exact.Box -- the smallest box around a set

A box has six sides, one for each half axis, and is known by how far it reaches along each of them. It is
the smallest one around a set when it holds every point of the set and lies within every box that does. A
set has one smallest box at most, and where some point of the set lies furthest along each half axis the
smallest box reaches just as far (`IsSmallest.reach_eq`). A set that is enlarged and moved takes its
smallest box along (`isSmallest_moved_iff`).

The box of a list of points starts out empty, with its sides at the ends of the finite range, so along each
half axis it reaches as far as the furthest of the points, but to the end of the range at least
(`exists_reach_ofPoints`).
-/

namespace ConvexCollision

/-! ## §A Half axes -/

namespace Vec3

variable (v w : Vec3 ℝ) (s : ℝ) (axis : Axis)

@[simp] theorem coord_add : (v + w).coord axis = v.coord axis + w.coord axis := by cases axis <;> rfl

@[simp] theorem coord_smul : (s • v).coord axis = s * v.coord axis := by cases axis <;> simp [coord]

variable {v w} in
theorem ext_coord (h : ∀ axis, v.coord axis = w.coord axis) : v = w := by
  ext
  · exact h .x
  · exact h .y
  · exact h .z

end Vec3

/-- An axis, followed one way or the other. -/
structure HalfAxis where
  /-- The axis. -/
  axis : Axis
  /-- It is followed the way its coordinate grows. -/
  forward : Bool

namespace HalfAxis

/-- The unit vector of an axis. -/
noncomputable def unit : Axis → Vec3 ℝ
  | .x => Vec3.unitX
  | .y => Vec3.unitY
  | .z => Vec3.unitZ

/-- The unit vector along a half axis. -/
noncomputable def dir (side : HalfAxis) : Vec3 ℝ := if side.forward then unit side.axis else -unit side.axis

theorem unit_dot (axis : Axis) (v : Vec3 ℝ) : (unit axis).dot v = v.coord axis := by
  cases axis <;> simp [unit, Vec3.unitX, Vec3.unitY, Vec3.unitZ, Vec3.dot_def, Vec3.coord]

@[simp] theorem forward_dot (axis : Axis) (v : Vec3 ℝ) : (dir ⟨axis, true⟩).dot v = v.coord axis :=
  unit_dot axis v

@[simp] theorem backward_dot (axis : Axis) (v : Vec3 ℝ) : (dir ⟨axis, false⟩).dot v = -v.coord axis := by
  show (-unit axis).dot v = _
  rw [Vec3.neg_dot, unit_dot]

/-- What holds both ways along every axis holds along every half axis. -/
theorem forall_iff {P : HalfAxis → Prop} :
    (∀ side, P side) ↔ (∀ axis, P ⟨axis, false⟩) ∧ ∀ axis, P ⟨axis, true⟩ := by
  constructor
  · exact fun h => ⟨fun _ => h _, fun _ => h _⟩
  · rintro ⟨hback, hforward⟩ ⟨axis, forward⟩
    cases forward
    · exact hback axis
    · exact hforward axis

end HalfAxis

/-- Along every direction some point of the set lies furthest. -/
def HasFurthest (S : Set (Vec3 ℝ)) : Prop := ∀ d : Vec3 ℝ, ∃ p ∈ S, ∀ q ∈ S, d.dot q ≤ d.dot p

/-- What moves the points of a set without bending it keeps a furthest one along every direction. -/
theorem HasFurthest.image {S : Set (Vec3 ℝ)} (h : HasFurthest S) {f g : Vec3 ℝ → Vec3 ℝ} {k : ℝ}
    (hk : 0 ≤ k) {c : Vec3 ℝ → ℝ} (hdot : ∀ d p, d.dot (f p) = k * (g d).dot p + c d) :
    HasFurthest (f '' S) := by
  intro d
  obtain ⟨p, hp, hle⟩ := h (g d)
  refine ⟨f p, Set.mem_image_of_mem f hp, ?_⟩
  rintro _ ⟨q, hq, rfl⟩
  rw [hdot, hdot]
  exact add_le_add_left (mul_le_mul_of_nonneg_left (hle q hq) hk) _

/-- Among finitely many points some lies furthest, and none of their hull lies further. -/
theorem hasFurthest_convexHull {ps : List (Vec3 ℝ)} (hsome : ps ≠ []) :
    HasFurthest (convexHull ℝ {p | p ∈ ps}) := by
  intro d
  obtain ⟨p, hp, hle⟩ := Set.exists_max_image {p | p ∈ ps} (d.dot ·) ps.finite_toSet
    (List.exists_mem_of_ne_nil ps hsome)
  exact ⟨p, subset_convexHull ℝ _ hp, fun q hq => Vec3.dot_le_of_mem_convexHull hq hle⟩

namespace Bounds

/-! ## §B Smallest boxes -/

/-- How far the box reaches along a half axis. -/
def reach (b : Bounds ℝ) (side : HalfAxis) : ℝ :=
  if side.forward then b.maxs.coord side.axis else -b.mins.coord side.axis

/-- The box that reaches this far. -/
noncomputable def ofReach (f : HalfAxis → ℝ) : Bounds ℝ :=
  ⟨Vec3.ofCoords fun axis => -f ⟨axis, false⟩, Vec3.ofCoords fun axis => f ⟨axis, true⟩⟩

variable {b c : Bounds ℝ} {S T : Set (Vec3 ℝ)} {p : Vec3 ℝ} {side : HalfAxis}

@[simp] theorem reach_forward (b : Bounds ℝ) (axis : Axis) : b.reach ⟨axis, true⟩ = b.maxs.coord axis := rfl

@[simp] theorem reach_backward (b : Bounds ℝ) (axis : Axis) :
    b.reach ⟨axis, false⟩ = -b.mins.coord axis := rfl

@[simp] theorem reach_ofReach (f : HalfAxis → ℝ) (side : HalfAxis) : (ofReach f).reach side = f side := by
  obtain ⟨axis, forward⟩ := side
  cases forward
  · cases axis <;> exact neg_neg _
  · cases axis <;> rfl

theorem eq_of_reach_eq (h : ∀ side, b.reach side = c.reach side) : b = c := by
  obtain ⟨hback, hforward⟩ := HalfAxis.forall_iff.mp h
  obtain ⟨bmins, bmaxs⟩ := b
  obtain ⟨cmins, cmaxs⟩ := c
  obtain rfl : bmins = cmins := Vec3.ext_coord fun axis => neg_injective (hback axis)
  obtain rfl : bmaxs = cmaxs := Vec3.ext_coord hforward
  rfl

/-- A box holds the points that are no further out along any half axis than it reaches. -/
theorem holds_iff : b.Holds p ↔ ∀ side : HalfAxis, side.dir.dot p ≤ b.reach side := by
  rw [HalfAxis.forall_iff]
  simp only [HalfAxis.forward_dot, HalfAxis.backward_dot, reach_forward, reach_backward, neg_le_neg_iff]
  exact ⟨fun h => ⟨h.mins, h.maxs⟩, fun h => ⟨h.1, h.2⟩⟩

theorem within_iff : b.Within c ↔ ∀ side, b.reach side ≤ c.reach side := by
  rw [HalfAxis.forall_iff]
  simp only [reach_forward, reach_backward, neg_le_neg_iff]
  exact ⟨fun h => ⟨h.mins, h.maxs⟩, fun h => ⟨h.1, h.2⟩⟩

/-- The box holds every point of a set. -/
def Covers (b : Bounds ℝ) (S : Set (Vec3 ℝ)) : Prop := ∀ p ∈ S, b.Holds p

theorem covers_iff : b.Covers S ↔ ∀ side : HalfAxis, ∀ p ∈ S, side.dir.dot p ≤ b.reach side := by
  unfold Covers
  simp only [holds_iff]
  exact ⟨fun h side p hp => h p hp side, fun h p hp side => h side p hp⟩

/-- The box holds every point of a set, and lies within every box that does. -/
structure IsSmallest (b : Bounds ℝ) (S : Set (Vec3 ℝ)) : Prop where
  /-- No point of the set is outside. -/
  covers : b.Covers S
  /-- No box around the set is smaller on any side. -/
  within {c : Bounds ℝ} : c.Covers S → b.Within c

/-- A set has one smallest box at most. -/
theorem IsSmallest.unique (h : b.IsSmallest S) (g : c.IsSmallest S) : b = c :=
  eq_of_reach_eq fun side => le_antisymm (within_iff.mp (h.within g.covers) side)
    (within_iff.mp (g.within h.covers) side)

/-- The smallest box reaches as far as the furthest point of the set does. -/
theorem IsSmallest.reach_eq (h : b.IsSmallest S) (hp : p ∈ S)
    (hle : ∀ q ∈ S, side.dir.dot q ≤ side.dir.dot p) : b.reach side = side.dir.dot p := by
  classical
  refine le_antisymm ?_ (holds_iff.mp (h.covers p hp) side)
  -- the box cut off at the point still covers the set
  have hcut : (ofReach (Function.update b.reach side (side.dir.dot p))).Covers S := by
    refine covers_iff.mpr fun other q hq => ?_
    rw [reach_ofReach]
    by_cases heq : other = side
    · rw [heq, Function.update_self]
      exact hle q hq
    · rw [Function.update_of_ne heq]
      exact holds_iff.mp (h.covers q hq) other
  have hwithin := within_iff.mp (h.within hcut) side
  rwa [reach_ofReach, Function.update_self] at hwithin

/-- A box that covers a set and reaches no further than some of its points is the smallest one. -/
theorem Covers.isSmallest (h : b.Covers S) (hreach : ∀ side, ∃ p ∈ S, b.reach side ≤ side.dir.dot p) :
    b.IsSmallest S := by
  refine ⟨h, fun hc => within_iff.mpr fun side => ?_⟩
  obtain ⟨p, hp, hle⟩ := hreach side
  exact hle.trans (holds_iff.mp (hc p hp) side)

/-- A box that reaches just as far as the furthest points of a set is the smallest one. -/
theorem isSmallest_of_reach (h : ∀ side : HalfAxis, ∃ p ∈ S,
    (∀ q ∈ S, side.dir.dot q ≤ side.dir.dot p) ∧ b.reach side = side.dir.dot p) : b.IsSmallest S := by
  refine Covers.isSmallest (covers_iff.mpr fun side q hq => ?_) fun side => ?_
  · obtain ⟨p, -, hle, heq⟩ := h side
    exact heq ▸ hle q hq
  · obtain ⟨p, hp, -, heq⟩ := h side
    exact ⟨p, hp, heq.le⟩

/-- A box that reaches as far as the support function of a set does is the smallest one, where the support
points are furthest points of the set. -/
theorem isSmallest_of_furthest {a : Support ℝ} (hreach : ∀ side, b.reach side = side.dir.dot (a side.dir))
    (h : ∀ side : HalfAxis, Furthest a S side.dir) : b.IsSmallest S :=
  isSmallest_of_reach fun side => ⟨_, (h side).mem, (h side).le, hreach side⟩

/-- A box that reaches beyond a set is not its smallest one. -/
theorem not_isSmallest_of_overshoots {a : Support ℝ} (hS : HasFurthest S)
    (hreach : b.reach side = side.dir.dot (a side.dir)) (h : Overshoots a S side.dir) :
    ¬ b.IsSmallest S := by
  intro hsmallest
  obtain ⟨p, hp, hle⟩ := hS side.dir
  exact (h p hp).ne ((hsmallest.reach_eq hp hle).symm.trans hreach)

/-! ## §C Boxes that are enlarged and moved -/

/-- The box enlarged and then moved by an offset. -/
noncomputable def moved (b : Bounds ℝ) (k : ℝ) (offset : Vec3 ℝ) : Bounds ℝ :=
  ⟨b.mins * k + offset, b.maxs * k + offset⟩

variable {k : ℝ} {offset : Vec3 ℝ}

theorem reach_moved (b : Bounds ℝ) (k : ℝ) (offset : Vec3 ℝ) (side : HalfAxis) :
    (b.moved k offset).reach side = k * b.reach side + side.dir.dot offset := by
  obtain ⟨axis, forward⟩ := side
  cases forward
  · simp only [moved, reach_backward, HalfAxis.backward_dot, Vec3.mul_eq_smul, Vec3.coord_add,
      Vec3.coord_smul]
    ring
  · simp [moved]

theorem dot_moved (d offset p : Vec3 ℝ) (k : ℝ) : d.dot (p * k + offset) = k * d.dot p + d.dot offset := by
  rw [Vec3.dot_add, Vec3.mul_eq_smul, Vec3.dot_smul]

/-- The smallest box around a set that is enlarged and moved is the box of the set, enlarged and moved. -/
theorem isSmallest_moved_iff (hS : HasFurthest S) (hk : 0 ≤ k) :
    (b.moved k offset).IsSmallest ((fun p => p * k + offset) '' S) ↔ k = 0 ∨ b.IsSmallest S := by
  have hfurthest {side : HalfAxis} {p : Vec3 ℝ} (hle : ∀ q ∈ S, side.dir.dot q ≤ side.dir.dot p) :
      ∀ q ∈ (fun p => p * k + offset) '' S, side.dir.dot q ≤ side.dir.dot (p * k + offset) := by
    rintro _ ⟨q, hq, rfl⟩
    rw [dot_moved, dot_moved]
    exact add_le_add_left (mul_le_mul_of_nonneg_left (hle q hq) hk) _
  constructor
  · intro h
    refine or_iff_not_imp_left.mpr fun hne => isSmallest_of_reach fun side => ?_
    obtain ⟨p, hp, hle⟩ := hS side.dir
    have heq := h.reach_eq (Set.mem_image_of_mem _ hp) (hfurthest hle)
    rw [dot_moved, reach_moved] at heq
    exact ⟨p, hp, hle, mul_left_cancel₀ hne (add_right_cancel heq)⟩
  · intro h
    refine isSmallest_of_reach fun side => ?_
    obtain ⟨p, hp, hle⟩ := hS side.dir
    refine ⟨_, Set.mem_image_of_mem _ hp, hfurthest hle, ?_⟩
    rw [dot_moved, reach_moved]
    rcases h with rfl | h
    · rw [zero_mul, zero_mul]
    · rw [h.reach_eq hp hle]

/-! ## §D Boxes of points -/

theorem reach_insert (b : Bounds ℝ) (p : Vec3 ℝ) (side : HalfAxis) :
    (b.insert p).reach side = max (b.reach side) (side.dir.dot p) := by
  obtain ⟨axis, forward⟩ := side
  cases forward
  · rw [reach_backward, HalfAxis.backward_dot, reach_backward, max_neg_neg, neg_inj]
    show (lower b.mins p).coord axis = _
    rw [coord_lower, min_def]
    split <;> split <;> grind
  · rw [reach_forward, HalfAxis.forward_dot, reach_forward]
    show (upper b.maxs p).coord axis = _
    rw [coord_upper, max_def]
    split <;> split <;> grind

/-- The box of some points reaches to all of them, and as far as one of them unless it reaches just to the
end of the finite range. -/
theorem exists_reach_ofPoints (ps : List (Vec3 ℝ)) (side : HalfAxis) :
    (∀ p ∈ ps, side.dir.dot p ≤ (ofPoints ps).reach side) ∧
      -Scalar.maxFinite ≤ (ofPoints ps).reach side ∧
      ((ofPoints ps).reach side = -Scalar.maxFinite ∨
        ∃ p ∈ ps, (ofPoints ps).reach side = side.dir.dot p) := by
  unfold ofPoints
  refine inv_foldl_passed (fun passed (b : Bounds ℝ) => (∀ p ∈ passed, side.dir.dot p ≤ b.reach side) ∧
    -Scalar.maxFinite ≤ b.reach side ∧
    (b.reach side = -Scalar.maxFinite ∨ ∃ p ∈ passed, b.reach side = side.dir.dot p)) ?_ ?_
  · rintro passed p - b - ⟨hle, hend, hfound⟩
    have hlast : p ∈ passed ++ [p] := List.mem_append_right _ (List.mem_singleton_self p)
    rw [reach_insert]
    refine ⟨fun q hq => ?_, hend.trans (le_max_left _ _), ?_⟩
    · rcases List.mem_append.mp hq with hq | hq
      · exact (hle q hq).trans (le_max_left _ _)
      · rw [List.mem_singleton.mp hq]
        exact le_max_right _ _
    · rcases max_choice (b.reach side) (side.dir.dot p) with heq | heq
      · rw [heq]
        exact hfound.imp_right fun ⟨q, hq, hreach⟩ => ⟨q, List.mem_append_left _ hq, hreach⟩
      · exact .inr ⟨p, hlast, heq⟩
  · have hempty : (empty : Bounds ℝ).reach side = -Scalar.maxFinite := by
      obtain ⟨axis, forward⟩ := side
      cases axis <;> cases forward <;> rfl
    exact ⟨fun _ hnone => absurd hnone List.not_mem_nil, hempty.ge, .inl hempty⟩

/-- The box of points of a set that leave no box around them but boxes around the set is the smallest one,
just when along each half axis some of the points does not fall short of the end of the finite range. -/
theorem isSmallest_ofPoints_iff {ps : List (Vec3 ℝ)} (hsome : ps ≠ []) (hmem : ∀ p ∈ ps, p ∈ S)
    (hcovers : ∀ {c : Bounds ℝ}, c.Covers {p | p ∈ ps} → c.Covers S) :
    (ofPoints ps).IsSmallest S ↔ ∀ side : HalfAxis, ∃ p ∈ ps, -Scalar.maxFinite ≤ side.dir.dot p := by
  have hall : (ofPoints ps).Covers {p | p ∈ ps} :=
    covers_iff.mpr fun side p hp => (exists_reach_ofPoints ps side).1 p hp
  constructor
  · intro h side
    choose far hfar hle using fun side : HalfAxis => Set.exists_max_image {p | p ∈ ps}
      (side.dir.dot ·) ps.finite_toSet (List.exists_mem_of_ne_nil ps hsome)
    -- the box that reaches to the furthest of the points on each side is one around the set
    have htight : (ofReach fun side => side.dir.dot (far side)).Covers {p | p ∈ ps} :=
      covers_iff.mpr fun side p hp => (reach_ofReach _ side).symm ▸ hle side p hp
    have hwithin := within_iff.mp (h.within (hcovers htight)) side
    rw [reach_ofReach] at hwithin
    exact ⟨far side, hfar side, (exists_reach_ofPoints ps side).2.1.trans hwithin⟩
  · intro hspan
    refine (hcovers hall).isSmallest fun side => ?_
    obtain ⟨hle, -, hend | ⟨p, hp, heq⟩⟩ := exists_reach_ofPoints ps side
    · obtain ⟨p, hp, hge⟩ := hspan side
      exact ⟨p, hmem p hp, hend.le.trans hge⟩
    · exact ⟨p, hmem p hp, heq.le⟩

end Bounds

end ConvexCollision
