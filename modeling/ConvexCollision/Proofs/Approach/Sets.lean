import ConvexCollision.Proofs.Sweep.Clear
import ConvexCollision.Proofs.Approach.Conservative
import ConvexCollision.Proofs.Approach.Found
import ConvexCollision.Proofs.Exact.Shape
import ConvexCollision.Proofs.Exact.Signs

/-!
# ConvexCollision.Proofs.Approach.Sets -- what an approach says of the sets themselves

An approach sees its two sets through their support functions, and what it passes is first known of the
solids that these stand for. A solid may hold points that its set lacks, since a set need not be closed.
Nearest points of two convex sets are nearest points of their solids all the same (`IsExact.solid`): the
slab between them is bounded by two support points, which belong to the sets. So an approach passes nothing
of the sets either (`sweep_sets`).

Whatever the arithmetic is, every contact that is reported was found by a turn that closed in faster than
grazing (`sweep_closes`), also one that only stands in for a contact after the sets were found to overlap or
the turns were used up.
-/

namespace ConvexCollision

/-! ## §A Nearest points of sets and of solids -/

/-- Nearest points of two convex sets are nearest points of their solids. -/
theorem ClosestPoints.IsExact.solid {c : ClosestPoints ℝ} {a b : Support ℝ} {A B : Set (Vec3 ℝ)}
    (h : c.IsExact A B) (hA : Convex ℝ A) (hB : Convex ℝ B) (ha : IsSupport a A) (hb : IsSupport b B) :
    c.IsExact (Support.solid a) (Support.solid b) := by
  constructor
  case overlap =>
    exact fun hnear => (h.overlap hnear).mono (Set.inter_subset_inter ha.subset_solid hb.subset_solid)
  case mem => exact fun hpos => (h.mem hpos).imp (ha.subset_solid ·) (hb.subset_solid ·)
  case length => exact h.length
  case le =>
    intro hpos x hx y hy
    -- neither solid reaches further into the slab than a point of its set
    have hslab := h.le_dot_sub hpos hA hB (ha.mem c.normal) (hb.mem (-c.normal))
    have hreachA := hx c.normal
    have hreachB := hy (-c.normal)
    rw [Vec3.neg_dot, Vec3.neg_dot, neg_le_neg_iff] at hreachB
    have hunit : c.normal.length ≤ 1 := Vec3.length_normalizeOrZero_le _
    calc c.distance ≤ c.normal.dot (b (-c.normal) - a c.normal) := hslab
      _ ≤ c.normal.dot (y - x) := by
        rw [Vec3.dot_sub, Vec3.dot_sub]
        exact sub_le_sub hreachB hreachA
      _ ≤ c.normal.length * (y - x).length := Vec3.dot_le_length_mul_length _ _
      _ ≤ (y - x).length := mul_le_of_le_one_left (Vec3.length_nonneg _) hunit

namespace Approach

/-! ## §B How fast the mover closes in on a contact -/

section Closes

variable {α : Type} [Scalar α] {a b : Support α} {motion : Vec3 α}

/-- The mover closes in on the contact faster than grazing. -/
def Closes (motion : Vec3 α) (hit : Hit α) : Prop :=
  ¬ -(motion.dot hit.normal) ≤ motion.length * grazing

/-- **No contact is grazed.** Whatever the two sets and the motion are, the mover closes in faster than
grazing on every contact that an approach reports. -/
theorem sweep_closes {hit : Hit α} (h : (sweep a b motion).hit? = some hit) : Closes motion hit := by
  obtain ⟨-, -, s, -, hfinds, rfl⟩ := sweep_found h
  exact hfinds.closes

end Closes

/-! ## §C The sets on their way -/

variable {a b : Support ℝ} {motion : Vec3 ℝ} {A B : Set (Vec3 ℝ)}

/-- A set at a time of its motion, at the end of which it is given. -/
def setAt (B : Set (Vec3 ℝ)) (motion : Vec3 ℝ) (time : ℝ) : Set (Vec3 ℝ) :=
  (· + (time - 1) • motion) '' B

variable (a b motion A B) in
/-- Every answer that the approach uses is right about the two sets. -/
def IsExactFor : Prop :=
  ∀ k < maxSteps, ∀ s, after a b motion k initial = some s →
    (s.closest a b motion).IsExact A (setAt B motion s.time)

theorem convex_setAt (hB : Convex ℝ B) (time : ℝ) : Convex ℝ (setAt B motion time) := by
  unfold setAt
  simp only [add_comm _ ((time - 1) • motion)]
  exact hB.translate _

/-- The support function of a set stays exact on its way. -/
theorem isSupport_placed (hb : IsSupport b B) (time : ℝ) :
    IsSupport (placed b motion time) (setAt B motion time) := by
  have htranslate := hb.translate (motion * (time - 1))
  rw [Vec3.mul_eq_smul] at htranslate
  unfold placed setAt
  rw [Scalar.one_real, Vec3.mul_eq_smul]
  exact htranslate

/-- Sets of which the solids are apart are apart. -/
theorem ApartAt.disjoint {time : ℝ} (h : ApartAt a b motion time) (ha : IsSupport a A)
    (hb : IsSupport b B) : Disjoint A (setAt B motion time) :=
  Set.disjoint_of_subset ha.subset_solid (isSupport_placed hb time).subset_solid h

/-- A contact is on the way, its points belong to the sets at its time, its normal is the unit vector from one
to the other, and the sets are apart then. Nothing is asked of the sets but that the nearest points are
right. -/
theorem sweep_apart (hexact : IsExactFor a b motion A B) {hit : Hit ℝ}
    (hhit : (sweep a b motion).hit? = some hit) :
    (0 ≤ hit.time ∧ hit.time ≤ 1) ∧ (hit.contactA ∈ A ∧ hit.contactB ∈ setAt B motion hit.time) ∧
      (hit.normal = (hit.contactB - hit.contactA).normalizeOrZero ∧ hit.normal.dot hit.normal = 1) ∧
      Disjoint A (setAt B motion hit.time) := by
  obtain ⟨hstart, hend⟩ := sweep_onWay hhit
  rw [Scalar.zero_real] at hstart
  rw [Scalar.one_real] at hend
  obtain ⟨k, hk, s, hafter, hfinds, rfl⟩ := sweep_found hhit
  have hright := hexact k hk s hafter
  have hpos : 0 < (s.closest a b motion).distance := not_le.mp (Scalar.zero_real ▸ hfinds.apart)
  exact ⟨⟨hstart, hend⟩, hright.mem hpos, ⟨rfl, hright.normal_dot_self hpos⟩, hright.disjoint hpos⟩

/-- **An approach passes nothing.** When the nearest points that it uses are nearest points of two convex
sets, every contact is on the way, the mover closes in on it faster than grazing, and the sets are apart up
to its time. Without a contact, when the sets are apart at the start and no turn grazed, they are apart all
the way. -/
theorem sweep_sets (hA : Convex ℝ A) (hB : Convex ℝ B) (ha : IsSupport a A) (hb : IsSupport b B)
    (hexact : IsExactFor a b motion A B) :
    (∀ hit, (sweep a b motion).hit? = some hit → 0 ≤ hit.time ∧ hit.time ≤ 1 ∧
        hit.normal.dot motion < -(grazing * motion.length) ∧
        ∀ t, 0 ≤ t → t ≤ hit.time → Disjoint A (setAt B motion t)) ∧
      ((sweep a b motion).hit? = none → Disjoint A (setAt B motion 0) → ¬ Grazes a b motion →
        ∀ t, 0 ≤ t → t ≤ 1 → Disjoint A (setAt B motion t)) := by
  have hsolid (k : Nat) (hk : k < maxSteps) (s : State ℝ) (hs : after a b motion k initial = some s) :
      s.IsExact a b motion :=
    (hexact k hk s hs).solid hA (convex_setAt hB s.time) ha (isSupport_placed hb s.time)
  have hright := sweep_conservative hsolid
  constructor
  · intro hit hhit
    rw [hhit] at hright
    obtain ⟨hnonneg, hle, hapart⟩ := hright
    have hcloses : motion.length * grazing < -(motion.dot hit.normal) := not_le.mp (sweep_closes hhit)
    refine ⟨hnonneg, hle, ?_, fun t ht htle => (hapart t ht htle).disjoint ha hb⟩
    rw [Vec3.dot_comm, mul_comm]
    exact lt_neg.mp hcloses
  · intro hnone hstart hgrazes
    rw [hnone] at hright
    rcases hright with hoverlap | hgrazed | hapart
    · -- the first answer says whether the sets are apart at the start
      have hzero : (initial : State ℝ).time = 0 := Scalar.zero_real
      have hfirst := hexact 0 (Nat.succ_pos 15) initial rfl
      rw [hzero] at hfirst
      by_cases hpos : 0 < ((initial : State ℝ).closest a b motion).distance
      · refine absurd ?_ hoverlap
        apply (hsolid 0 (Nat.succ_pos 15) initial rfl).apartAt hpos
        rw [hzero, sub_self, zero_mul]
        exact hpos
      · have hshared := hfirst.overlap (not_lt.mp hpos)
        exact absurd hstart (Set.not_disjoint_iff_nonempty_inter.mpr hshared)
    · exact absurd hgrazed hgrazes
    · exact fun t ht htle => (hapart t ht htle).disjoint ha hb

open Resolve in
/-- The dart comes next to the thin wall, and it has not touched the wall until then. -/
theorem sweep_sets_thinWall : ∃ hit, (sweep thinWall.support dart.support ⟨2, 0, 0⟩).hit? = some hit ∧
    hit.time = 0.4975 ∧ hit.normal.dot ⟨2, 0, 0⟩ < -(grazing * (⟨2, 0, 0⟩ : Vec3 ℝ).length) ∧
    ∀ t : ℝ, 0 ≤ t → t ≤ 0.4975 → Disjoint thinWall.points (setAt {⟨1, 0, 0⟩} ⟨2, 0, 0⟩ t) := by
  have hpoint : IsSupport dart.support {⟨1, 0, 0⟩} := by
    rw [dart_support]
    exact ⟨fun _ => rfl, fun d x hx => (congrArg d.dot (Set.mem_singleton_iff.mp hx)).le⟩
  have hexact : IsExactFor thinWall.support dart.support ⟨2, 0, 0⟩ thinWall.points {⟨1, 0, 0⟩} := by
    intro k _ s hs
    have hplace : setAt {⟨1, 0, 0⟩} ⟨2, 0, 0⟩ s.time = Support.solid (pointAt (2 * s.time - 1)) := by
      rw [solid_pointAt, setAt, Set.image_singleton, Set.singleton_eq_singleton_iff]
      ext <;> simp
      ring
    have hnearest := between_thinWall_isExact (time_of_after hs)
    rw [thinWall.solid_support] at hnearest
    rw [State.closest, placed_dart, hplace]
    exact hnearest
  obtain ⟨hit, hhit, -, htime⟩ := sweep_thinWall
  obtain ⟨-, -, hcloses, hapart⟩ := (sweep_sets (convex_convexHull ℝ _) (convex_singleton _)
    thinWall.isSupport hpoint hexact).1 hit hhit
  rw [htime] at hapart
  exact ⟨hit, hhit, htime, hcloses, hapart⟩

end Approach

end ConvexCollision
