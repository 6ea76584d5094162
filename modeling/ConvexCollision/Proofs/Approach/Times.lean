import ConvexCollision.Proofs.Approach.Turn
import ConvexCollision.Proofs.Except
import ConvexCollision.Proofs.Signs

/-!
# ConvexCollision.Proofs.Approach.Times -- every contact of an approach is on the way

The time that an approach reports for a contact lies between the start of the motion and its end, whatever
the two sets are and however the arithmetic rounds (`sweep_onWay`). Times only grow: a turn that goes on has
found the sets apart by more than the gap that it leaves, and closing in at a positive speed.

Such a quotient may still be undefined, of an infinite distance by an infinite speed. Then the mover is
asked for at a place that is undefined, all that the search for nearest points sees of it is undefined, and
there is no direction to close in along (`normal_eq_zero_of_undefined`). So the turn after it ends the
approach, and no contact is reported for that time.
-/

namespace ConvexCollision

variable {α : Type} [Scalar α]

/-! ## §A A set at no place -/

namespace ClosestPoints

section Strict

variable [Scalar.Strict α]

/-- A combination of undefined vectors is undefined, if there is any to combine. -/
theorem combine_undefined {points : List (Vec3 α)} {weights : List α} (h : ∀ p ∈ points, p.Undefined)
    (hsome : points.zip weights ≠ []) : (combine points weights).Undefined := by
  have hfrom (pairs : List (Vec3 α × α)) (hpairs : ∀ pw ∈ pairs, pw.1.Undefined) :
      ∀ v : Vec3 α, v.Undefined ∨ pairs ≠ [] →
        (pairs.foldl (fun v pw => v + pw.1 * pw.2) v).Undefined := by
    induction pairs with
    | nil => exact fun v hv => hv.resolve_right fun hnil => hnil rfl
    | cons pw pairs ih =>
      intro v _
      obtain ⟨hhead, htail⟩ := List.forall_mem_cons.mp hpairs
      exact ih htail _ (.inl ((hhead.mul pw.2).add_right v))
  exact hfrom _ (fun pw hpw => h _ (List.of_mem_zip hpw).1) _ (.inr hsome)

variable {a b : Support α} (hb : ∀ d, (b d).Undefined)

include hb

/-- No point of the difference is defined. -/
theorem along_undefined (d : Vec3 α) : (SupportPoint.along a b d).diff.Undefined :=
  (hb (-d)).sub_right _

/-- The search keeps to points that are undefined, however it ends. -/
theorem search_undefined (steps : Nat) {s : State α} (hs : ∀ p ∈ s.simplex, p.diff.Undefined) :
    ∀ p ∈ (search a b steps s).simplex, p.diff.Undefined := by
  induction steps generalizing s with
  | zero => exact hs
  | succ steps ih =>
    have hgrown : ∀ p ∈ s.simplex ++ [SupportPoint.along a b s.dir], p.diff.Undefined := by
      intro p hp
      rcases List.mem_append.mp hp with hp | hp
      · exact hs p hp
      · rw [List.mem_singleton.mp hp]
        exact along_undefined hb _
    unfold search
    simp only
    split
    · exact hs
    split
    · exact hs
    split
    · exact hs
    split
    · exact hs
    · refine ih fun p hp => hgrown p ?_
      -- what is retained was there before
      simp only [Simplex.retain, List.unzip_eq_map, List.mem_map] at hp
      obtain ⟨pw, hpw, rfl⟩ := hp
      exact (List.of_mem_zip (List.mem_of_mem_filter hpw)).1

/-- There is no direction to a set at no place. -/
theorem normal_eq_zero_of_undefined [Approach.Tuned α] : (between a b).normal = Vec3.zero := by
  have hfound : ∀ p ∈ (search a b Overlap.maxSteps (start a b)).simplex, p.diff.Undefined := by
    refine search_undefined hb _ fun p hp => ?_
    rw [List.mem_singleton.mp hp]
    exact along_undefined hb _
  unfold between normal ofState
  generalize search a b Overlap.maxSteps (start a b) = s at hfound
  by_cases hnone : s.simplex.zip s.weights = []
  · -- nothing is combined on either side
    have hzip (f : SupportPoint α → Vec3 α) : (s.simplex.map f).zip s.weights = [] := by
      rw [List.zip_map_left, hnone, List.map_nil]
    simp only [combine, hzip, List.foldl_nil]
    exact Approach.Tuned.nowhere
  · have hsome : (s.simplex.map (·.onB)).zip s.weights ≠ [] := by
      rw [List.zip_map_left]
      exact fun hnil => hnone (List.map_eq_nil_iff.mp hnil)
    have hpoints : ∀ p ∈ s.simplex.map (·.onB), p.Undefined := by
      intro v hv
      obtain ⟨p, hp, rfl⟩ := List.mem_map.mp hv
      exact (hfound p hp).sub_right _
    exact ((combine_undefined hpoints hsome).sub_left _).normalizeOrZero_eq

end Strict

end ClosestPoints

/-! ## §B Turns -/

namespace Approach

/-- The time is between the start of a motion and its end. -/
structure OnWay (time : α) : Prop where
  /-- Not before the start. -/
  start_le : 0 ≤ time
  /-- Not after the end. -/
  le_end : time ≤ 1

/-- The last contact seen was on the way, and so is the time that the advance has come to, if it is
defined. -/
structure State.Timed (s : State α) : Prop where
  /-- A time that is defined is on the way. -/
  time : s.time ≤ s.time → OnWay s.time
  /-- The last contact was on the way. -/
  lastApart : ∀ hit, s.lastApart = some hit → OnWay hit.time

omit [Scalar α] in
theorem hit?_ofLastApart (last : Option (Hit α)) : (ofLastApart last).hit? = last := by
  cases last <;> rfl

variable [Scalar.Signed α] {a b : Support α} {motion : Vec3 α} {s : State α}

theorem timed_initial : (initial : State α).Timed where
  time h := ⟨h, Scalar.Signed.zero_le_one⟩
  lastApart _ h := nomatch h

variable [Tuned α]

/-- Where there is a direction, the time was defined. -/
theorem State.Timed.onWay (hs : s.Timed)
    (hnormal : ¬ ((s.closest a b motion).normal.same Vec3.zero = true)) : OnWay s.time := by
  apply hs.time
  by_contra hundefined
  have hplaced : ∀ d, (placed b motion s.time d).Undefined := fun d =>
    (Vec3.undefined_mul motion fun h => hundefined (Scalar.Strict.defined_sub h).1).add_right _
  have hzero : (s.closest a b motion).normal = Vec3.zero :=
    ClosestPoints.normal_eq_zero_of_undefined hplaced
  have hsame : Scalar.same (0 : α) 0 = true := by
    have hdefined : (0 : α) ≤ 0 := Scalar.Ordered.defined_left Scalar.Signed.zero_le_one
    exact Scalar.same_iff.mpr ⟨hdefined, hdefined⟩
  rw [hzero] at hnormal
  exact hnormal (Vec3.same_iff.mpr fun axis => by cases axis <;> exact hsame)

/-- A turn that goes on does not go back. -/
theorem start_le_reached (hs : OnWay s.time)
    (hcloses : ¬ s.closing a b motion ≤ motion.length * grazing)
    (hapart : ¬ (s.closest a b motion).distance < touching)
    (hdefined : s.reached a b motion ≤ s.reached a b motion) : 0 ≤ s.reached a b motion := by
  obtain ⟨-, hquotient⟩ := Scalar.Strict.defined_add hdefined
  obtain ⟨hgap, hclosing⟩ := Scalar.Strict.defined_div hquotient
  have hpositive : 0 < s.closing a b motion := closing_pos hclosing hcloses
  have hdistance : (touching : α) ≤ (s.closest a b motion).distance :=
    Scalar.le_of_not_lt (Scalar.Ordered.defined_right Tuned.skin_le_touching)
      (Scalar.Strict.defined_sub hgap).1 hapart
  have hleft : 0 ≤ (s.closest a b motion).distance - skin :=
    Scalar.Signed.sub_nonneg Tuned.isFinite_skin
      (Scalar.Ordered.le_trans Tuned.skin_le_touching hdistance)
  exact Scalar.Signed.add_nonneg hs.start_le (Scalar.Signed.div_nonneg hleft hpositive hquotient)

/-- A turn ends with a contact on the way, or goes on with its times on the way. -/
theorem State.Timed.turn (hs : s.Timed) :
    match turn a b motion s with
    | .ended result => ∀ hit, result.hit? = some hit → OnWay hit.time
    | .onward s' => s'.Timed := by
  have hturn := turn_cases a b motion s
  generalize Approach.turn a b motion s = outcome at hturn ⊢
  cases hturn with
  | overlaps =>
    intro hit hhit
    exact hs.lastApart hit (by rwa [← hit?_ofLastApart s.lastApart])
  | grazes => exact fun hit hhit => nomatch hhit
  | touches _ directed =>
    intro hit hhit
    cases hhit
    exact hs.onWay directed
  | passes => exact fun hit hhit => nomatch hhit
  | advances _ directed closes far onWay =>
    have htime : OnWay s.time := hs.onWay directed
    refine ⟨fun hdefined => ⟨start_le_reached htime closes far hdefined, ?_⟩, ?_⟩
    · exact Scalar.le_of_not_lt hdefined (Scalar.Ordered.defined_right Scalar.Signed.zero_le_one) onWay
    · intro hit hhit
      cases hhit
      exact htime

/-! ## §C The whole advance -/

/-- However many turns are taken, the contact that is reported was on the way. -/
theorem advance_onWay (n : Nat) (hs : s.Timed) {hit : Hit α}
    (hhit : (advance a b motion n s.time s.lastApart).hit? = some hit) : OnWay hit.time := by
  induction n generalizing s with
  | zero => exact hs.lastApart hit hhit
  | succ n ih =>
    have hturn : match Approach.turn a b motion s with
        | .ended result => ∀ hit, result.hit? = some hit → OnWay hit.time
        | .onward s' => s'.Timed := hs.turn
    rw [advance_succ] at hhit
    generalize Approach.turn a b motion s = outcome at hturn hhit
    cases outcome with
    | ended result => exact hturn hit hhit
    | onward s' => exact ih hturn hhit

/-- **A contact is on the way.** Whatever the two sets and the motion are, the time of a contact that an
approach reports is defined, not before the start of the motion and not after its end. -/
theorem sweep_onWay {hit : Hit α} (h : (sweep a b motion).hit? = some hit) : OnWay hit.time :=
  advance_onWay maxSteps timed_initial h

end Approach

end ConvexCollision
