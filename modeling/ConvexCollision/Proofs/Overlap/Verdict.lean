import ConvexCollision.Proofs.Exact.Support
import ConvexCollision.Proofs.Overlap.Turn
import ConvexCollision.Proofs.Simplex.Kept
import Mathlib.Order.CompletePartialOrder

/-!
# ConvexCollision.Proofs.Overlap.Verdict -- the verdict of the search is right

Between two turns the search holds points of the difference of the two sets, and the direction leads
from a point of their hull to the origin (`State.Inside`). A turn that ends with overlap therefore has
a point of the difference within the fixed distance of the origin.

While no threshold of the projection fires, that point is the nearest of the hull (`State.IsTight`). A
turn that ends without overlap has then asked for a point short of the origin, whichever of its three
exits it takes:

* a repeated point lies next to one of the simplex, which is as far short of the origin as the nearest
  point;
* a point short of the origin is so by definition;
* without progress the nearest point stays where it is, and the new point is as far short as that one.

No point of the difference lies further along the direction, so the origin does not belong to it
(`verdict_sound`).
-/

namespace ConvexCollision.Overlap

open scoped Pointwise

variable {a b : Support ℝ} {D : Set (Vec3 ℝ)} {s s' : State ℝ} {found : Simplex ℝ}

/-! ## § What the search holds -/

namespace State

/-- The points belong to the difference, and the direction leads from their hull to the origin. -/
structure Inside (D : Set (Vec3 ℝ)) (s : State ℝ) : Prop where
  /-- The points belong to the difference. -/
  points_subset : s.simplex.points ⊆ D
  /-- There is room for one more. -/
  length_le : s.simplex.length ≤ 3
  /-- The direction leads from a point of the hull to the origin. -/
  mem_hull : -s.dir ∈ convexHull ℝ s.simplex.points
  /-- That point is not near the origin. -/
  far : containsOriginSq ≤ s.dir.lengthSq
  /-- Its squared distance is the one to fall short of, except in the first turn. -/
  closest_eq : s.closest = Scalar.maxFinite ∨ s.closest = s.dir.lengthSq

/-- The point that the direction starts from is the nearest one of the hull. -/
def IsTight (s : State ℝ) : Prop := ∀ x ∈ s.simplex.points, s.dir.lengthSq ≤ (-s.dir).dot x

/-- The turn comes to the projection, and there a threshold fires: the grown simplex has points that
coincide, lie on a line or lie in a plane. -/
def Degenerate (a b : Support ℝ) (s : State ℝ) : Prop :=
  s.simplex.hasPoint (s.asked a b).diff = false ∧ ¬s.dir.dot (s.asked a b).diff < 0 ∧
    Projection.Fires ((s.grown a b).map (·.diff))

end State

section Turn

variable (hsupport : IsSupport (fun d => (SupportPoint.along a b d).diff) D) (hD : Convex ℝ D)
  (hbound : ∀ x ∈ D, x.lengthSq < Scalar.maxFinite) (hs : s.Inside D)

/-! ## § Growing the simplex -/

theorem grown_points : (s.grown a b).points = insert (s.asked a b).diff s.simplex.points := by
  ext x
  simp only [Simplex.mem_points, State.grown, List.mem_append, List.mem_singleton, Set.mem_insert_iff]
  constructor
  · rintro ⟨p, hp | rfl, rfl⟩
    · exact Or.inr ⟨p, hp, rfl⟩
    · exact Or.inl rfl
  · rintro (rfl | ⟨p, hp, rfl⟩)
    · exact ⟨_, Or.inr rfl, rfl⟩
    · exact ⟨p, Or.inl hp, rfl⟩

include hsupport hs in
theorem grown_subset : (s.grown a b).points ⊆ D := by
  rw [grown_points]
  exact Set.insert_subset (hsupport.mem s.dir) hs.points_subset

include hsupport hbound hs in
/-- The point that is reached has the weights of the projection, and what has a weight is kept. -/
theorem exists_reached : ∃ w, Projection.IsProjection (s.grown a b).place w ∧
    s.reached a b = combine (s.grown a b).place w ∧
    s.kept a b = ((s.grown a b).retain (List.ofFn w)).1 := by
  have hlength : (s.grown a b).length ≤ 4 := by
    rw [State.grown, List.length_append]
    exact Nat.succ_le_succ hs.length_le
  obtain ⟨w, hw, hnearest⟩ := Simplex.exists_projection (by simp [State.grown]) hlength
    fun x hx => hbound x (grown_subset hsupport hs hx)
  exact ⟨w, hw, by rw [State.reached, hnearest], by rw [State.kept, hnearest]⟩

include hsupport hD hbound hs in
/-- The point that is reached belongs to the difference. -/
theorem reached_mem : s.reached a b ∈ D := by
  obtain ⟨w, hw, hreached, -⟩ := exists_reached hsupport hbound hs
  have hhull : s.reached a b ∈ convexHull ℝ (s.grown a b).points := by
    rw [hreached]
    exact convexHull_mono Simplex.kept_points_subset (Simplex.combine_mem_kept hw.weights)
  exact convexHull_min (grown_subset hsupport hs) hD hhull

include hsupport hbound hs in
/-- Without a threshold firing it is the nearest one of the hull. -/
theorem reached_nearest (hclear : ¬Projection.Fires ((s.grown a b).map (·.diff))) :
    ∀ x ∈ (s.grown a b).points, (s.reached a b).lengthSq ≤ (s.reached a b).dot x := by
  obtain ⟨w, hw, hreached, -⟩ := exists_reached hsupport hbound hs
  intro x hx
  obtain ⟨i, rfl⟩ := Simplex.exists_place hx
  rw [Simplex.map_diff] at hclear
  rw [hreached]
  exact (hw.nearest hclear).le i

include hsupport hbound hs in
/-- A full tetrahedron encloses the origin. -/
theorem reached_eq_zero (hfour : (s.kept a b).length = 4) : s.reached a b = 0 := by
  obtain ⟨w, hw, hreached, hkept⟩ := exists_reached hsupport hbound hs
  rw [hkept] at hfour
  have hlength : (s.grown a b).length = 4 := by
    refine le_antisymm ?_ (hfour ▸ Simplex.kept_length_le)
    rw [State.grown, List.length_append]
    exact Nat.succ_le_succ hs.length_le
  rw [hreached]
  exact hw.encloses hlength (Simplex.ne_zero_of_kept_length (hfour.trans hlength.symm))

/-! ## § The turns -/

theorem containsOriginSq_pos : (0 : ℝ) < containsOriginSq := by
  simp only [containsOriginSq]
  norm_num

include hsupport hD hbound hs in
/-- A turn with overlap has a point of the difference near the origin. -/
theorem Inside.exists_near (h : turn a b s = .overlap found) :
    ∃ v ∈ D, v.lengthSq < containsOriginSq := by
  refine ⟨s.reached a b, reached_mem hsupport hD hbound hs, ?_⟩
  rcases turn_overlap h with hnear | ⟨hfar, hfour⟩
  · exact hnear
  · -- the origin is enclosed, and then the turn has come near it
    rw [reached_eq_zero hsupport hbound hs hfour] at hfar
    exact absurd ((Vec3.dot_zero 0).trans_lt containsOriginSq_pos) hfar

include hsupport hbound hs in
/-- An undecided turn goes on with points of the difference. -/
theorem Inside.onward (h : turn a b s = .onward s') : s'.Inside D := by
  obtain ⟨w, hw, hreached, hkept⟩ := exists_reached hsupport hbound hs
  obtain ⟨-, -, hfar, hfour, rfl⟩ := turn_onward h
  refine ⟨?_, ?_, ?_, ?_, Or.inr ?_⟩
  · rw [hkept]
    exact Simplex.kept_points_subset.trans (grown_subset hsupport hs)
  · have hle : (s.kept a b).length ≤ (s.grown a b).length := hkept ▸ Simplex.kept_length_le
    rw [State.grown, List.length_append, List.length_singleton] at hle
    have := hs.length_le
    change (s.kept a b).length ≤ 3
    omega
  · rw [neg_neg, hkept, hreached]
    exact Simplex.combine_mem_kept hw.weights
  · exact (not_lt.mp hfar).trans_eq (Vec3.lengthSq_neg _).symm
  · exact (Vec3.lengthSq_neg _).symm

include hsupport hbound hs in
/-- Without a threshold firing it goes on from the nearest point of the hull. -/
theorem isTight_onward (h : turn a b s = .onward s') (hclear : ¬s.Degenerate a b) : s'.IsTight := by
  obtain ⟨w, -, -, hkept⟩ := exists_reached hsupport hbound hs
  obtain ⟨hnew, hshort, -, -, rfl⟩ := turn_onward h
  rw [Scalar.zero_real] at hshort
  have hfires : ¬Projection.Fires ((s.grown a b).map (·.diff)) :=
    fun hfire => hclear ⟨hnew, hshort, hfire⟩
  intro x hx
  rw [Vec3.lengthSq_neg, neg_neg]
  change x ∈ (s.kept a b).points at hx
  rw [hkept] at hx
  exact reached_nearest hsupport hbound hs hfires x (Simplex.kept_points_subset hx)

include hs in
/-- A repeated point is short of the origin. -/
theorem asked_short_of_repeated (htight : s.IsTight)
    (h : s.simplex.hasPoint (s.asked a b).diff = true) : s.dir.dot (s.asked a b).diff < 0 := by
  obtain ⟨p, hp, hnear⟩ := List.any_eq_true.mp h
  have hclose : (p.diff - (s.asked a b).diff).dot (p.diff - (s.asked a b).diff) < s.dir.lengthSq := by
    refine (of_decide_eq_true hnear).trans (lt_of_lt_of_le ?_ hs.far)
    simp only [Simplex.duplicateSq, containsOriginSq]
    norm_num
  have hreach := htight p.diff ⟨p, hp, rfl⟩
  have hsq := Vec3.dot_self_nonneg (s.dir + (p.diff - (s.asked a b).diff))
  generalize (s.asked a b).diff = q at *
  simp only [Vec3.lengthSq_eq, Vec3.add_dot, Vec3.dot_add, Vec3.sub_dot, Vec3.dot_sub, Vec3.neg_dot,
    Vec3.dot_comm p.diff s.dir, Vec3.dot_comm q s.dir] at hclose hreach hsq
  linarith

include hsupport hD hbound hs in
/-- Without progress the point is short of the origin, too. -/
theorem asked_short_of_stay (hfires : ¬Projection.Fires ((s.grown a b).map (·.diff)))
    (h : s.closest ≤ (s.reached a b).lengthSq) : s.dir.dot (s.asked a b).diff < 0 := by
  have hnearest := reached_nearest hsupport hbound hs hfires
  have hmem : (s.reached a b).lengthSq < Scalar.maxFinite :=
    hbound _ (reached_mem hsupport hD hbound hs)
  have hlong : s.dir.lengthSq ≤ (s.reached a b).lengthSq := by
    rcases hs.closest_eq with hfirst | hlater
    · rw [hfirst] at h
      exact absurd hmem (not_lt.mpr h)
    · rw [hlater] at h
      exact h
  have hsubset : s.simplex.points ⊆ (s.grown a b).points := grown_points ▸ Set.subset_insert _ _
  have hback := Vec3.le_dot_of_mem_convexHull hs.mem_hull fun x hx => hnearest x (hsubset hx)
  -- the nearest point is unique
  have hstay : s.reached a b + s.dir = 0 := by
    refine (Vec3.dot_self_eq_zero _).mp (le_antisymm ?_ (Vec3.dot_self_nonneg _))
    simp only [Vec3.lengthSq_eq, Vec3.add_dot, Vec3.dot_add, Vec3.dot_neg,
      Vec3.dot_comm s.dir (s.reached a b)] at hback hlong ⊢
    linarith
  have hasked := hnearest (s.asked a b).diff (grown_points ▸ Set.mem_insert _ _)
  have hpos := containsOriginSq_pos.trans_le hs.far
  rw [eq_neg_of_add_eq_zero_left hstay, Vec3.lengthSq_neg, Vec3.neg_dot] at hasked
  linarith

include hsupport hD hbound hs in
/-- A turn without overlap has asked for a point short of the origin, and the origin does not belong
to the difference. -/
theorem Inside.zero_notMem (htight : s.IsTight) (hclear : ¬s.Degenerate a b)
    (h : turn a b s = .apart) : (0 : Vec3 ℝ) ∉ D := by
  have hshort : s.dir.dot (s.asked a b).diff < 0 := by
    rcases turn_apart h with hrepeat | hshort | ⟨hnew, hpast, hstay⟩
    · exact asked_short_of_repeated hs htight hrepeat
    · rwa [Scalar.zero_real] at hshort
    · rw [Scalar.zero_real] at hpast
      exact asked_short_of_stay hsupport hD hbound hs (fun hfire => hclear ⟨hnew, hpast, hfire⟩) hstay
  intro hzero
  have hfurthest := hsupport.le s.dir 0 hzero
  rw [Vec3.dot_zero] at hfurthest
  exact absurd hshort (not_lt.mpr hfurthest)

end Turn

/-! ## § The verdict -/

/-- The search was decided within its turns, and no threshold of the projection fired in any of them. -/
structure Clear (a b : Support ℝ) (s : State ℝ) : Prop where
  /-- The turns are not used up. -/
  decided : after a b maxSteps s = none
  /-- No turn is degenerate. -/
  not_degenerate : ∀ k < maxSteps, ∀ s', after a b k s = some s' → ¬s'.Degenerate a b

theorem initial_points (d : Vec3 ℝ) : (initial a b d).simplex.points = {(start a b d).diff} := by
  ext x
  simp [Simplex.mem_points, initial, eq_comm]

theorem initial_inside (hsupport : IsSupport (fun d => (SupportPoint.along a b d).diff) D) (d : Vec3 ℝ)
    (hfar : ¬(initial a b d).dir.lengthSq < containsOriginSq) : (initial a b d).Inside D where
  points_subset := by
    rw [initial_points, Set.singleton_subset_iff]
    exact hsupport.mem _
  length_le := Nat.le_add_left 1 2
  mem_hull := by
    rw [initial_points, convexHull_singleton, initial, neg_neg]
    rfl
  far := not_lt.mp hfar
  closest_eq := Or.inl rfl

theorem initial_isTight (d : Vec3 ℝ) : (initial a b d).IsTight := by
  intro x hx
  rw [initial_points, Set.mem_singleton_iff] at hx
  simp [hx, initial, Vec3.lengthSq_eq]

section Search

variable {d : Vec3 ℝ}
  (hsupport : IsSupport (fun d => (SupportPoint.along a b d).diff) D) (hD : Convex ℝ D)
  (hbound : ∀ x ∈ D, x.lengthSq < Scalar.maxFinite)

include hsupport hD hbound

theorem exists_near_of_find? (h : find? a b d = some found) :
    ∃ v ∈ D, v.lengthSq < containsOriginSq := by
  rw [find?_eq] at h
  obtain ⟨simplex, hfound, -⟩ := Option.map_eq_some_iff.mp h
  split at hfound
  · rename_i hnear
    refine ⟨(start a b d).diff, hsupport.mem _, ?_⟩
    simpa [initial, Vec3.lengthSq_eq] using hnear
  · rename_i hfar
    obtain ⟨k, s', hafter, hturn⟩ := exists_turn_of_search_eq_some hfound
    have hinside : s'.Inside D := inv_after (·.Inside D)
      (fun _ _ _ _ _ hs hstep => Inside.onward hsupport hbound hs hstep) hafter
      (initial_inside hsupport d hfar)
    exact Inside.exists_near hsupport hD hbound hinside hturn

theorem zero_notMem_of_find? (h : find? a b d = none) (hclear : Clear a b (initial a b d)) :
    (0 : Vec3 ℝ) ∉ D := by
  rw [find?_eq] at h
  have hsearch := Option.map_eq_none_iff.mp h
  split at hsearch
  · exact absurd hsearch (by simp)
  · rename_i hfar
    obtain ⟨k, hk, s', hafter, hturn⟩ := exists_turn_of_search_eq_none hsearch hclear.decided
    obtain ⟨hinside, htight⟩ : s'.Inside D ∧ s'.IsTight :=
      inv_after (fun s => s.Inside D ∧ s.IsTight)
        (fun j hj s₁ s₂ hs₁ hboth hstep => ⟨Inside.onward hsupport hbound hboth.1 hstep,
          isTight_onward hsupport hbound hboth.1 hstep
            (hclear.not_degenerate j (hj.trans hk) s₁ hs₁)⟩)
        hafter ⟨initial_inside hsupport d hfar, initial_isTight d⟩
    exact Inside.zero_notMem hsupport hD hbound hinside htight
      (hclear.not_degenerate k hk s' hafter) hturn

end Search

/-- A vector within the fixed distance of the origin is shorter than it. -/
theorem length_lt_of_lengthSq_lt {v : Vec3 ℝ} (h : v.lengthSq < containsOriginSq) :
    v.length < (0.0001 : ℝ) := by
  have hpos : (0 : ℝ) < 0.0001 := by norm_num
  refine (Real.sqrt_lt' hpos).mpr (h.trans_eq ?_)
  rw [sq]
  rfl

variable {A B : Set (Vec3 ℝ)}

/-- **The verdict of the search is right.** When it finds overlap, some points of the two sets are
nearer to each other than the fixed distance. When it finds none, before its turns are used up and
without a threshold of the projection firing in any of them, the sets have no point in common. -/
theorem verdict_sound (hA : Convex ℝ A) (hB : Convex ℝ B) (ha : IsSupport a A) (hb : IsSupport b B)
    (hbound : ∀ x ∈ A, ∀ y ∈ B, (x - y).lengthSq < Scalar.maxFinite) (firstDirection : Vec3 ℝ) :
    (∀ found, find? a b firstDirection = some found →
      ∃ x ∈ A, ∃ y ∈ B, (x - y).length < (0.0001 : ℝ)) ∧
    (find? a b firstDirection = none → Clear a b (initial a b firstDirection) → Disjoint A B) := by
  have hsupport := ha.sub hb
  have hD := hA.sub hB
  have hdifference : ∀ x ∈ A - B, x.lengthSq < Scalar.maxFinite := by
    rintro _ ⟨x, hx, y, hy, rfl⟩
    exact hbound x hx y hy
  constructor
  · intro found hfound
    obtain ⟨_, ⟨x, hx, y, hy, rfl⟩, hnear⟩ := exists_near_of_find? hsupport hD hdifference hfound
    exact ⟨x, hx, y, hy, length_lt_of_lengthSq_lt hnear⟩
  · intro hnone hclear
    have hzero := zero_notMem_of_find? hsupport hD hdifference hnone hclear
    exact Set.disjoint_left.mpr fun x hxA hxB => hzero ⟨x, hxA, x, hxB, sub_self x⟩

/-- A box of half size one about the origin. -/
noncomputable def unitBox : Support ℝ := (Shape.box ⟨1, 1, 1⟩).support

/-- The same box, moved along the first axis. -/
noncomputable def movedBox (k : ℝ) : Support ℝ := Support.translate unitBox ⟨k, 0, 0⟩

/-- Along the first axis the difference of the boxes ends where the gap between them does. -/
theorem movedBox_along (k : ℝ) :
    (SupportPoint.along unitBox (movedBox k) ⟨1, 0, 0⟩).diff = ⟨2 - k, 0, 0⟩ := by
  ext <;> simp [SupportPoint.along, unitBox, movedBox, Support.translate, Shape.support, signSelect]
  rw [if_neg (not_lt.mpr zero_le_one)]
  ring

theorem movedBox_start (k : ℝ) : (start unitBox (movedBox k) ⟨1, 0, 0⟩).diff = ⟨2 - k, 0, 0⟩ := by
  rw [start, if_pos, movedBox_along]
  simp [Simplex.degenerateSq, Vec3.lengthSq_eq, Vec3.dot_def]
  norm_num

theorem movedBox_bound {k : ℝ} (hk : |k| ≤ 3) : ∀ x ∈ boxPoints ⟨1, 1, 1⟩,
    ∀ y ∈ (· + ⟨k, 0, 0⟩) '' boxPoints ⟨1, 1, 1⟩, (x - y).lengthSq < Scalar.maxFinite := by
  rintro x ⟨hx, hy, hz⟩ _ ⟨y, ⟨hx', hy', hz'⟩, rfl⟩
  have hmem : x - (y + ⟨k, 0, 0⟩) ∈ boxPoints ⟨5, 2, 2⟩ := by
    simp only [boxPoints, Set.mem_ofPred_eq, Vec3.sub_x, Vec3.sub_y, Vec3.sub_z, Vec3.add_x, Vec3.add_y,
      Vec3.add_z, abs_le] at *
    refine ⟨?_, ?_, ?_⟩ <;> constructor <;> linarith
  refine (lengthSq_le_of_mem_boxPoints hmem).trans_lt ?_
  simp only [Scalar.maxFinite, Scalar.ofNat_real, Vec3.lengthSq_eq, Vec3.dot_def]
  norm_num

/-- Boxes that touch are found to overlap before the first turn. -/
theorem touchingBoxes_found : ∃ found, find? unitBox (movedBox 2) ⟨1, 0, 0⟩ = some found := by
  have hnear : (initial unitBox (movedBox 2) ⟨1, 0, 0⟩).dir.lengthSq < containsOriginSq := by
    simp only [initial, movedBox_start]
    simpa [Vec3.lengthSq_eq, Vec3.dot_def] using containsOriginSq_pos
  rw [find?_eq]
  simp only [if_pos hnear]
  exact ⟨_, rfl⟩

/-- The first turn between boxes with a gap of one unit asks for the point that the search begins
with. -/
theorem gapBoxes_repeat : (initial unitBox (movedBox 3) ⟨1, 0, 0⟩).simplex.hasPoint
    ((initial unitBox (movedBox 3) ⟨1, 0, 0⟩).asked unitBox (movedBox 3)).diff = true := by
  have hdir : (initial unitBox (movedBox 3) ⟨1, 0, 0⟩).dir = ⟨1, 0, 0⟩ := by
    simp only [initial, movedBox_start]
    ext <;> simp
    norm_num
  have hzero : (0 : ℝ) < Simplex.duplicateSq := by
    simp only [Simplex.duplicateSq]
    norm_num
  rw [State.asked, hdir, movedBox_along]
  simp [initial, Simplex.hasPoint, movedBox_start, Vec3.lengthSq_eq, hzero]

/-- Boxes with a gap of one unit are found not to overlap, in the first turn. -/
theorem gapBoxes_none : find? unitBox (movedBox 3) ⟨1, 0, 0⟩ = none ∧
    Clear unitBox (movedBox 3) (initial unitBox (movedBox 3) ⟨1, 0, 0⟩) := by
  have hturn : turn unitBox (movedBox 3) (initial unitBox (movedBox 3) ⟨1, 0, 0⟩) = .apart :=
    if_pos gapBoxes_repeat
  have hfar : ¬(initial unitBox (movedBox 3) ⟨1, 0, 0⟩).dir.lengthSq < containsOriginSq := by
    simp only [initial, movedBox_start]
    simp [Vec3.lengthSq_eq, Vec3.dot_def, containsOriginSq]
    norm_num
  refine ⟨?_, ?_, fun k _ s' hafter => ?_⟩
  · rw [find?_eq]
    simp only [if_neg hfar, maxSteps, search_succ, hturn, Option.map_none]
  · simp only [maxSteps, after, hturn]
  · cases k with
    | zero =>
      rw [← Option.some.inj hafter]
      exact fun hfire => absurd gapBoxes_repeat (Bool.eq_false_iff.mp hfire.1)
    | succ k =>
      simp only [after, hturn] at hafter
      exact absurd hafter (by simp)

/-- Boxes that touch come near each other, and boxes with a gap have no point in common. -/
theorem boxes_verdict :
    (∃ x ∈ boxPoints ⟨1, 1, 1⟩, ∃ y ∈ (· + ⟨2, 0, 0⟩) '' boxPoints ⟨1, 1, 1⟩,
      (x - y).length < (0.0001 : ℝ)) ∧
    Disjoint (boxPoints ⟨1, 1, 1⟩) ((· + ⟨3, 0, 0⟩) '' boxPoints ⟨1, 1, 1⟩) := by
  have hconvex (k : ℝ) : Convex ℝ ((· + (⟨k, 0, 0⟩ : Vec3 ℝ)) '' boxPoints ⟨1, 1, 1⟩) := by
    simpa only [add_comm] using (convex_boxPoints ⟨1, 1, 1⟩).translate ⟨k, 0, 0⟩
  have hsupport : IsSupport unitBox (boxPoints ⟨1, 1, 1⟩) :=
    isSupport_box zero_le_one zero_le_one zero_le_one
  obtain ⟨found, hfound⟩ := touchingBoxes_found
  constructor
  · exact (verdict_sound (convex_boxPoints _) (hconvex 2) hsupport (hsupport.translate _)
      (movedBox_bound (by norm_num)) ⟨1, 0, 0⟩).1 found hfound
  · exact (verdict_sound (convex_boxPoints _) (hconvex 3) hsupport (hsupport.translate _)
      (movedBox_bound (by norm_num)) ⟨1, 0, 0⟩).2 gapBoxes_none.1 gapBoxes_none.2

end ConvexCollision.Overlap
