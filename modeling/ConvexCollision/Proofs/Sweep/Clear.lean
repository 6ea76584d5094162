import ConvexCollision.Proofs.Approach.Found
import ConvexCollision.Proofs.Simplex.Projection
import ConvexCollision.Proofs.Overlap.Turn
import ConvexCollision.Proofs.Sweep.Hits
import ConvexCollision.Proofs.World.Ends

/-!
# ConvexCollision.Proofs.Sweep.Clear -- a fast object goes through nothing

The walk of an object over meshes that were built comes to its end, and along every leg of its route the
object overlaps a triangle only if it touched the triangle at the start of the leg, or the triangle's hit
was rejected there (`Leg.Clear`). A leg is as good as the answers that the geometry gives on it
(`Leg.Answered`), whatever happened on the legs before.

No leg is followed further than its earliest hit. The walk ends where nothing was hit, or with a remainder
of the motion that is too short to matter, or at the last place that is known to be free.
-/

namespace ConvexCollision.Resolve

variable {meshes : List (Mesh ℝ)} {limit left : Nat} {safe : Vec3 ℝ} {o o' : DynamicObject ℝ}
  {l l' : Ledger ℝ} {legs : List (Leg ℝ)}

/-! ## §A One leg -/

/-- What is asked of the geometry on the leg, about the triangles that the search comes to, is answered
rightly. -/
def Leg.Answered (meshes : List (Mesh ℝ)) (leg : Leg ℝ) : Prop :=
  ∀ m ∈ meshes, ∀ i, Found m leg.object leg.motion i → Resolve.Answered m leg.object leg.motion i

/-- Wherever on the leg the object overlaps a triangle that it shares a layer with, it touched the triangle
at the start of the leg, or the triangle's hit was rejected on the leg. -/
def Leg.Clear (meshes : List (Mesh ℝ)) (o : DynamicObject ℝ) (leg : Leg ℝ) : Prop :=
  ∀ m ∈ meshes, ∀ i < m.triangleCount, (m.stored i).layers.intersects o.layers = true →
    ∀ s : ℝ, 0 ≤ s → s ≤ 1 → o.OverlapsAt (leg.start + s • (leg.stop - leg.start)) (m.triangle i) →
      o.OverlapsAt leg.start (m.triangle i) ∨ Rejected m leg.object leg.motion i

/-- It does not matter what a tick has written to the object. -/
theorem Leg.Clear.of_kept {leg : Leg ℝ} (h : leg.Clear meshes o') (hkept : o'.kept = o.kept) :
    leg.Clear meshes o := by
  have hlayers : o'.kept.layers = o.kept.layers := congrArg DynamicObject.layers hkept
  change o'.layers = o.layers at hlayers
  have hoverlaps (place : Vec3 ℝ) (t : Triangle ℝ) : o'.OverlapsAt place t ↔ o.OverlapsAt place t := by
    unfold DynamicObject.OverlapsAt
    rw [DynamicObject.solidAt_of_kept hkept]
  unfold Leg.Clear at h ⊢
  simp only [hlayers, hoverlaps] at h
  exact h

/-- The motion begins where the leg begins. -/
theorem Leg.onWay_zero (leg : Leg ℝ) : leg.object.onWay leg.motion 0 = leg.start := by
  unfold DynamicObject.onWay Leg.motion
  module

theorem onWay_one (o : DynamicObject ℝ) (motion : Vec3 ℝ) : o.onWay motion 1 = o.position := by
  unfold DynamicObject.onWay
  module

/-- The contact point is where the object is at the time of the hit. -/
theorem slide_snd (o : DynamicObject ℝ) (motion : Vec3 ℝ) (hit : Hit ℝ) :
    (slide o motion hit).2 = o.onWay motion hit.time := by
  unfold slide DynamicObject.onWay
  simp only [Scalar.one_real, Vec3.mul_eq_smul]
  module

/-- **A leg is clear** that goes no further than the earliest hit. -/
theorem Leg.clear_of_le_reach (leg : Leg ℝ)
    (hbuilt : ∀ m ∈ meshes, ∃ vertices triangles, Mesh.build vertices triangles = .ok m)
    (hbox : leg.object.Boxed) {best : Option (SurfaceHit ℝ)}
    (hhit : earliestHit meshes leg.object leg.motion l = .ok (best, l')) {time : ℝ} (ht : 0 ≤ time)
    (hreach : time ≤ reach best) (hstop : leg.stop = leg.object.onWay leg.motion time)
    (hanswered : leg.Answered meshes) : leg.Clear meshes leg.object := by
  obtain ⟨-, hspared⟩ := earliestHit_clear hbuilt hbox hanswered hhit
  intro m hm i hi hlayers s hs hs1 hoverlap
  have hplace : leg.start + s • (leg.stop - leg.start) = leg.object.onWay leg.motion (s * time) := by
    rw [hstop]
    unfold DynamicObject.onWay Leg.motion
    module
  rw [hplace] at hoverlap
  rcases hspared m hm i hi hlayers with htouch | hrejected | hclear
  · left
    rwa [leg.onWay_zero] at htouch
  · exact Or.inr hrejected
  · exact absurd hoverlap
      (hclear _ (mul_nonneg hs ht) ((mul_le_of_le_one_left ht hs1).trans hreach))

/-- A leg that ends where it begins meets nothing that it did not meet there. -/
theorem clear_of_stop_eq {leg : Leg ℝ} (hstop : leg.stop = leg.start) : leg.Clear meshes o := by
  intro m _ i _ _ s _ _ hoverlap
  rw [hstop, sub_self, smul_zero, add_zero] at hoverlap
  exact Or.inl hoverlap

/-! ## §B The route -/

/-- An object is put back to where the leg began. -/
theorem putBack_position (o : DynamicObject ℝ) (place : Vec3 ℝ) : (putBack o place).position = place :=
  add_sub_cancel o.position place

/-- A motion that is not searched for hits is short. -/
theorem length_lt_of_lengthSq_lt {v : Vec3 ℝ} (h : v.lengthSq < minMotionSq) : v.length < 1e-4 := by
  unfold minMotionSq at h
  have hsq : v.lengthSq < (1e-4 : ℝ) ^ 2 := h.trans_eq (by norm_num)
  exact (Real.sqrt_lt' (by norm_num)).mpr hsq

/-- The last leg ends at a hit in no way: the object goes all the way, or it is put back to where the leg
began. A remainder is short. -/
theorem Leg.Leaves.ends {leg : Leg ℝ} (h : leg.Leaves o') :
    leg.ending ≠ .hit ∧ (leg.ending = .putBack → o'.position = leg.start) ∧
      (leg.ending = .remainder → (leg.stop - leg.start).length < 1e-4) := by
  cases h with
  | remainder hshort =>
    exact ⟨fun hend => (nomatch hend), fun hend => (nomatch hend),
      fun _ => length_lt_of_lengthSq_lt hshort⟩
  | arrived => exact ⟨fun hend => (nomatch hend), fun hend => (nomatch hend), fun hend => (nomatch hend)⟩
  | putBack =>
    exact ⟨fun hend => (nomatch hend), fun _ => putBack_position _ _, fun hend => (nomatch hend)⟩

/-- Each leg but the last one takes at most one contact. -/
theorem Route.freeCount_le (h : Route meshes limit left safe o l legs o' l') :
    l.pool.freeCount + 1 ≤ l'.pool.freeCount + legs.length := by
  induction h with
  | remainder _ => exact le_refl _
  | arrived _ hfree => rw [(earliestHit_reports hfree).pool, List.length_singleton]
  | @putBack safe o l l' hit _ hhit =>
    show l.pool.freeCount + 1 ≤ l'.pool.freeCount + 1
    rw [(earliestHit_reports hhit).pool]
  | @hit left safe o o' l l₁ l' hit legs _ hhit _ ih =>
    rw [List.length_cons, ← (earliestHit_reports hhit).pool]
    exact (Nat.succ_le_succ (Ledger.freeCount_pushFront_le l₁ _ _)).trans (Nat.succ_le_succ ih)

/-- Every leg of a route but a remainder is clear, as far as the geometry answers rightly on it. -/
theorem Route.clear
    (hbuilt : ∀ m ∈ meshes, ∃ vertices triangles, Mesh.build vertices triangles = .ok m)
    (h : Route meshes limit left safe o l legs o' l') (hbox : o.Boxed) :
    ∀ leg ∈ legs, leg.ending ≠ .remainder → leg.Answered meshes → leg.Clear meshes o := by
  induction h with
  | remainder _ =>
    intro leg hleg hend
    rw [List.mem_singleton.mp hleg] at hend
    exact absurd rfl hend
  | @arrived left safe o l l' _ hfree =>
    intro leg hleg _ hanswered
    cases List.mem_singleton.mp hleg
    exact Leg.clear_of_le_reach ⟨o, safe, o.position, .arrived⟩ hbuilt hbox hfree zero_le_one (le_refl _)
      (onWay_one o _).symm hanswered
  | @putBack safe o l l' hit _ hhit =>
    intro leg hleg _ _
    cases List.mem_singleton.mp hleg
    apply clear_of_stop_eq
    exact putBack_position o safe
  | @hit left safe o o' l l₁ l' hit legs _ hhit _ ih =>
    intro leg hleg hend hanswered
    rcases List.mem_cons.mp hleg with rfl | hleg
    · obtain ⟨hintime, -⟩ := earliestHit_clear hbuilt hbox hanswered hhit
      exact Leg.clear_of_le_reach ⟨o, safe, (slide o (o.position - safe) hit.1).2, .hit⟩ hbuilt hbox hhit
        hintime.1 (le_refl _) (slide_snd o _ hit.1) hanswered
    · have hcarried := strike_carried o (o.position - safe) hit l₁
      exact (ih (hcarried.boxed hbox) leg hleg hend hanswered).of_kept hcarried.kept

/-- The route of an object that goes through nothing: all that a walk keeps to, besides what it gives. -/
structure SafeRoute (meshes : List (Mesh ℝ)) (limit : Nat) (previous : Vec3 ℝ) (o : DynamicObject ℝ)
    (l : Ledger ℝ) (front : List (Leg ℝ)) (last : Leg ℝ) (o' : DynamicObject ℝ) (l' : Ledger ℝ) : Prop where
  /-- It is the route of the walk. -/
  route : Route meshes limit limit previous o l (front ++ [last]) o' l'
  /-- Its legs lead from where the object was to where it ends up. -/
  joined : Joined previous (front ++ [last]) o'.position
  /-- All legs but the last one end at a hit. -/
  hits : ∀ leg ∈ front, leg.ending = .hit
  /-- There are no more of them than hits may be resolved. -/
  length_le : front.length ≤ limit
  /-- Each of them takes at most one contact. -/
  freeCount_le : l.pool.freeCount ≤ l'.pool.freeCount + front.length
  /-- The last leg does not end at a hit. -/
  ending : last.ending ≠ .hit
  /-- When there was a hit on it nevertheless, the object is put back to where the leg began. -/
  putBack : last.ending = .putBack → o'.position = last.start
  /-- A remainder is short. -/
  remainder : last.ending = .remainder → (last.stop - last.start).length < 1e-4
  /-- On every other leg the object overlaps only what it touched at its start, and what was rejected. -/
  clear : ∀ leg ∈ front ++ [last], leg.ending ≠ .remainder → leg.Answered meshes → leg.Clear meshes o

/-- **A fast object goes through nothing.** In exact arithmetic, over meshes that were built, the walk of
an object in its box comes to its end, whatever its previous position and the number of hits that may be
resolved, and its route goes through nothing. -/
theorem meshesSwept_safe
    (hbuilt : ∀ m ∈ meshes, ∃ vertices triangles, Mesh.build vertices triangles = .ok m) (limit : Nat)
    (previous : Vec3 ℝ) (hbox : o.Boxed) (l : Ledger ℝ) : ∃ front last o' l',
      meshesSwept meshes limit previous o l = .ok (o', l') ∧
        SafeRoute meshes limit previous o l front last o' l' := by
  have hwalkable : ∀ m ∈ meshes, m.Walkable := fun m hm =>
    (hbuilt m hm).elim fun _ h => h.elim fun _ hbuild => Mesh.walkable_of_build hbuild
  obtain ⟨⟨o', l'⟩, hwalk⟩ := exists_walk_eq_ok hwalkable limit limit previous o l
  obtain ⟨legs, hroute⟩ := walk_eq_ok_iff.mp hwalk
  obtain ⟨front, last, rfl, hhits, hlength, hleaves⟩ := hroute.exists_last
  obtain ⟨hending, hputBack, hremainder⟩ := hleaves.ends
  have hfree := hroute.freeCount_le
  rw [List.length_append, List.length_singleton, ← Nat.add_assoc] at hfree
  exact ⟨front, last, o', l', hwalk, hroute, hroute.joined, hhits, hlength, Nat.le_of_succ_le_succ hfree,
    hending, hputBack, hremainder, hroute.clear hbuilt hbox⟩

/-! ## §C A thin wall -/

/-- A wall of one triangle, facing down the first axis. -/
noncomputable def thinWall : Triangle ℝ := ⟨⟨0, 0, 0⟩, ⟨0, 0, -1⟩, ⟨0, -1, 0⟩⟩

/-- A point beyond the wall. -/
noncomputable def dart : DynamicObject ℝ :=
  .create ⟨1⟩ ⟨.box Vec3.zero, 0, 0, 0⟩ Layers.all ⟨1, 0, 0⟩ none

/-- A point on the first axis, as a set. -/
def pointAt (x : ℝ) : Support ℝ := fun _ => ⟨x, 0, 0⟩

theorem solid_pointAt (x : ℝ) : Support.solid (pointAt x) = {⟨x, 0, 0⟩} := Support.solid_const _

theorem dart_support_at (place : Vec3 ℝ) :
    ({ dart with position := place } : DynamicObject ℝ).support = fun _ => place := by
  funext d
  ext <;> simp [DynamicObject.support, dart, DynamicObject.create, DynamicObject.recalcBox,
    Shape.support, signSelect]

theorem dart_support : dart.support = pointAt 1 := dart_support_at ⟨1, 0, 0⟩

theorem dart_solidAt (place : Vec3 ℝ) : dart.solidAt place = {place} := by
  unfold DynamicObject.solidAt
  rw [dart_support_at, Support.solid_const]

/-- The dart goes from one side of the wall to the other. -/
theorem placed_dart (t : ℝ) :
    Approach.placed dart.support ⟨2, 0, 0⟩ t = pointAt (2 * t - 1) := by
  rw [dart_support]
  funext d
  unfold Approach.placed Support.translate pointAt
  ext <;> simp
  ring

/-- In the directions of the positive quarter the wall reaches no further than its corner. -/
theorem thinWall_support {d : Vec3 ℝ} (hy : 0 ≤ d.y) (hz : 0 ≤ d.z) : thinWall.support d = 0 := by
  have hb : ¬ thinWall.a.dot d < thinWall.b.dot d := by simpa [thinWall, Vec3.dot_def] using hz
  have hc : ¬ thinWall.a.dot d < thinWall.c.dot d := by simpa [thinWall, Vec3.dot_def] using hy
  unfold Triangle.support
  simp only [List.foldl_cons, List.foldl_nil, if_neg hb, if_neg hc]
  ext <;> simp [thinWall]

/-- How long a vector along the first axis is. -/
theorem length_along (x : ℝ) : (⟨x, 0, 0⟩ : Vec3 ℝ).length = |x| := by
  show Real.sqrt (Vec3.dot _ _) = |x|
  simp only [Vec3.dot_def, mul_zero, add_zero]
  exact Real.sqrt_mul_self_eq_abs x

theorem normalizeOrZero_of_neg {x : ℝ} (hx : x < 0) :
    (⟨x, 0, 0⟩ : Vec3 ℝ).normalizeOrZero = ⟨-1, 0, 0⟩ := by
  have hne : (⟨x, 0, 0⟩ : Vec3 ℝ) ≠ 0 := fun h => hx.ne ((congrArg Vec3.x h).trans Vec3.zero_x)
  rw [Vec3.normalizeOrZero_of_ne_zero hne, length_along, abs_of_neg hx]
  ext <;> simp [hx.ne]

theorem thinWall_normal : thinWall.normal = ⟨-1, 0, 0⟩ := by
  have hcross : (thinWall.b - thinWall.a).cross (thinWall.c - thinWall.a) = (⟨-1, 0, 0⟩ : Vec3 ℝ) := by
    ext <;> simp [thinWall, Vec3.cross_x, Vec3.cross_y, Vec3.cross_z]
  show Vec3.normalizeOrZero _ = _
  rw [hcross, normalizeOrZero_of_neg neg_one_lt_zero]

/-- The wall stands in the plane through the origin. -/
theorem thinWall_x {x : Vec3 ℝ} (h : x ∈ thinWall.points) : x.x = 0 := by
  have hplane := Triangle.normal_dot_of_mem h
  rw [thinWall_normal] at hplane
  simpa [Vec3.dot_def, thinWall] using hplane

theorem origin_mem_thinWall : (0 : Vec3 ℝ) ∈ thinWall.points := by
  have hcorner := thinWall.corner_mem_points .first
  rwa [show thinWall.corner .first = 0 by ext <;> simp [Triangle.corner, thinWall]] at hcorner

/-- The nearest points of the wall and a point before it are found at once. -/
theorem between_thinWall {x : ℝ} (hx : x ≤ -0.001) :
    ClosestPoints.between thinWall.support (pointAt x) = ⟨0, ⟨x, 0, 0⟩, -x⟩ := by
  have hfar : Overlap.containsOriginSq ≤ ((⟨x, 0, 0⟩ : Vec3 ℝ) - 0).lengthSq := by
    rw [sub_zero, Vec3.lengthSq_eq, Vec3.dot_def]
    unfold Overlap.containsOriginSq
    nlinarith
  have hagain : thinWall.support ((⟨x, 0, 0⟩ : Vec3 ℝ) - 0) = 0 := by
    rw [sub_zero]
    exact thinWall_support (le_refl _) (le_refl _)
  rw [ClosestPoints.between_of_first (q := ⟨x, 0, 0⟩)
    ⟨thinWall_support zero_le_one zero_le_one, rfl⟩ ⟨hagain, rfl⟩ hfar, sub_zero, length_along,
    abs_of_nonpos (by linarith)]

/-- They are the nearest points. -/
theorem between_thinWall_isExact {x : ℝ} (hx : x ≤ -0.001) :
    (ClosestPoints.between thinWall.support (pointAt x)).IsExact (Support.solid thinWall.support)
      (Support.solid (pointAt x)) := by
  rw [between_thinWall hx, thinWall.solid_support, solid_pointAt]
  have hlength : -x = ((⟨x, 0, 0⟩ : Vec3 ℝ) - 0).length := by
    rw [sub_zero, length_along, abs_of_nonpos (by linarith)]
  rw [hlength]
  apply ClosestPoints.isExact_of_first origin_mem_thinWall (Set.mem_singleton _)
  · intro y hy
    simp [Vec3.dot_def, thinWall_x hy]
  · rintro _ rfl
    exact le_refl _
  · intro hzero
    have hx0 : x = 0 := (congrArg Vec3.x hzero).trans Vec3.zero_x
    linarith

/-- At a time, the nearest points are the corner of the wall and the point itself. -/
theorem closest_thinWall {s : Approach.State ℝ} (ht : 2 * s.time - 1 ≤ -0.001) :
    s.closest thinWall.support dart.support ⟨2, 0, 0⟩ = ⟨0, ⟨2 * s.time - 1, 0, 0⟩, 1 - 2 * s.time⟩ := by
  unfold Approach.State.closest
  rw [placed_dart, between_thinWall ht, neg_sub]

theorem normal_thinWall {s : Approach.State ℝ} (ht : 2 * s.time - 1 ≤ -0.001) :
    (s.closest thinWall.support dart.support ⟨2, 0, 0⟩).normal = ⟨-1, 0, 0⟩ := by
  rw [closest_thinWall ht]
  unfold ClosestPoints.normal
  rw [sub_zero, normalizeOrZero_of_neg (by linarith)]

theorem closing_thinWall {s : Approach.State ℝ} (ht : 2 * s.time - 1 ≤ -0.001) :
    s.closing thinWall.support dart.support ⟨2, 0, 0⟩ = 2 := by
  unfold Approach.State.closing
  rw [normal_thinWall ht]
  simp [Vec3.dot_def]

theorem isExact_thinWall {s : Approach.State ℝ} (ht : 2 * s.time - 1 ≤ -0.001) :
    s.IsExact thinWall.support dart.support ⟨2, 0, 0⟩ := by
  unfold Approach.State.IsExact Approach.State.closest
  rw [placed_dart]
  exact between_thinWall_isExact ht

theorem length_motion : (⟨2, 0, 0⟩ : Vec3 ℝ).length = 2 := (length_along 2).trans abs_two

theorem not_slow : ¬(2 : ℝ) ≤ (⟨2, 0, 0⟩ : Vec3 ℝ).length * Approach.grazing := by
  rw [length_motion]
  unfold Approach.grazing
  norm_num

theorem not_grazes {s : Approach.State ℝ} (ht : 2 * s.time - 1 ≤ -0.001) :
    ¬s.Grazes thinWall.support dart.support ⟨2, 0, 0⟩ := by
  rintro ⟨-, -, hslow⟩
  rw [closing_thinWall ht] at hslow
  exact not_slow hslow

/-- Next to the wall a turn ends the approach, and before that it goes on by what is left but the skin. -/
theorem turn_thinWall {s : Approach.State ℝ} (ht : 2 * s.time - 1 ≤ -0.001) :
    Approach.turn thinWall.support dart.support ⟨2, 0, 0⟩ s =
      if 1 - 2 * s.time < Approach.touching then
        .ended (.touches (s.hit thinWall.support dart.support ⟨2, 0, 0⟩))
      else if 1 < s.time + (1 - 2 * s.time - Approach.skin) / 2 then .ended .misses
      else .onward ⟨s.time + (1 - 2 * s.time - Approach.skin) / 2,
        some (s.hit thinWall.support dart.support ⟨2, 0, 0⟩)⟩ := by
  have hdistance : (s.closest thinWall.support dart.support ⟨2, 0, 0⟩).distance = 1 - 2 * s.time := by
    rw [closest_thinWall ht]
  have hapart : ¬(1 - 2 * s.time ≤ 0) := by linarith
  have hcloses : ¬((s.closest thinWall.support dart.support ⟨2, 0, 0⟩).normal.same Vec3.zero = true ∨
      (2 : ℝ) ≤ (⟨2, 0, 0⟩ : Vec3 ℝ).length * Approach.grazing) := by
    refine not_or.mpr ⟨?_, not_slow⟩
    apply (isExact_thinWall ht).normal_ne
    rw [hdistance]
    exact not_le.mp hapart
  unfold Approach.turn Approach.State.reached
  rw [hdistance, closing_thinWall ht, Scalar.zero_real, Scalar.one_real, if_neg hapart, if_neg hcloses]

/-- The first turn brings the dart next to the wall. -/
theorem turn_first : ∃ seen, Approach.turn thinWall.support dart.support ⟨2, 0, 0⟩ Approach.initial =
    .onward ⟨0.4975, seen⟩ := by
  have hzero : (Approach.initial : Approach.State ℝ).time = 0 := Scalar.zero_real
  rw [turn_thinWall (by rw [hzero]; norm_num), hzero]
  unfold Approach.touching Approach.skin
  rw [if_neg (by norm_num), if_neg (by norm_num)]
  refine ⟨some (Approach.State.hit thinWall.support dart.support ⟨2, 0, 0⟩ Approach.initial), ?_⟩
  congr 2
  norm_num

/-- There the second one ends. -/
theorem turn_second (seen : Option (Hit ℝ)) :
    ∃ hit : Hit ℝ, Approach.turn thinWall.support dart.support ⟨2, 0, 0⟩ ⟨0.4975, seen⟩ =
      .ended (.touches hit) ∧ hit.normal = ⟨-1, 0, 0⟩ ∧ hit.time = 0.4975 := by
  have ht : 2 * (⟨0.4975, seen⟩ : Approach.State ℝ).time - 1 ≤ -0.001 := by norm_num
  refine ⟨Approach.State.hit thinWall.support dart.support ⟨2, 0, 0⟩ ⟨0.4975, seen⟩, ?_,
    normal_thinWall ht, rfl⟩
  rw [turn_thinWall ht]
  unfold Approach.touching
  rw [if_pos (by norm_num)]

/-- The approach comes to these two times only. -/
theorem time_of_after {k : Nat} {s : Approach.State ℝ}
    (h : Approach.after thinWall.support dart.support ⟨2, 0, 0⟩ k Approach.initial = some s) :
    2 * s.time - 1 ≤ -0.001 := by
  obtain ⟨seen, hfirst⟩ := turn_first
  obtain ⟨hit, hsecond, -⟩ := turn_second seen
  rcases (Approach.sweep_of_two_turns hfirst hsecond).2 k s h with rfl | rfl
  · show 2 * Scalar.instOfNat.ofNat - 1 ≤ -0.001
    rw [Scalar.zero_real]
    norm_num
  · norm_num

/-- The contact that the approach reports. -/
theorem sweep_thinWall : ∃ hit : Hit ℝ,
    (Approach.sweep thinWall.support dart.support ⟨2, 0, 0⟩).hit? = some hit ∧
      hit.normal = ⟨-1, 0, 0⟩ ∧ hit.time = 0.4975 := by
  obtain ⟨seen, hfirst⟩ := turn_first
  obtain ⟨hit, hsecond, hnormal, htime⟩ := turn_second seen
  refine ⟨hit, ?_, hnormal, htime⟩
  rw [(Approach.sweep_of_two_turns hfirst hsecond).1]
  rfl

/-- The segment between two opposite points goes through the origin. -/
theorem nearest_opposite {e : Vec3 ℝ} (he : e.dot e = 1) (a b : Vec3 ℝ) :
    (Simplex.nearest [⟨e, a⟩, ⟨-e, b⟩]).1 = 0 := by
  have hspan : (-e - e).dot (-e - e) = 4 := by
    simp only [Vec3.dot_sub, Vec3.sub_dot, Vec3.dot_neg, Vec3.neg_dot, he]
    norm_num
  have hfires : ¬Projection.SegmentFires e (-e) := by
    unfold Projection.SegmentFires
    rw [Vec3.lengthSq_eq, hspan]
    unfold Projection.degenerate
    norm_num
  have hshare : Projection.share e (-e) = 1 / 2 := by
    unfold Projection.share
    rw [hspan]
    simp only [Vec3.sub_dot, Vec3.neg_dot, he]
    norm_num
  have hweights : Projection.segment e (-e) = ⟨1 / 2, 1 / 2⟩ := by
    rw [Projection.segment_eq hfires, hshare, if_pos (by norm_num)]
    norm_num
  simp only [Simplex.nearest, Projection.barycentric, List.map_cons, List.map_nil, hweights,
    List.zip_cons_cons, List.zip_nil_left, List.foldl_cons, List.foldl_nil, Vec3.zero_eq, Vec3.mul_eq_smul]
  module

/-- The dart, stretched back along its motion, is found to overlap the wall. -/
theorem thinWall_holds : Overlap.holds thinWall.support
    (Support.stretch dart.support (-⟨2, 0, 0⟩)) ⟨2, 0, 0⟩ = true := by
  let e : Vec3 ℝ := ⟨1, 0, 0⟩
  have he : e.dot e = 1 := by simp [e, Vec3.dot_def]
  have halong (d : Vec3 ℝ) (hy : d.y = 0) (hz : d.z = 0) :
      SupportPoint.along thinWall.support (Support.stretch dart.support (-⟨2, 0, 0⟩)) d =
        if 0 < d.x then ⟨e, 0⟩ else ⟨-e, 0⟩ := by
    unfold SupportPoint.along
    rw [thinWall_support hy.ge hz.ge, dart_support]
    have hfaces : (-⟨2, 0, 0⟩ : Vec3 ℝ).dot (-d) = 2 * d.x := by simp [Vec3.dot_def]
    unfold Support.stretch
    simp only [hfaces, Scalar.zero_real]
    by_cases hx : 0 < d.x
    · rw [if_pos (show 0 < 2 * d.x by linarith), if_pos hx]
      congr 1
      ext <;> norm_num [pointAt, e]
    · rw [if_neg (show ¬0 < 2 * d.x by linarith), if_neg hx]
      exact congrArg (SupportPoint.mk · 0) (zero_sub e)
  have hstart : Overlap.initial thinWall.support (Support.stretch dart.support (-⟨2, 0, 0⟩)) ⟨2, 0, 0⟩ =
      ⟨[⟨e, 0⟩], -e, Scalar.maxFinite⟩ := by
    unfold Overlap.initial Overlap.start
    rw [if_pos, halong _ rfl rfl, if_pos two_pos]
    unfold Simplex.degenerateSq
    show _ < Vec3.dot _ _
    norm_num [Vec3.dot_def]
  have hasked : Overlap.State.asked thinWall.support (Support.stretch dart.support (-⟨2, 0, 0⟩))
      ⟨[⟨e, 0⟩], -e, Scalar.maxFinite⟩ = ⟨-e, 0⟩ := by
    unfold Overlap.State.asked
    rw [halong (-e) (by simp [e]) (by simp [e]), if_neg (by simp [e])]
  have hturn : Overlap.turn thinWall.support (Support.stretch dart.support (-⟨2, 0, 0⟩))
      ⟨[⟨e, 0⟩], -e, Scalar.maxFinite⟩ = .overlap [⟨e, 0⟩, ⟨-e, 0⟩] := by
    unfold Overlap.turn Overlap.State.reached Overlap.State.grown
    have hnew : Simplex.hasPoint [⟨e, 0⟩] (-e) = false := by
      simp [Simplex.hasPoint, Simplex.duplicateSq, Vec3.lengthSq_eq, Vec3.dot_def, e]
      norm_num
    have hahead : ¬(-e).dot (-e) < 0 := by simp [he]
    have hnear : (Simplex.nearest [⟨e, 0⟩, ⟨-e, 0⟩]).1.lengthSq < Overlap.containsOriginSq := by
      rw [nearest_opposite he, Vec3.lengthSq_eq, Vec3.dot_zero]
      unfold Overlap.containsOriginSq
      norm_num
    simp only [hasked, hnew, Scalar.zero_real, hahead, List.cons_append, List.nil_append, hnear,
      Bool.false_eq_true, if_false, if_true]
  have hfar : ¬(-e).lengthSq < Overlap.containsOriginSq := by
    rw [Vec3.lengthSq_neg, Vec3.lengthSq_eq, he]
    unfold Overlap.containsOriginSq
    norm_num
  unfold Overlap.holds
  rw [Overlap.find?_eq, hstart]
  simp only [hfar, if_false]
  rw [show Overlap.maxSteps = 31 + 1 from rfl]
  rw [Overlap.search_succ 31 ⟨[⟨e, 0⟩], -e, Scalar.maxFinite⟩, hturn]
  rfl

/-- The box of the dart is the point where it is. -/
theorem dart_boxed : dart.Boxed := by
  have hbox : dart.box = ⟨⟨1, 0, 0⟩, ⟨1, 0, 0⟩⟩ := by
    show Bounds.mk _ _ = Bounds.mk _ _
    congr 1 <;> ext <;> simp [Shape.boundingBox, Shape.symmetricBox]
  intro x hx
  rw [dart_solidAt] at hx
  rw [hbox, Set.mem_singleton_iff.mp hx]
  exact ⟨fun _ => le_refl _, fun _ => le_refl _⟩

/-- Whatever is asked about the wall is answered rightly. -/
theorem dart_answered {m : Mesh ℝ} (htriangle : m.triangle 0 = thinWall) :
    Answered m dart ⟨2, 0, 0⟩ 0 := by
  have hmeets : (thinWall.points ∩
      Support.solid (Support.stretch dart.support (-⟨2, 0, 0⟩))).Nonempty := by
    refine ⟨0, origin_mem_thinWall, ?_⟩
    have hend : (⟨1, 0, 0⟩ : Vec3 ℝ) ∈ Support.solid dart.support := by
      rw [dart_support, solid_pointAt]
      rfl
    have hhalf := Support.add_mem_solid_stretch hend (-⟨2, 0, 0⟩) one_half_pos.le one_half_lt_one.le
    rwa [show (⟨1, 0, 0⟩ : Vec3 ℝ) + (1 / 2 : ℝ) • -⟨2, 0, 0⟩ = 0 by ext <;> norm_num] at hhalf
  constructor
  · unfold Asked
    rw [htriangle]
    exact iff_of_true thinWall_holds hmeets
  · intro _
    rw [htriangle]
    exact fun k _ s hafter => isExact_thinWall (time_of_after hafter)

/-- The hit on the wall is not rejected. -/
theorem dart_not_rejected {m : Mesh ℝ} (hcount : 0 < m.triangleCount) (htriangle : m.triangle 0 = thinWall)
    (hstored : m.stored 0 = { indices := (0, 1, 2) }) : ¬Rejected m dart ⟨2, 0, 0⟩ 0 := by
  rintro ⟨-, hgrazes | ⟨hit, happroach, hrefused⟩⟩
  · rw [htriangle] at hgrazes
    obtain ⟨k, -, s, hafter, hgrazes⟩ := hgrazes
    exact not_grazes (time_of_after hafter) hgrazes
  · obtain ⟨hit', hsweep, hnormal, -⟩ := sweep_thinWall
    have hfaced : (faced thinWall hit).normal = ⟨-1, 0, 0⟩ := by
      unfold approached? at happroach
      rw [htriangle, hsweep] at happroach
      cases happroach
      unfold faced
      split
      · exact thinWall_normal
      · exact hnormal
    rw [htriangle, hfaced] at hrefused
    rcases hrefused with hslides | hleans
    · rw [length_motion] at hslides
      unfold slidingCosine at hslides
      simp only [Vec3.dot_def] at hslides
      norm_num at hslides
    · have hdata : m.data.stored 0 = .ok { indices := (0, 1, 2) } := by
        unfold MeshData.stored
        rw [Mesh.getElem?_eq_stored hcount, hstored]
      unfold Mesh.keepsContact MeshData.keepsContact at hleans
      rw [hdata] at hleans
      cases hleans

/-- The dart does not come through the wall: on the first leg of its walk everything is answered rightly,
and it does not touch the wall. -/
theorem dart_stopped : ∃ m : Mesh ℝ,
    Mesh.build #[thinWall.a, thinWall.b, thinWall.c] Mesh.singleTriangle = .ok m ∧ dart.Boxed ∧
      ∃ front last o' l', meshesSwept [m] 1 ⟨-1, 0, 0⟩ dart ⟨.ofCapacity 1, #[]⟩ = .ok (o', l') ∧
        SafeRoute [m] 1 ⟨-1, 0, 0⟩ dart ⟨.ofCapacity 1, #[]⟩ front last o' l' ∧
        ∃ leg ∈ front ++ [last], leg.start = ⟨-1, 0, 0⟩ ∧ leg.Answered [m] ∧
          ∀ s : ℝ, 0 ≤ s → s ≤ 1 →
            ¬dart.OverlapsAt (leg.start + s • (leg.stop - leg.start)) thinWall := by
  obtain ⟨m, hbuild, hcount, htriangle, hstored⟩ := Mesh.exists_build_single thinWall
  have hbuilt : ∀ m' ∈ [m], ∃ vertices triangles, Mesh.build vertices triangles = .ok m' :=
    List.forall_mem_singleton.mpr ⟨_, _, hbuild⟩
  obtain ⟨front, last, o', l', hwalk, hsafe⟩ :=
    meshesSwept_safe hbuilt 1 ⟨-1, 0, 0⟩ dart_boxed ⟨.ofCapacity 1, #[]⟩
  refine ⟨m, hbuild, dart_boxed, front, last, o', l', hwalk, hsafe, ?_⟩
  obtain ⟨leg, hleg, hobject, hstart, hshort⟩ := hsafe.route.exists_first
  have hway : dart.position - ⟨-1, 0, 0⟩ = ⟨2, 0, 0⟩ := by
    ext <;> norm_num [dart, DynamicObject.create, DynamicObject.recalcBox]
  have hmotion : leg.motion = ⟨2, 0, 0⟩ := by
    unfold Leg.motion
    rw [hobject, hstart, hway]
  have hend : leg.ending ≠ .remainder := by
    intro hend
    have hlong := hshort hend
    rw [hway] at hlong
    unfold minMotionSq at hlong
    norm_num [Vec3.lengthSq_eq, Vec3.dot_def] at hlong
  have hanswered : leg.Answered [m] := by
    refine List.forall_mem_singleton.mpr ?_
    rintro i ⟨found, hvisit, hi⟩
    have hlt := Mesh.lt_of_mem_visit hbuild hvisit hi
    rw [hcount, Nat.lt_one_iff] at hlt
    rw [hlt, hobject, hmotion]
    exact dart_answered htriangle
  refine ⟨leg, hleg, hstart, hanswered, ?_⟩
  intro s hs hs1 hoverlap
  have hpos : 0 < m.triangleCount := by
    rw [hcount]
    exact one_pos
  have hlayers : (m.stored 0).layers.intersects dart.layers = true := by
    rw [hstored]
    rfl
  have hclear := hsafe.clear leg hleg hend hanswered m (List.mem_singleton_self m) 0 hpos hlayers s hs hs1
  rw [htriangle, hobject, hmotion] at hclear
  rcases hclear hoverlap with htouch | hrejected
  · obtain ⟨x, hx, hat⟩ := htouch
    rw [hstart, dart_solidAt] at hat
    have hfront : x.x = -1 := congrArg Vec3.x hat
    rw [thinWall_x hx] at hfront
    norm_num at hfront
  · exact dart_not_rejected hpos htriangle hstored hrejected

end ConvexCollision.Resolve
