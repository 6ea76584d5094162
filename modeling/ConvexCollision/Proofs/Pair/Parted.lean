import ConvexCollision.Proofs.Approach.Sets
import ConvexCollision.Proofs.Contact.Records
import ConvexCollision.Proofs.Exact.Body
import ConvexCollision.Proofs.Exact.Length
import ConvexCollision.Proofs.Pair.Shares
import ConvexCollision.Proofs.World.Carried

/-!
# ConvexCollision.Proofs.Pair.Parted -- two objects that met on the way

Of two objects that both move, the approach sees one that stands where it ends up, and the other one coming
with the difference of the two motions. What it finds is carried back by the way that the first object has
still to go: then both objects are where they are at the time of the contact, each on its own way, and the
two sets are as far apart as the approach saw them. `Parted` is all that holds of them then.
-/

namespace ConvexCollision

variable {a b : DynamicObject ℝ} {aPrevious bPrevious : Vec3 ℝ}

/-! ## §A Points that are moved -/

namespace DynamicObject

variable {o o' : DynamicObject ℝ}

theorem place_eq_kept (o : DynamicObject ℝ) (x : Vec3 ℝ) : o.place x = o.kept.place x + o.position := by
  show _ = Rotation.yawed o.rotation (Rotation.pitched o.pitch (x * o.scale + o.center)) + 0 + o.position
  rw [add_zero]
  rfl

/-- An object that is the same but for what a tick writes to has its points moved by as much as itself. -/
theorem points_of_kept (h : o'.kept = o.kept) :
    o'.points = (· + (o'.position - o.position)) '' o.points := by
  have htype : o'.kept.type = o.kept.type := congrArg DynamicObject.type h
  change o'.type = o.type at htype
  unfold points
  rw [Set.image_image, htype]
  refine Set.image_congr fun x _ => ?_
  rw [o'.place_eq_kept, o.place_eq_kept, h, add_assoc, add_sub_cancel]

end DynamicObject

namespace Resolve

/-! ## §B Stopping -/

/-- Moving two objects changes nothing of who gives way. -/
theorem givesWay_move {x y : Vec3 ℝ} : (a.move x).GivesWay (b.move y) ↔ a.GivesWay b :=
  ⟨fun h => ⟨h.solid, h.toSolid, h.movable, h.yields⟩, fun h => ⟨h.solid, h.toSolid, h.movable, h.yields⟩⟩

/-- Two objects that are stopped stay where they are. What gives way has no velocity into the other one, and
none along the normal when both do. -/
theorem stopPair_spec {normal : Vec3 ℝ} (hunit : normal.dot normal = 1) :
    (stopPair a b normal).1.position = a.position ∧ (stopPair a b normal).2.position = b.position ∧
      (a.GivesWay b → (stopPair a b normal).1.velocity.dot normal ≤ 0) ∧
      (b.GivesWay a → 0 ≤ (stopPair a b normal).2.velocity.dot normal) ∧
      (a.GivesWay b → b.GivesWay a → (stopPair a b normal).1.velocity.dot normal = 0 ∧
        (stopPair a b normal).2.velocity.dot normal = 0) := by
  have hback : (-normal).dot (-normal) = 1 := by rw [Vec3.neg_dot, Vec3.dot_neg, neg_neg, hunit]
  by_cases hA : a.GivesWay b <;> by_cases hB : b.GivesWay a
  · have hshareA := DynamicObject.share_pos_iff.mpr hA
    have hshareB := DynamicObject.share_pos_iff'.mpr hB
    have hstop : stopPair a b normal = ((a.stopAlong normal).markPushed, (b.stopAlong normal).markPushed) := by
      unfold stopPair
      simp only [Scalar.zero_real, hshareA, hshareB, and_self, if_true]
    have ha : (a.stopAlong normal).velocity.dot normal = 0 := dot_stopAlong hunit a
    have hb : (b.stopAlong normal).velocity.dot normal = 0 := dot_stopAlong hunit b
    rw [hstop]
    exact ⟨rfl, rfl, fun _ => ha.le, fun _ => hb.ge, fun _ _ => ⟨ha, hb⟩⟩
  · have hshareA := DynamicObject.share_pos_iff.mpr hA
    have hshareB := DynamicObject.share_pos_iff'.not.mpr hB
    have hstop : stopPair a b normal = ((a.stopInto (-normal)).markPushed, b) := by
      unfold stopPair
      simp only [Scalar.zero_real, hshareA, hshareB, and_false, if_true, if_false]
    have ha := dot_stopInto_nonneg hback a
    rw [Vec3.dot_neg, neg_nonneg] at ha
    rw [hstop]
    exact ⟨rfl, rfl, fun _ => ha, fun h => absurd h hB, fun _ h => absurd h hB⟩
  · have hshareA := DynamicObject.share_pos_iff.not.mpr hA
    have hshareB := DynamicObject.share_pos_iff'.mpr hB
    have hstop : stopPair a b normal = (a, (b.stopInto normal).markPushed) := by
      unfold stopPair
      simp only [Scalar.zero_real, hshareA, hshareB, false_and, if_true, if_false]
    rw [hstop]
    exact ⟨rfl, rfl, fun h => absurd h hA, fun _ => dot_stopInto_nonneg hunit b, fun h => absurd h hA⟩
  · have hshareA := DynamicObject.share_pos_iff.not.mpr hA
    have hshareB := DynamicObject.share_pos_iff'.not.mpr hB
    have hstop : stopPair a b normal = (a, b) := by
      unfold stopPair
      simp only [Scalar.zero_real, hshareA, hshareB, and_self, if_false]
    rw [hstop]
    exact ⟨rfl, rfl, fun h => absurd h hA, fun h => absurd h hB, fun h => absurd h hA⟩

/-! ## §C Both on their way -/

/-- Two objects were put back, each on its own way, to the time of a hit. There they are apart, the hit joins
a point of the one to a point of the other, and neither moves on into the other. -/
structure Parted (a : DynamicObject ℝ) (aPrevious : Vec3 ℝ) (b : DynamicObject ℝ) (bPrevious : Vec3 ℝ)
    (hit : Hit ℝ) (a' b' : DynamicObject ℝ) : Prop where
  /-- The time is that of a way between the previous place and the present one. -/
  onWay : 0 ≤ hit.time ∧ hit.time ≤ 1
  /-- The first object is where its way had taken it by then. -/
  placeA : a'.position = aPrevious + hit.time • (a.position - aPrevious)
  /-- The second object is where its way had taken it by then. -/
  placeB : b'.position = bPrevious + hit.time • (b.position - bPrevious)
  /-- Both are still the same objects. -/
  same : a'.kept = a.kept ∧ b'.kept = b.kept
  /-- They share no point. -/
  apart : Disjoint a'.points b'.points
  /-- The first point of the hit is one of the first object. -/
  pointA : hit.contactA ∈ a'.points
  /-- The second point of the hit is one of the second object. -/
  pointB : hit.contactB ∈ b'.points
  /-- The normal is the unit vector from the first point to the second one. -/
  normal : hit.normal = (hit.contactB - hit.contactA).normalizeOrZero ∧ hit.normal.dot hit.normal = 1
  /-- When the first object gives way, it does not move into the second one. -/
  stopA : a.GivesWay b → a'.velocity.dot hit.normal ≤ 0
  /-- When the second object gives way, it does not move into the first one. -/
  stopB : b.GivesWay a → 0 ≤ b'.velocity.dot hit.normal
  /-- When both give way, neither moves along the normal. -/
  stopBoth : a.GivesWay b → b.GivesWay a →
    a'.velocity.dot hit.normal = 0 ∧ b'.velocity.dot hit.normal = 0

/-- The motion of the second object as the first one sees it. -/
noncomputable def seenMotion (a : DynamicObject ℝ) (aPrevious : Vec3 ℝ) (b : DynamicObject ℝ)
    (bPrevious : Vec3 ℝ) : Vec3 ℝ :=
  (b.position - bPrevious) - (a.position - aPrevious)

section

variable (x previous : Vec3 ℝ) (time : ℝ)

/-- What is put back by the rest of its way is moved by as much as the way to there falls short. -/
theorem putBack_eq : x + (1 - time) • -(x - previous) = x + (time - 1) • (x - previous) := by module

/-- What is put back by the rest of its way is on its way at that time. -/
theorem putBack_eq_onWay : x + (1 - time) • -(x - previous) = previous + time • (x - previous) := by module

end

/-- An object that is put somewhere else has its points moved by as much. -/
theorem points_moved {o o' : DynamicObject ℝ} {offset : Vec3 ℝ} (hkept : o'.kept = o.kept)
    (hplace : o'.position = o.position + offset) : o'.points = (· + offset) '' o.points := by
  rw [DynamicObject.points_of_kept hkept, hplace, add_sub_cancel_left]

/-- The second object at a time of its own way is what the first one sees of it then, put back together with
the first one. -/
theorem points_seen (a : DynamicObject ℝ) (aPrevious : Vec3 ℝ) {b' : DynamicObject ℝ} {time : ℝ}
    (hkept : b'.kept = b.kept)
    (hplace : b'.position = b.position + (time - 1) • (b.position - bPrevious)) :
    b'.points = (· + (time - 1) • (a.position - aPrevious)) ''
      Approach.setAt b.points (seenMotion a aPrevious b bPrevious) time := by
  unfold Approach.setAt
  rw [points_moved hkept hplace, Set.image_image]
  refine Set.image_congr fun x _ => ?_
  unfold seenMotion
  module

/-- **Two objects that meet on the way end up apart.** When the nearest points that the approach of the one to
the other uses are right, two objects that met are put back to one common time, each on its own way. There
they share no point, the contact on either lies on the other, and no party that gives way keeps a velocity
into the other. Two objects that did not meet are left as they are, and so are all contacts. -/
theorem objectsSwept_parts (a : DynamicObject ℝ) (aPrevious : Vec3 ℝ) (b : DynamicObject ℝ)
    (bPrevious : Vec3 ℝ) (l : Ledger ℝ)
    (hexact : Approach.IsExactFor a.support b.support (seenMotion a aPrevious b bPrevious) a.points
      b.points) :
    (∀ a' b' l', objectsSwept a aPrevious b bPrevious l = (true, a', b', l') →
      ∃ hit, Parted a aPrevious b bPrevious hit a' b' ∧ RecordsPair a b l hit a' b' l') ∧
    ∀ a' b' l', objectsSwept a aPrevious b bPrevious l = (false, a', b', l') →
      a' = a ∧ b' = b ∧ l'.pool = l.pool := by
  constructor
  case right =>
    intro a' b' l' h
    rcases objectsSwept_cases h with ⟨-, hA, hB, hreports⟩ | ⟨hmet, -⟩
    · exact ⟨hA, hB, hreports.pool⟩
    · cases hmet
  intro a' b' l' h
  obtain ⟨hcarriedA, hcarriedB⟩ := objectsSwept_carried h
  rcases objectsSwept_cases h with ⟨hmet, -⟩ | ⟨-, seen, hseen, hrecorded⟩
  · cases hmet
  simp only [Scalar.one_real, Vec3.mul_eq_smul] at hrecorded
  obtain ⟨honWay, ⟨hpointA, hpointB⟩, ⟨hnormal, hunit⟩, hapart⟩ := Approach.sweep_apart hexact hseen
  obtain ⟨hplaceA, hplaceB, hstopA, hstopB, hstopBoth⟩ := stopPair_spec hunit
    (a := a.move ((1 - seen.time) • -(a.position - aPrevious)))
    (b := b.move ((1 - seen.time) • -(b.position - bPrevious)))
  simp only [givesWay_move] at hstopA hstopB hstopBoth
  obtain ⟨htagA, htagB⟩ := tag_stopPair
    (a.move ((1 - seen.time) • -(a.position - aPrevious)))
    (b.move ((1 - seen.time) • -(b.position - bPrevious))) seen.normal
  cases hrecorded
  -- both are put back by what their ways had still to go
  have hpointsA := points_moved hcarriedA.kept (hplaceA.trans (putBack_eq _ _ _))
  have hpointsB := points_seen a aPrevious hcarriedB.kept (hplaceB.trans (putBack_eq _ _ _))
  have hshift (x : Vec3 ℝ) : x - (1 - seen.time) • (a.position - aPrevious) =
      x + (seen.time - 1) • (a.position - aPrevious) := by module
  refine ⟨_, ?_, RecordsPair.of_tag htagA htagB (reports_approach l _).pool (recordPair_records _ _ _ _)⟩
  constructor
  case onWay => exact honWay
  case placeA => exact hplaceA.trans (putBack_eq_onWay _ _ _)
  case placeB => exact hplaceB.trans (putBack_eq_onWay _ _ _)
  case same => exact ⟨hcarriedA.kept, hcarriedB.kept⟩
  case apart =>
    rw [hpointsA, hpointsB]
    exact (Set.disjoint_image_iff (add_left_injective _)).mpr hapart
  case pointA =>
    show seen.contactA - (1 - seen.time) • (a.position - aPrevious) ∈ _
    rw [hpointsA, hshift]
    exact Set.mem_image_of_mem _ hpointA
  case pointB =>
    show seen.contactB - (1 - seen.time) • (a.position - aPrevious) ∈ _
    rw [hpointsB, hshift]
    exact Set.mem_image_of_mem _ hpointB
  case normal =>
    rw [sub_sub_sub_cancel_right]
    exact ⟨hnormal, hunit⟩
  case stopA => exact hstopA
  case stopB => exact hstopB
  case stopBoth => exact hstopBoth

/-! ## §D Two cubes that meet corner to corner -/

/-- A cube two units wide, at a place, with a velocity. -/
noncomputable def cube (id : UInt32) (position velocity : Vec3 ℝ) : DynamicObject ℝ :=
  { DynamicObject.create ⟨id⟩ ⟨.box ⟨1, 1, 1⟩, 0, 0, 0⟩ Layers.all position none with velocity }

/-- The direction in which the cubes move. -/
noncomputable def across : Vec3 ℝ := ⟨1, 2, 2⟩

/-- A cube that came from the origin. -/
noncomputable def comer : DynamicObject ℝ := cube 1 across across

/-- A cube that came against it, from as far on again. -/
noncomputable def goer : DynamicObject ℝ := cube 2 ⟨2, 2, 2⟩ (-across)

theorem length_across : across.length = 3 := by
  show Real.sqrt (Vec3.dot _ _) = 3
  rw [show across.dot across = 3 * 3 by norm_num [across, Vec3.dot_def]]
  exact Real.sqrt_mul_self zero_le_three

/-- The comer sees the goer come with both motions. -/
theorem seenMotion_cubes : seenMotion comer 0 goer ⟨3, 4, 4⟩ = -(2 : ℝ) • across := by
  unfold seenMotion
  ext <;> norm_num [comer, goer, cube, across, DynamicObject.create, DynamicObject.recalcBox]

section Cube

variable (id : UInt32) (position velocity : Vec3 ℝ) {d : Vec3 ℝ}

theorem cube_isSupport :
    IsSupport (cube id position velocity).support (cube id position velocity).points := by
  have hscale : (cube id position velocity).scale = 1 := Scalar.one_real
  have hwf : (Body.object (cube id position velocity)).WellFormed :=
    ⟨⟨zero_le_one, zero_le_one, zero_le_one⟩, zero_le_one.trans hscale.ge⟩
  have hfurthest (d : Vec3 ℝ) : Furthest _ _ d := Body.furthest_support hwf d (.inr trivial)
  exact ⟨fun d => (hfurthest d).mem, fun d => (hfurthest d).le⟩

/-- Across, and back, a cube ends with a corner. -/
theorem cube_support (hx : 0 < d.x) (hy : 0 < d.y) (hz : 0 < d.z) :
    (cube id position velocity).support d = position + ⟨1, 1, 1⟩ ∧
      (cube id position velocity).support (-d) = position - ⟨1, 1, 1⟩ := by
  constructor <;> ext <;> simp [DynamicObject.support, cube, DynamicObject.create,
    DynamicObject.recalcBox, Shape.support, signSelect, hx, hy, hz, hx.le, hy.le, hz.le, add_comm,
    sub_eq_add_neg]

end Cube

/-- The corners of the two cubes that face each other, while there is a gap between them. -/
theorem closest_cubes {s : Approach.State ℝ} (hgap : 1 / 600 ≤ 1 - 2 * s.time) :
    s.closest comer.support goer.support (-(2 : ℝ) • across) =
        ⟨⟨2, 3, 3⟩, ⟨2, 3, 3⟩ + (1 - 2 * s.time) • across, 3 * (1 - 2 * s.time)⟩ ∧
      (s.closest comer.support goer.support (-(2 : ℝ) • across)).IsExact comer.points
        (Approach.setAt goer.points (-(2 : ℝ) • across) s.time) := by
  let gap : ℝ := 1 - 2 * s.time
  let p : Vec3 ℝ := ⟨2, 3, 3⟩
  let q : Vec3 ℝ := p + gap • across
  have hpos : 0 < gap := by linarith
  have hline : q - p = gap • across := add_sub_cancel_left _ _
  have hlength : (q - p).length = 3 * gap := by
    rw [hline, Vec3.length_smul _ hpos.le, length_across, mul_comm]
  -- along the line, and at first, both cubes are asked for the corners that face each other
  have hcomer {d : Vec3 ℝ} (hx : 0 < d.x) (hy : 0 < d.y) (hz : 0 < d.z) : comer.support d = p := by
    refine (cube_support 1 across across hx hy hz).1.trans ?_
    ext <;> norm_num [p, across]
  have hgoer {d : Vec3 ℝ} (hx : 0 < d.x) (hy : 0 < d.y) (hz : 0 < d.z) :
      Approach.placed goer.support (-(2 : ℝ) • across) s.time (-d) = q := by
    unfold Approach.placed Support.translate goer
    rw [(cube_support 2 _ _ hx hy hz).2, Scalar.one_real, Vec3.mul_eq_smul]
    ext <;> simp [q, p, gap, across] <;> ring
  have hx : 0 < (q - p).x := by simpa [hline, across] using hpos
  have hy : 0 < (q - p).y := by simpa [hline, across] using hpos
  have hz : 0 < (q - p).z := by simpa [hline, across] using hpos
  have hfar : Overlap.containsOriginSq ≤ (q - p).lengthSq := by
    rw [Vec3.lengthSq_eq, ← Vec3.length_mul_self, hlength]
    unfold Overlap.containsOriginSq
    nlinarith
  have hfound : s.closest comer.support goer.support (-(2 : ℝ) • across) = ⟨p, q, (q - p).length⟩ :=
    ClosestPoints.between_of_first ⟨hcomer one_pos one_pos one_pos, hgoer one_pos one_pos one_pos⟩
      ⟨hcomer hx hy hz, hgoer hx hy hz⟩ hfar
  refine ⟨hlength ▸ hfound, ?_⟩
  have hA : IsSupport comer.support comer.points := cube_isSupport 1 across across
  have hB : IsSupport (Approach.placed goer.support (-(2 : ℝ) • across) s.time)
      (Approach.setAt goer.points (-(2 : ℝ) • across) s.time) :=
    Approach.isSupport_placed (cube_isSupport 2 ⟨2, 2, 2⟩ (-across)) s.time
  rw [hfound]
  apply ClosestPoints.isExact_of_first
  · exact hcomer hx hy hz ▸ hA.mem (q - p)
  · exact hgoer hx hy hz ▸ hB.mem (-(q - p))
  · intro x hxA
    have hle := hA.le (q - p) x hxA
    rwa [hcomer hx hy hz] at hle
  · intro y hyB
    have hle := hB.le (-(q - p)) y hyB
    rwa [hgoer hx hy hz, Vec3.neg_dot, Vec3.neg_dot, neg_le_neg_iff] at hle
  · intro hsame
    rw [hsame, sub_self, Vec3.length_zero] at hlength
    linarith

/-- While there is a gap, a turn finds the corners, and comes to the time at which they all but touch. -/
theorem turn_cubes {s : Approach.State ℝ} (hgap : 1 / 600 ≤ 1 - 2 * s.time) :
    Approach.turn comer.support goer.support (-(2 : ℝ) • across) s =
      if 3 * (1 - 2 * s.time) < Approach.touching then
        .ended (.touches (s.hit comer.support goer.support (-(2 : ℝ) • across)))
      else if 1 < (599 / 1200 : ℝ) then .ended .misses
      else .onward ⟨599 / 1200, some (s.hit comer.support goer.support (-(2 : ℝ) • across))⟩ := by
  obtain ⟨hfound, hexact⟩ := closest_cubes hgap
  have hdistance : (s.closest comer.support goer.support (-(2 : ℝ) • across)).distance =
      3 * (1 - 2 * s.time) := congrArg ClosestPoints.distance hfound
  have hpos : 0 < (s.closest comer.support goer.support (-(2 : ℝ) • across)).distance := by
    rw [hdistance]
    linarith
  have hnormal : (s.closest comer.support goer.support (-(2 : ℝ) • across)).normal =
      (3 : ℝ)⁻¹ • across := by
    rw [hexact.normal_eq hpos, hdistance, hfound, add_sub_cancel_left, smul_smul]
    congr 1
    field_simp
  have hclosing : s.closing comer.support goer.support (-(2 : ℝ) • across) = 6 := by
    unfold Approach.State.closing
    rw [hnormal, Vec3.dot_smul, Vec3.smul_dot, ← Vec3.length_mul_self, length_across]
    norm_num
  have hlength : (-(2 : ℝ) • across).length = 6 := by
    rw [neg_smul, Vec3.length_neg, Vec3.length_smul _ zero_le_two, length_across]
    norm_num
  have hfinds : s.Finds comer.support goer.support (-(2 : ℝ) • across) := by
    constructor
    · rw [Scalar.zero_real]
      exact hpos.not_ge
    · exact hexact.not_same_zero hpos
    · rw [hclosing, hlength]
      unfold Approach.grazing
      norm_num
  have hreached : s.reached comer.support goer.support (-(2 : ℝ) • across) = 599 / 1200 := by
    unfold Approach.State.reached Approach.skin
    rw [hdistance, hclosing]
    ring
  rw [Approach.turn_of_finds hfinds, hdistance, hreached, Scalar.one_real]

/-- The approach comes to two times, and the cubes all but touch at the second one. -/
theorem sweep_cubes :
    (∃ hit, (Approach.sweep comer.support goer.support (-(2 : ℝ) • across)).hit? = some hit ∧
      hit.time = 599 / 1200) ∧
    ∀ k s, Approach.after comer.support goer.support (-(2 : ℝ) • across) k Approach.initial = some s →
      1 / 600 ≤ 1 - 2 * s.time := by
  have hzero : (Approach.initial : Approach.State ℝ).time = 0 := Scalar.zero_real
  have hstart : 1 / 600 ≤ 1 - 2 * (Approach.initial : Approach.State ℝ).time := by
    rw [hzero]
    norm_num
  obtain ⟨s, hfirst, htime⟩ : ∃ s, Approach.turn comer.support goer.support (-(2 : ℝ) • across)
      Approach.initial = .onward s ∧ s.time = 599 / 1200 := by
    rw [turn_cubes hstart, hzero]
    unfold Approach.touching
    rw [if_neg (by norm_num), if_neg (by norm_num)]
    exact ⟨_, rfl, rfl⟩
  have hend : 1 / 600 ≤ 1 - 2 * s.time := by
    rw [htime]
    norm_num
  have hsecond := turn_cubes hend
  rw [htime] at hsecond
  unfold Approach.touching at hsecond
  rw [if_pos (by norm_num)] at hsecond
  obtain ⟨hsweep, hafter⟩ := Approach.sweep_of_two_turns hfirst hsecond
  refine ⟨⟨_, congrArg Approach.hit? hsweep, htime⟩, ?_⟩
  intro k s' h
  rcases hafter k s' h with rfl | rfl
  · exact hstart
  · exact hend

/-- The cubes are put back to where their corners all but touch, and both stop. -/
theorem cubes_parted : ∃ a' b' l' hit, objectsSwept comer 0 goer ⟨3, 4, 4⟩ ⟨.ofCapacity 2, #[]⟩ =
      (true, a', b', l') ∧ Parted comer 0 goer ⟨3, 4, 4⟩ hit a' b' ∧
    RecordsPair comer goer ⟨.ofCapacity 2, #[]⟩ hit a' b' l' ∧
    a'.velocity.dot hit.normal = 0 ∧ b'.velocity.dot hit.normal = 0 := by
  obtain ⟨⟨seen, hseen, -⟩, hafter⟩ := sweep_cubes
  have hexact : Approach.IsExactFor comer.support goer.support (seenMotion comer 0 goer ⟨3, 4, 4⟩)
      comer.points goer.points := by
    rw [seenMotion_cubes]
    exact fun k _ s h => (closest_cubes (hafter k s h)).2
  have hmeet : ∃ a' b' l', objectsSwept comer 0 goer ⟨3, 4, 4⟩ ⟨.ofCapacity 2, #[]⟩ =
      (true, a', b', l') := by
    have hmotion := seenMotion_cubes
    have hlong : ¬(-(2 : ℝ) • across).lengthSq < minMotionSq := by
      unfold minMotionSq
      norm_num [Vec3.lengthSq_eq, Vec3.dot_def, across]
    unfold seenMotion at hmotion
    unfold objectsSwept
    simp only [hmotion, if_neg hlong, hseen]
    exact ⟨_, _, _, rfl⟩
  obtain ⟨a', b', l', hswept⟩ := hmeet
  obtain ⟨hit, hparted, hrecords⟩ :=
    (objectsSwept_parts comer 0 goer ⟨3, 4, 4⟩ ⟨.ofCapacity 2, #[]⟩ hexact).1 a' b' l' hswept
  have hboth := hparted.stopBoth ⟨rfl, rfl, rfl, .inr (le_refl _)⟩ ⟨rfl, rfl, rfl, .inr (le_refl _)⟩
  exact ⟨a', b', l', hit, hswept, hparted, hrecords, hboth⟩

end Resolve

end ConvexCollision
