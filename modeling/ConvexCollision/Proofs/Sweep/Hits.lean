import ConvexCollision.Resolve.Geometry
import ConvexCollision.Proofs.Except
import ConvexCollision.Proofs.Sweep.Place

/-!
# ConvexCollision.Proofs.Sweep.Hits -- nothing is hit before the earliest hit

The search for the earliest hit on the way along a motion approaches every triangle that is found in the
stretched box, unless the object stretched back along the motion misses it. Up to the time of the earliest
hit a triangle is spared (`Spared`): the object touched it from the start, or its hit was rejected
(`Rejected`), or the object does not overlap it until then. That holds when the geometry answers rightly
what is asked about the triangle (`Answered`), first of one triangle (`triangleHit_spared`), then of those
that one mesh or all meshes find (`earliestOn_spared`, `earliestHit_spared`).

Triangles that are not found are no exception, since none of them is in the way (`earliestHit_clear`).
-/

namespace ConvexCollision.Resolve

/-! ## §A One triangle -/

section Generic

variable {α : Type} [Scalar α]

/-- The contact with the face normal in place of one that is close to it. -/
def faced (t : Triangle α) (hit : Hit α) : Hit α :=
  if faceCosine < hit.normal.dot t.normal then { hit with normal := t.normal } else hit

/-- The face normal changes nothing else. -/
theorem faced_time (t : Triangle α) (hit : Hit α) : (faced t hit).time = hit.time := by
  unfold faced
  split <;> rfl

variable (m : Mesh α) (o : DynamicObject α) (motion : Vec3 α) (i : Nat) (l : Ledger α)

/-- The object, stretched back along its motion, is found to overlap the triangle. -/
def Asked : Prop :=
  Overlap.holds (m.triangle i).support (Support.stretch o.support (-motion)) motion = true

/-- The contact that an approach to a triangle reports. -/
def approached? : Option (Hit α) := (Approach.sweep (m.triangle i).support o.support motion).hit?

/-- The contact that an approach reports is refused: the motion slides along its plane, or its normal
leans out across a seam. -/
def Refused : Prop := ∃ hit, approached? m o motion i = some hit ∧
  (-(motion.dot (faced (m.triangle i) hit).normal) ≤ motion.length * slidingCosine ∨
    m.keepsContact i (faced (m.triangle i) hit).normal = false)

/-- There is no hit on a triangle when it is not approached, when the approach reports no contact, and
when the contact is refused. Otherwise the contact is the hit. -/
theorem triangleHit_cases :
    (triangleHit m o motion i l).1 = none ∧ (¬Asked m o motion i ∨
        Asked m o motion i ∧ (approached? m o motion i = none ∨ Refused m o motion i)) ∨
      ∃ hit, Asked m o motion i ∧ approached? m o motion i = some hit ∧
        (triangleHit m o motion i l).1 = some (faced (m.triangle i) hit, (m.stored i).surface) := by
  by_cases hasked : Asked m o motion i
  · have hsearch : triangleHit m o motion i l = _ := if_pos hasked
    cases happroach : approached? m o motion i with
    | none =>
      unfold approached? at happroach
      left
      rw [hsearch, happroach]
      exact ⟨rfl, Or.inr ⟨hasked, Or.inl rfl⟩⟩
    | some hit =>
      have hreported : (Approach.sweep (m.triangle i).support o.support motion).hit? = some hit := happroach
      rw [hreported] at hsearch
      by_cases hslides : -(motion.dot (faced (m.triangle i) hit).normal) ≤ motion.length * slidingCosine
      · left
        rw [hsearch]
        exact ⟨congrArg Prod.fst (if_pos hslides), Or.inr ⟨hasked, Or.inr ⟨hit, happroach, Or.inl hslides⟩⟩⟩
      by_cases hkeeps : m.keepsContact i (faced (m.triangle i) hit).normal = true
      · right
        rw [hsearch]
        exact ⟨hit, hasked, rfl, congrArg Prod.fst ((if_neg hslides).trans (if_pos hkeeps))⟩
      · left
        rw [hsearch]
        exact ⟨congrArg Prod.fst ((if_neg hslides).trans (if_neg hkeeps)),
          Or.inr ⟨hasked, Or.inr ⟨hit, happroach, Or.inr (Bool.eq_false_iff.mpr hkeeps)⟩⟩⟩
  · have hskip : triangleHit m o motion i l = (none, l) := if_neg hasked
    exact Or.inl ⟨congrArg Prod.fst hskip, Or.inl hasked⟩

end Generic

variable {m : Mesh ℝ} {o : DynamicObject ℝ} {motion : Vec3 ℝ} {i : Nat} {l : Ledger ℝ}

/-- What is asked of the geometry about a triangle is answered rightly: whether the object, stretched back
along its motion, overlaps it, and if so where the nearest points are at each turn of the approach. -/
structure Answered (m : Mesh ℝ) (o : DynamicObject ℝ) (motion : Vec3 ℝ) (i : Nat) : Prop where
  /-- The stretched object is found to overlap the triangle when it does. -/
  overlap : Asked m o motion i ↔
    ((m.triangle i).points ∩ Support.solid (Support.stretch o.support (-motion))).Nonempty
  /-- The nearest points are right. -/
  nearest : Asked m o motion i → Approach.IsExact (m.triangle i).support o.support motion

/-- The hit on a triangle is rejected: the triangle is approached, and the approach grazes it or its
contact is refused. -/
structure Rejected (m : Mesh ℝ) (o : DynamicObject ℝ) (motion : Vec3 ℝ) (i : Nat) : Prop where
  /-- The triangle is approached. -/
  asked : Asked m o motion i
  /-- The approach grazes, or its contact is refused. -/
  reason : Approach.Grazes (m.triangle i).support o.support motion ∨ Refused m o motion i

/-- The object touched the triangle from the start of its motion, or the triangle's hit was rejected, or
the object does not overlap the triangle up to a time. -/
def Spared (m : Mesh ℝ) (o : DynamicObject ℝ) (motion : Vec3 ℝ) (i : Nat) (time : ℝ) : Prop :=
  o.OverlapsAt (o.onWay motion 0) (m.triangle i) ∨ Rejected m o motion i ∨
    ∀ t, 0 ≤ t → t ≤ time → ¬o.OverlapsAt (o.onWay motion t) (m.triangle i)

theorem Spared.mono {time time' : ℝ} (h : Spared m o motion i time) (hle : time' ≤ time) :
    Spared m o motion i time' :=
  h.imp_right fun h => h.imp_right fun hclear t ht htle => hclear t ht (htle.trans hle)

/-- How far the object gets: to the time of the hit, or all the way. -/
def reach : Option (SurfaceHit ℝ) → ℝ
  | none => 1
  | some hit => hit.1.time

/-- The stretched object covers the object all the way, so a triangle that it misses is never met. -/
theorem Answered.clear_of_not_asked (h : Answered m o motion i) (hasked : ¬Asked m o motion i) {t : ℝ}
    (ht : 0 ≤ t) (ht1 : t ≤ 1) : ¬o.OverlapsAt (o.onWay motion t) (m.triangle i) := by
  rintro ⟨x, hx, hsolid⟩
  apply hasked
  rw [h.overlap]
  refine ⟨x, hx, ?_⟩
  rw [DynamicObject.onWay, ← sub_add_cancel x ((t - 1) • motion), DynamicObject.add_mem_solidAt] at hsolid
  have hstretch := Support.add_mem_solid_stretch hsolid (-motion) (sub_nonneg.mpr ht1)
    (sub_le_self 1 ht)
  rwa [show x - (t - 1) • motion + (1 - t) • -motion = x by module] at hstretch

/-- Up to its hit, or all the way without one, a triangle is spared. -/
theorem triangleHit_spared (h : Answered m o motion i) :
    0 ≤ reach (triangleHit m o motion i l).1 ∧ reach (triangleHit m o motion i l).1 ≤ 1 ∧
      Spared m o motion i (reach (triangleHit m o motion i l).1) := by
  have hright (hasked : Asked m o motion i) :
      Approach.Right (m.triangle i).support o.support motion _ (approached? m o motion i) :=
    Approach.sweep_conservative (h.nearest hasked)
  rcases triangleHit_cases m o motion i l with ⟨hnone, hwhy⟩ | ⟨hit, hasked, happroach, hhit⟩
  · rw [hnone]
    refine ⟨zero_le_one, le_refl _, ?_⟩
    rcases hwhy with hskip | ⟨hasked, happroach | hrefused⟩
    · exact Or.inr (Or.inr fun t ht ht1 => h.clear_of_not_asked hskip ht ht1)
    · have hmiss := hright hasked
      rw [happroach] at hmiss
      rcases hmiss with htouch | hgrazes | hclear
      · left
        rw [DynamicObject.apartAt_iff, not_not] at htouch
        exact htouch
      · exact Or.inr (Or.inl ⟨hasked, Or.inl hgrazes⟩)
      · exact Or.inr (Or.inr fun t ht ht1 => DynamicObject.apartAt_iff.mp (hclear t ht ht1))
    · exact Or.inr (Or.inl ⟨hasked, Or.inr hrefused⟩)
  · have hseen := hright hasked
    rw [happroach] at hseen
    obtain ⟨hnonneg, hle, hclear⟩ := hseen
    rw [hhit]
    show 0 ≤ (faced _ hit).time ∧ (faced _ hit).time ≤ 1 ∧ Spared m o motion i (faced _ hit).time
    rw [faced_time]
    exact ⟨hnonneg, hle, Or.inr (Or.inr fun t ht htle => DynamicObject.apartAt_iff.mp (hclear t ht htle))⟩

/-! ## §B The earliest hit -/

/-- The earlier of two hits comes no later than either. -/
theorem reach_earlier {best hit : Option (SurfaceHit ℝ)} (hbest : reach best ≤ 1)
    (hhit : reach hit ≤ 1) : reach (earlier best hit) = min (reach best) (reach hit) := by
  cases best with
  | none => exact (min_eq_right hhit).symm
  | some best =>
    cases hit with
    | none => exact (min_eq_left hbest).symm
    | some hit =>
      unfold earlier
      by_cases hlt : hit.1.time < best.1.time
      · simp only [if_pos hlt]
        exact (min_eq_right hlt.le).symm
      · simp only [if_neg hlt]
        exact (min_eq_left (not_lt.mp hlt)).symm

/-- The best hit so far lies within the motion. -/
def InTime (best : Option (SurfaceHit ℝ)) : Prop := 0 ≤ reach best ∧ reach best ≤ 1

/-- Up to the best hit after some triangles of a mesh, each of them is spared, and the best hit comes no
later than the one before. -/
theorem earliestOn_spared {triangles : Array Nat} (h : ∀ i ∈ triangles, Answered m o motion i)
    {state : Option (SurfaceHit ℝ) × Ledger ℝ} (hstate : InTime state.1) :
    InTime (earliestOn m o motion triangles state).1 ∧
      reach (earliestOn m o motion triangles state).1 ≤ reach state.1 ∧
      ∀ i ∈ triangles, Spared m o motion i (reach (earliestOn m o motion triangles state).1) := by
  unfold earliestOn
  rw [← Array.foldl_toList]
  simp only [← Array.mem_toList_iff] at h ⊢
  refine inv_foldl_passed (fun passed (s : Option (SurfaceHit ℝ) × Ledger ℝ) => InTime s.1 ∧
    reach s.1 ≤ reach state.1 ∧ ∀ i ∈ passed, Spared m o motion i (reach s.1)) ?_
    ⟨hstate, le_refl _, fun i hi => absurd hi List.not_mem_nil⟩
  rintro passed i rest s hl ⟨hs, hle, hpassed⟩
  have hi : i ∈ triangles.toList := by
    rw [hl]
    exact List.mem_append_right _ List.mem_cons_self
  obtain ⟨hnonneg, hle1, hspared⟩ := triangleHit_spared (l := s.2) (h i hi)
  show InTime (earlier _ _) ∧ reach (earlier _ _) ≤ _ ∧ ∀ j ∈ _, Spared m o motion j (reach (earlier _ _))
  unfold InTime
  rw [reach_earlier hs.2 hle1]
  refine ⟨⟨le_min hs.1 hnonneg, (min_le_left _ _).trans hs.2⟩, (min_le_left _ _).trans hle, ?_⟩
  intro j hj
  rcases List.mem_append.mp hj with hj | hj
  · exact (hpassed j hj).mono (min_le_left _ _)
  · rw [List.mem_singleton.mp hj]
    exact hspared.mono (min_le_right _ _)

/-- The triangles of a mesh that the search comes to. -/
def Found (m : Mesh ℝ) (o : DynamicObject ℝ) (motion : Vec3 ℝ) (i : Nat) : Prop :=
  ∃ found, m.visit (o.box.extendDirection (-motion)) o.layers = .ok found ∧ i ∈ found

/-- Up to the earliest hit, every triangle that the search comes to is spared. -/
theorem earliestHit_spared {meshes : List (Mesh ℝ)} {l l' : Ledger ℝ} {best : Option (SurfaceHit ℝ)}
    (h : ∀ m ∈ meshes, ∀ i, Found m o motion i → Answered m o motion i)
    (hhit : earliestHit meshes o motion l = .ok (best, l')) :
    InTime best ∧ ∀ m ∈ meshes, ∀ i, Found m o motion i → Spared m o motion i (reach best) := by
  unfold earliestHit at hhit
  refine inv_foldlM_passed (fun passed (s : Option (SurfaceHit ℝ) × Ledger ℝ) => InTime s.1 ∧
    ∀ m ∈ passed, ∀ i, Found m o motion i → Spared m o motion i (reach s.1)) ?_
    ⟨⟨zero_le_one, le_refl _⟩, fun m hm => absurd hm List.not_mem_nil⟩ hhit
  rintro passed m rest s s' hl ⟨hs, hpassed⟩ hstep
  have hm : m ∈ meshes := by
    rw [hl]
    exact List.mem_append_right _ List.mem_cons_self
  cases hvisit : m.visit (o.box.extendDirection (-motion)) o.layers with
  | error halt =>
    rw [hvisit] at hstep
    cases hstep
  | ok found =>
    rw [hvisit] at hstep
    cases hstep
    obtain ⟨hs', hle, hspared⟩ := earliestOn_spared (fun i hi => h m hm i ⟨found, hvisit, hi⟩) hs
    refine ⟨hs', ?_⟩
    rintro m' hm' i ⟨found', hvisit', hi⟩
    rcases List.mem_append.mp hm' with hm' | hm'
    · exact (hpassed m' hm' i ⟨found', hvisit', hi⟩).mono hle
    · rw [List.mem_singleton.mp hm', hvisit] at hvisit'
      cases hvisit'
      rw [List.mem_singleton.mp hm']
      exact hspared i hi

/-- **Nothing is hit before the earliest hit.** In meshes that were built, every triangle that shares a
layer with an object in its box is spared up to the earliest hit, or all the way when there is none. -/
theorem earliestHit_clear {meshes : List (Mesh ℝ)}
    (hbuilt : ∀ m ∈ meshes, ∃ vertices triangles, Mesh.build vertices triangles = .ok m)
    (hbox : o.Boxed) (h : ∀ m ∈ meshes, ∀ i, Found m o motion i → Answered m o motion i)
    {l l' : Ledger ℝ} {best : Option (SurfaceHit ℝ)}
    (hhit : earliestHit meshes o motion l = .ok (best, l')) :
    InTime best ∧ ∀ m ∈ meshes, ∀ i < m.triangleCount,
      (m.stored i).layers.intersects o.layers = true → Spared m o motion i (reach best) := by
  obtain ⟨hbest, hspared⟩ := earliestHit_spared h hhit
  refine ⟨hbest, ?_⟩
  intro m hm i hi hlayers
  by_cases hfound : Found m o motion i
  · exact hspared m hm i hfound
  · -- a triangle that is not found is never in the way
    obtain ⟨vertices, triangles, hbuild⟩ := hbuilt m hm
    obtain ⟨found, hvisit⟩ := (Mesh.walkable_of_build hbuild).visit (o.box.extendDirection (-motion)) o.layers
    refine Or.inr (Or.inr fun t ht htle hoverlap => hfound ⟨found, hvisit, ?_⟩)
    exact Mesh.mem_visit_of_overlapsAt hbuild hbox hvisit hi hlayers ht (htle.trans hbest.2) hoverlap

end ConvexCollision.Resolve
