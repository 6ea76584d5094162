import ConvexCollision.Proofs.Exact.Triangle
import ConvexCollision.Proofs.Mesh.Walkable

/-!
# ConvexCollision.Proofs.Mesh.Ground -- what a cast on a mesh finds

`Triangle.LiesBelow` is brute force: a triangle that faces up has a point straight below, at a height. In
exact arithmetic that is what a cast asks of each triangle that its walk meets (`groundBelow?_eq_some_iff`).
It takes the highest of the answers, and the walk over the tree of a mesh that was built leaves out none of
those that lie below (`shadowCast_highest`).
-/

namespace ConvexCollision

/-- The triangle faces up, and one of its points lies straight below a point, at this height. -/
structure Triangle.LiesBelow (t : Triangle ℝ) (point : Vec3 ℝ) (y : ℝ) : Prop where
  /-- It faces up. -/
  rises : MeshData.minRise < t.normal.y
  /-- Some point of it lies straight above or below. -/
  meets : ∃ q ∈ t.points, q.x = point.x ∧ q.z = point.z ∧ q.y = y
  /-- It lies below. -/
  below : y < point.y

/-! ## §A The highest of some hits -/

/-- The highest of the hits of which something holds, or nothing when there are none. -/
def IsHighest (P : GroundHit ℝ → Prop) : Option (GroundHit ℝ) → Prop
  | none => ∀ hit, ¬ P hit
  | some best => P best ∧ ∀ hit, P hit → hit.y ≤ best.y

namespace IsHighest

variable {P Q : GroundHit ℝ → Prop} {best : Option (GroundHit ℝ)}

theorem congr (h : IsHighest P best) (hPQ : ∀ hit, Q hit ↔ P hit) : IsHighest Q best := by
  have hsame : Q = P := funext fun hit => propext (hPQ hit)
  rwa [hsame]

/-- A single hit, if there is one. -/
theorem of_option (hit? : Option (GroundHit ℝ)) : IsHighest (fun hit => hit? = some hit) hit? := by
  cases hit? with
  | none => exact fun hit h => nomatch h
  | some best => exact ⟨rfl, fun hit h => (congrArg GroundHit.y (Option.some.inj h)).ge⟩

/-- The higher one of the highest hits of two kinds. -/
theorem higher (h : IsHighest P best) {hit? : Option (GroundHit ℝ)} (g : IsHighest Q hit?) :
    IsHighest (fun hit => P hit ∨ Q hit) (MeshData.higher best hit?) := by
  cases hit? with
  | none =>
    have hsame : MeshData.higher best none = best := by cases best <;> rfl
    rw [hsame]
    apply h.congr
    intro hit
    exact or_iff_left (g hit)
  | some new =>
    obtain ⟨hnew, hnewest⟩ := g
    cases best with
    | none =>
      refine ⟨Or.inr hnew, ?_⟩
      intro hit hhit
      exact hnewest hit (hhit.resolve_left (h hit))
    | some best =>
      obtain ⟨hbest, hhighest⟩ := h
      unfold MeshData.higher
      simp only
      split
      · next hlt =>
        refine ⟨Or.inr hnew, ?_⟩
        intro hit hhit
        rcases hhit with hhit | hhit
        · exact (hhighest hit hhit).trans hlt.le
        · exact hnewest hit hhit
      · next hge =>
        refine ⟨Or.inl hbest, ?_⟩
        intro hit hhit
        rcases hhit with hhit | hhit
        · exact hhighest hit hhit
        · exact (hnewest hit hhit).trans (not_lt.mp hge)

/-- A fold that keeps the higher of two hits finds the highest one of all kinds. -/
theorem foldl {β : Type} {R : β → GroundHit ℝ → Prop} {f : β → Option (GroundHit ℝ)} {l : List β}
    (h : ∀ x ∈ l, IsHighest (R x) (f x)) :
    IsHighest (fun hit => ∃ x ∈ l, R x hit)
      (l.foldl (fun best x => MeshData.higher best (f x)) none) := by
  refine inv_foldl_passed (fun passed best => IsHighest (fun hit => ∃ x ∈ passed, R x hit) best) ?_
    (fun hit h => absurd h.choose_spec.1 List.not_mem_nil)
  intro passed x rest best hl hbest
  have hx : x ∈ l := by
    rw [hl]
    exact List.mem_append_right _ List.mem_cons_self
  apply (hbest.higher (h x hx)).congr
  intro hit
  simp only [List.mem_append, List.mem_singleton, or_and_right, exists_or, exists_eq_left]

end IsHighest

namespace MeshData

/-! ## §B One triangle -/

/-- What a cast asks of a triangle is whether it lies below the point. -/
theorem groundBelow?_eq_some_iff (t : Triangle ℝ) (surface : Surface) (point : Vec3 ℝ)
    (hit : GroundHit ℝ) : groundBelow? t surface point = some hit ↔
      t.LiesBelow point hit.y ∧ hit.normal = t.normal ∧ hit.surface = surface := by
  have hrise : (0 : ℝ) < minRise := by
    unfold minRise
    norm_num
  unfold groundBelow?
  simp only
  split
  · next hflat =>
    simp only [reduceCtorEq, false_iff]
    exact fun h => absurd h.1.rises (not_lt.mpr hflat)
  · next hrises =>
    have hup : 0 < t.normal.y := hrise.trans (not_le.mp hrises)
    split
    · next hcovers =>
      obtain ⟨q, hq, hx, hz⟩ := (Triangle.covers_iff hup).mp hcovers
      have hheight := Triangle.height_of_mem hup hq hx hz
      rw [hheight]
      split
      · next habove =>
        simp only [reduceCtorEq, false_iff]
        rintro ⟨⟨-, ⟨q', hq', hx', hz', hy'⟩, hbelow⟩, -⟩
        rw [← hy', ← Triangle.height_of_mem hup hq' hx' hz', hheight] at hbelow
        exact absurd habove (not_le.mpr hbelow)
      · next hbelow =>
        constructor
        · intro hsome
          cases hsome
          exact ⟨⟨not_le.mp hrises, ⟨q, hq, hx, hz, rfl⟩, not_le.mp hbelow⟩, rfl, rfl⟩
        · rintro ⟨⟨-, ⟨q', hq', hx', hz', hy'⟩, -⟩, hnormal, hsurface⟩
          have hsame : q.y = hit.y := by
            rw [← hheight, Triangle.height_of_mem hup hq' hx' hz', hy']
          rw [hsame, ← hnormal, ← hsurface]
    · next huncovered =>
      simp only [reduceCtorEq, false_iff]
      rintro ⟨⟨-, ⟨q, hq, hx, hz, -⟩, -⟩, -⟩
      exact huncovered ((Triangle.covers_iff hup).mpr ⟨q, hq, hx, hz⟩)

end MeshData

/-! ## §C One mesh -/

namespace Mesh

/-- One of the triangles of the mesh lies below the point, and the hit is with it. -/
def HitBelow (m : Mesh ℝ) (point : Vec3 ℝ) (hit : GroundHit ℝ) : Prop :=
  ∃ i < m.triangleCount, (m.triangle i).LiesBelow point hit.y ∧ hit.normal = (m.triangle i).normal ∧
    hit.surface = (m.stored i).surface

/-- The walk over the tree of a mesh that was built meets every triangle that lies below the point. -/
theorem mem_castTrace_of_liesBelow {m : Mesh ℝ} {items : List (KdTree.Item ℝ)} {order : List Nat}
    (h : m.data.BuiltOf items order) {point : Vec3 ℝ} {i : Nat} (hi : i < m.triangleCount) {y : ℝ}
    (hbelow : (m.triangle i).LiesBelow point y) :
    m.data.tree.isOutside point = false ∧ i ∈ (m.data.castTrace point).met := by
  obtain ⟨q, hq, hx, hz, rfl⟩ := hbelow.meets
  have hstored := getElem?_eq_stored hi
  have hholds : (m.triangle i).bounds.Holds q := Triangle.bounds_holds hq
  refine h.mem_castTrace (fun v _ => Triangle.isFinite_real v) hstored ?_ ?_
  · intro axis
    cases axis with
    | x => exact (hholds.mins .x).trans hx.le
    | y => exact (hholds.mins .y).trans hbelow.below.le
    | z => exact (hholds.mins .z).trans hz.le
  · intro axis hy
    cases axis with
    | x => exact hx.ge.trans (hholds.maxs .x)
    | y => exact absurd rfl hy
    | z => exact hz.ge.trans (hholds.maxs .z)

/-- **A cast on a mesh.** On a mesh that was built a cast comes to its end, and gives the highest hit
with a triangle that lies below the point. -/
theorem shadowCast_highest {vertices : Array (Vec3 ℝ)} {triangles : Array MeshTriangle} {m : Mesh ℝ}
    (h : build vertices triangles = .ok m) (point : Vec3 ℝ) :
    ∃ hit?, m.shadowCast point = .ok hit? ∧ IsHighest (m.HitBelow point) hit? := by
  obtain ⟨-, items, order, hbuilt⟩ := MeshData.builtOf_of_build (build_data h)
  have hcast : m.shadowCast point = _ := hbuilt.inRange.shadowCast_eq point
  rw [hbuilt.castTrace_stop point] at hcast
  by_cases hout : m.data.tree.isOutside point = true
  · rw [if_pos hout] at hcast
    refine ⟨none, hcast, ?_⟩
    rintro hit ⟨i, hi, hbelow, -⟩
    rw [(mem_castTrace_of_liesBelow hbuilt hi hbelow).1] at hout
    exact absurd hout Bool.false_ne_true
  · rw [if_neg hout] at hcast
    refine ⟨_, hcast, ?_⟩
    apply (IsHighest.foldl fun i _ => IsHighest.of_option _).congr
    intro hit
    constructor
    · rintro ⟨i, hi, hbelow⟩
      exact ⟨i, (mem_castTrace_of_liesBelow hbuilt hi hbelow.1).2,
        (MeshData.groundBelow?_eq_some_iff _ _ _ _).mpr hbelow⟩
    · rintro ⟨i, hi, hground⟩
      exact ⟨i, KdTree.lt_of_mem_trace hbuilt.inRange.tree i hi,
        (MeshData.groundBelow?_eq_some_iff _ _ _ _).mp hground⟩

end Mesh

end ConvexCollision
