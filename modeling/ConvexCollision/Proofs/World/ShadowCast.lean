import ConvexCollision.Proofs.Mesh.Ground
import ConvexCollision.World

/-!
# ConvexCollision.Proofs.World.ShadowCast -- a cast finds the highest surface below a point

A world casts on each of its static meshes and takes the highest of what these give. With meshes that
were built, and in exact arithmetic, that is the highest point of any of their triangles that faces up and
lies straight below.
-/

namespace ConvexCollision.World

/-! ## §A All meshes -/

/-- In exact arithmetic a world compares hits as a mesh does. -/
theorem highest_eq_higher (best : Option (GroundHit ℝ)) (hit : GroundHit ℝ) :
    highest best hit = MeshData.higher best (some hit) := by
  cases best with
  | none => rfl
  | some best =>
    show (if hit.y ≤ best.y then some best else some hit) =
      if best.y < hit.y then some hit else some best
    by_cases h : hit.y ≤ best.y
    · rw [if_pos h, if_neg (not_lt.mpr h)]
    · rw [if_neg h, if_pos (not_le.mp h)]

/-- The highest of the hits that some meshes give. -/
theorem foldl_highest (hits : List (Option (GroundHit ℝ))) :
    (hits.filterMap id).foldl highest none =
      hits.foldl (fun best hit? => MeshData.higher best hit?) none := by
  rw [List.foldl_filterMap]
  congr 1
  funext best hit?
  cases hit? with
  | none => cases best <;> rfl
  | some hit => exact highest_eq_higher best hit

/-- On meshes that were built a cast comes to its end, and gives the highest hit with a triangle of any
of them that lies below the point. -/
theorem shadowCastOn_highest {meshes : List (Mesh ℝ)}
    (hbuilt : ∀ m ∈ meshes, ∃ vertices triangles, Mesh.build vertices triangles = .ok m)
    (point : Vec3 ℝ) : ∃ hit?, shadowCastOn meshes point = .ok hit? ∧
      IsHighest (fun hit => ∃ m ∈ meshes, m.HitBelow point hit) hit? := by
  have heach : ∀ m ∈ meshes, ∃ hit?, m.shadowCast point = .ok hit? ∧
      IsHighest (m.HitBelow point) hit? := by
    intro m hm
    obtain ⟨vertices, triangles, h⟩ := hbuilt m hm
    exact Mesh.shadowCast_highest h point
  choose! hit? hcast hhighest using heach
  refine ⟨_, ?_, IsHighest.foldl hhighest⟩
  unfold shadowCastOn
  rw [mapM_eq_ok_map hcast]
  show Except.ok (((meshes.map hit?).filterMap id).foldl highest none) = _
  rw [foldl_highest, List.foldl_map]

/-! ## §B A world -/

/-- **A cast is brute force.** In exact arithmetic, on static meshes that were built, a cast comes to
its end. It gives a hit exactly when some triangle of some mesh faces up and lies straight below the
point, edges and corners included. Its height is then the greatest of the heights of all of these, and
its normal and its surface are those of a triangle at that height. -/
theorem shadowCast_isGreatest {w : World ℝ}
    (hbuilt : ∀ m ∈ w.staticMeshes, ∃ vertices triangles, Mesh.build vertices triangles = .ok m)
    (point : Vec3 ℝ) :
    ∃ hit?, w.shadowCast point = .ok hit? ∧
      (hit?.isSome = true ↔ ∃ m ∈ w.staticMeshes, ∃ i < m.triangleCount, ∃ y,
        (m.triangle i).LiesBelow point y) ∧
      ∀ hit, hit? = some hit →
        IsGreatest {y | ∃ m ∈ w.staticMeshes, ∃ i < m.triangleCount,
          (m.triangle i).LiesBelow point y} hit.y ∧
        ∃ m ∈ w.staticMeshes, ∃ i < m.triangleCount, (m.triangle i).LiesBelow point hit.y ∧
          hit.normal = (m.triangle i).normal ∧ hit.surface = (m.stored i).surface := by
  obtain ⟨hit?, hcast, hhighest⟩ := shadowCastOn_highest hbuilt point
  -- a triangle that lies below is hit, with its own normal and surface
  have hhit {m : Mesh ℝ} {i : Nat} (hi : i < m.triangleCount) {y : ℝ}
      (hbelow : (m.triangle i).LiesBelow point y) :
      m.HitBelow point ⟨y, (m.triangle i).normal, (m.stored i).surface⟩ :=
    ⟨i, hi, hbelow, rfl, rfl⟩
  refine ⟨hit?, hcast, ?_, ?_⟩
  · cases hit? with
    | none =>
      refine ⟨fun h => absurd h Bool.false_ne_true, ?_⟩
      rintro ⟨m, hm, i, hi, y, hbelow⟩
      exact absurd ⟨m, hm, hhit hi hbelow⟩ (hhighest _)
    | some best =>
      obtain ⟨m, hm, i, hi, hbelow, -⟩ := hhighest.1
      exact ⟨fun _ => ⟨m, hm, i, hi, best.y, hbelow⟩, fun _ => rfl⟩
  · rintro best rfl
    obtain ⟨⟨m, hm, i, hi, hbelow, hsame⟩, hbest⟩ := hhighest
    refine ⟨⟨⟨m, hm, i, hi, hbelow⟩, ?_⟩, m, hm, i, hi, hbelow, hsame⟩
    rintro y ⟨m', hm', i', hi', hbelow'⟩
    exact hbest _ ⟨m', hm', hhit hi' hbelow'⟩

/-- A triangle that lies flat at the origin, facing up. -/
noncomputable def flatTriangle : Triangle ℝ := ⟨⟨0, 0, 0⟩, ⟨0, 0, 1⟩, ⟨1, 0, 0⟩⟩

theorem flatTriangle_normal : flatTriangle.normal = ⟨0, 1, 0⟩ := by
  have hcross : (flatTriangle.b - flatTriangle.a).cross (flatTriangle.c - flatTriangle.a) =
      (⟨0, 1, 0⟩ : Vec3 ℝ) := by
    ext <;> simp [flatTriangle, Vec3.cross_x, Vec3.cross_y, Vec3.cross_z]
  have hlength : (⟨0, 1, 0⟩ : Vec3 ℝ).length = 1 := by
    show Real.sqrt (Vec3.dot _ _) = 1
    simp [Vec3.dot_def]
  have hne : (⟨0, 1, 0⟩ : Vec3 ℝ) ≠ 0 := fun h =>
    one_ne_zero ((congrArg Vec3.y h).trans Vec3.zero_y)
  show Vec3.normalizeOrZero _ = _
  rw [hcross, Vec3.normalizeOrZero_of_ne_zero hne, hlength, inv_one, one_smul]

/-- It lies three below a point above it, and nowhere else. -/
theorem flatTriangle_liesBelow (y : ℝ) :
    flatTriangle.LiesBelow ⟨1 / 4, 3, 1 / 4⟩ y ↔ y = 0 := by
  have hup : 0 < flatTriangle.normal.y := by
    rw [flatTriangle_normal]
    exact one_pos
  have hheight (q : Vec3 ℝ) (hq : q ∈ flatTriangle.points) : q.y = 0 := by
    have hplane := Triangle.normal_dot_of_mem hq
    rw [flatTriangle_normal] at hplane
    simpa [Vec3.dot_def, flatTriangle] using hplane
  constructor
  · rintro ⟨-, ⟨q, hq, -, -, rfl⟩, -⟩
    exact hheight q hq
  · rintro rfl
    refine ⟨?_, ?_, by norm_num⟩
    · rw [flatTriangle_normal]
      show MeshData.minRise < 1
      unfold MeshData.minRise
      norm_num
    · have hcovers : MeshData.covers flatTriangle ⟨1 / 4, 3, 1 / 4⟩ = true := by
        rw [Triangle.covers_iff_side hup]
        intro i
        cases i <;> norm_num [Triangle.side, Triangle.corner, Corner.next, flatTriangle]
      obtain ⟨q, hq, hx, hz⟩ := (Triangle.covers_iff hup).mp hcovers
      exact ⟨q, hq, hx, hz, hheight q hq⟩

/-- A world whose one mesh is that triangle can be made, and the cast finds it. -/
theorem flatTriangle_shadowCast : ∃ w : World ℝ,
    (∀ m ∈ w.staticMeshes, ∃ vertices triangles, Mesh.build vertices triangles = .ok m) ∧
      ∃ hit, w.shadowCast ⟨1 / 4, 3, 1 / 4⟩ = .ok (some hit) ∧ hit.y = 0 ∧
        hit.normal = ⟨0, 1, 0⟩ := by
  obtain ⟨m, hbuild, hcount, htriangle, -⟩ := Mesh.exists_build_single flatTriangle
  let w : World ℝ := { World.new Config.standard with meshes := [(⟨0⟩, m)] }
  have hbuilt : ∀ m ∈ w.staticMeshes, ∃ vertices triangles,
      Mesh.build vertices triangles = .ok m := by
    intro m' hm'
    rw [List.mem_singleton.mp hm']
    exact ⟨_, _, hbuild⟩
  have honly (i : Nat) (hi : i < m.triangleCount) : m.triangle i = flatTriangle := by
    rw [hcount, Nat.lt_one_iff] at hi
    rw [hi, htriangle]
  refine ⟨w, hbuilt, ?_⟩
  obtain ⟨hit?, hcast, hsome, hgreatest⟩ := shadowCast_isGreatest hbuilt ⟨1 / 4, 3, 1 / 4⟩
  have hfound : hit?.isSome = true := by
    refine hsome.mpr ⟨m, List.mem_singleton_self _, 0, by rw [hcount]; exact one_pos, 0, ?_⟩
    rw [htriangle]
    exact (flatTriangle_liesBelow 0).mpr rfl
  obtain ⟨hit, rfl⟩ := Option.isSome_iff_exists.mp hfound
  obtain ⟨-, m', hm', i, hi, hbelow, hnormal, -⟩ := hgreatest hit rfl
  rw [List.mem_singleton.mp hm'] at hi hbelow hnormal
  rw [honly i hi] at hbelow hnormal
  exact ⟨hit, hcast, (flatTriangle_liesBelow hit.y).mp hbelow, hnormal.trans flatTriangle_normal⟩

end ConvexCollision.World
