import Mathlib.Logic.Relation
import ConvexCollision.Proofs.Approach.Found
import ConvexCollision.Proofs.Exact.Length
import ConvexCollision.Proofs.Exact.Response
import ConvexCollision.Proofs.Pair.Separated
import ConvexCollision.Proofs.Sweep.Clear
import ConvexCollision.Proofs.World.Ends

/-!
# ConvexCollision.Proofs.World.Speed -- no contact with static meshes makes an object faster

A contact of an object with static meshes is one of three things (`Meets`): on its way the object comes to a
hit and slides on, or it is put back with less of its velocity, or it is pushed out of a triangle that it
overlaps. Every walk and every pass over a mesh is a sequence of such contacts (`walk_meets`, `mesh_meets`), and
so is what a tick does with an object and the static meshes. Their normals are unit vectors, whatever the
geometry answers (`earliestHit_unit`). So an object whose type gives no more back than it takes (`Lossy`) does
not get faster by any sequence of them, swept and direct ones in any order.
-/

namespace ConvexCollision

/-- What a contact leaves of a velocity is in no direction more than there was. -/
structure ObjectType.Lossy (t : ObjectType ℝ) : Prop where
  /-- What comes in is not drawn further in. -/
  bounce_nonneg : 0 ≤ t.bounce
  /-- It is not thrown back faster. -/
  bounce_le : t.bounce ≤ 1
  /-- What slides is not pushed on. -/
  friction_nonneg : 0 ≤ t.friction
  /-- It is at most turned round. -/
  friction_le : t.friction ≤ 2

/-- The direction of a vector is a unit vector, if it has one. -/
theorem Vec3.normalizeOrZero_eq_zero_or_unit (v : Vec3 ℝ) :
    v.normalizeOrZero = 0 ∨ v.normalizeOrZero.dot v.normalizeOrZero = 1 := by
  by_cases h : v = 0
  · exact .inl (h ▸ normalizeOrZero_zero)
  · have hpos := length_pos h
    right
    rw [normalizeOrZero_of_ne_zero h, smul_dot, dot_smul, ← length_mul_self]
    field_simp

namespace Resolve

/-! ## §A The normals of hits -/

section Normals

variable {m : Mesh ℝ} {o : DynamicObject ℝ} {motion : Vec3 ℝ} {i : Nat} {l l' : Ledger ℝ}

/-- The hit, if there is one, has a unit normal. -/
def UnitNormal (best : Option (SurfaceHit ℝ)) : Prop :=
  ∀ hit, best = some hit → hit.1.normal.dot hit.1.normal = 1

theorem UnitNormal.earlier {best hit : Option (SurfaceHit ℝ)} (hbest : UnitNormal best)
    (hhit : UnitNormal hit) : UnitNormal (Resolve.earlier best hit) := by
  unfold Resolve.earlier
  split
  · split
    · exact hhit
    · exact hbest
  · exact hhit
  · exact hbest

/-- The contact that an approach reports has a unit normal: it was found between sets that were apart. -/
theorem approached_unit {hit : Hit ℝ} (h : approached? m o motion i = some hit) :
    hit.normal.dot hit.normal = 1 := by
  obtain ⟨k, -, s, -, hfinds, rfl⟩ := Approach.sweep_found h
  refine (Vec3.normalizeOrZero_eq_zero_or_unit _).resolve_left fun hzero => hfinds.directed ?_
  unfold ClosestPoints.normal
  rw [hzero]
  exact Vec3.same_iff.mpr fun axis => (Scalar.same_real _ _).mpr rfl

/-- With the face normal in its place it still has: a triangle without a normal is close to none. -/
theorem faced_unit {t : Triangle ℝ} {hit : Hit ℝ} (h : hit.normal.dot hit.normal = 1) :
    (faced t hit).normal.dot (faced t hit).normal = 1 := by
  unfold faced
  split
  · next hclose =>
    refine (Vec3.normalizeOrZero_eq_zero_or_unit _).resolve_left fun hzero => ?_
    have hnormal : t.normal = 0 := hzero
    rw [hnormal, Vec3.dot_zero] at hclose
    unfold faceCosine at hclose
    norm_num at hclose
  · exact h

theorem triangleHit_unit : UnitNormal (triangleHit m o motion i l).1 := by
  rintro _ hsome
  rcases triangleHit_cases m o motion i l with ⟨hnone, -⟩ | ⟨hit, -, happroach, hhit⟩
  · rw [hnone] at hsome
    cases hsome
  · rw [hhit] at hsome
    cases hsome
    exact faced_unit (approached_unit happroach)

theorem earliestOn_unit {triangles : Array Nat} {state : Option (SurfaceHit ℝ) × Ledger ℝ}
    (h : UnitNormal state.1) : UnitNormal (earliestOn m o motion triangles state).1 := by
  unfold earliestOn
  rw [← Array.foldl_toList]
  exact inv_foldl (fun _ (s : Option (SurfaceHit ℝ) × Ledger ℝ) => UnitNormal s.1)
    (fun _ _ _ hs => hs.earlier triangleHit_unit) h

/-- **The hit that ends a leg of a walk has a unit normal**, whatever the geometry answers. -/
theorem earliestHit_unit {meshes : List (Mesh ℝ)} {hit : SurfaceHit ℝ}
    (h : earliestHit meshes o motion l = .ok (some hit, l')) : hit.1.normal.dot hit.1.normal = 1 := by
  unfold earliestHit at h
  have hinv := inv_foldlM_passed (fun _ (s : Option (SurfaceHit ℝ) × Ledger ℝ) => UnitNormal s.1)
    (fun _ m _ s s' _ hs hstep => ?_) ?_ h
  · exact hinv hit rfl
  · cases hvisit : m.visit (o.box.extendDirection (-motion)) o.layers with
    | error halt =>
      rw [hvisit] at hstep
      cases hstep
    | ok found =>
      rw [hvisit] at hstep
      cases hstep
      exact earliestOn_unit hs
  · intro hit hnone
    cases hnone

end Normals

/-! ## §B One contact -/

/-- A contact of an object with static meshes. -/
inductive Meets : DynamicObject ℝ → DynamicObject ℝ → Prop
  /-- It comes to a hit on its way, and slides on. -/
  | slides {meshes : List (Mesh ℝ)} {o : DynamicObject ℝ} {motion : Vec3 ℝ} {l l' : Ledger ℝ}
    {hit : SurfaceHit ℝ} (hhit : earliestHit meshes o motion l = .ok (some hit, l')) :
    Meets o (strike o motion hit l').1
  /-- It is put back to a place. -/
  | putBack (o : DynamicObject ℝ) (place : Vec3 ℝ) : Meets o (putBack o place)
  /-- It is pushed out of a triangle of a mesh, if it overlaps it. -/
  | pushed (m : Mesh ℝ) (o : DynamicObject ℝ) (i : Nat) (l : Ledger ℝ) : Meets o (triangle m o i l).1

variable {o o' : DynamicObject ℝ}

/-- The friction in force is in the same bounds, also while it is switched off. -/
theorem friction_bounds (h : o.type.Lossy) : 0 ≤ o.friction ∧ o.friction ≤ 2 := by
  unfold DynamicObject.friction
  split
  · rw [Scalar.zero_real]
    exact ⟨le_refl 0, zero_le_two⟩
  · exact ⟨h.friction_nonneg, h.friction_le⟩

theorem slide_speed_le (h : o.type.Lossy) {motion : Vec3 ℝ} {hit : Hit ℝ}
    (hunit : hit.normal.dot hit.normal = 1) : (slide o motion hit).1.velocity.length ≤ o.velocity.length := by
  show (bounceVelocity o.velocity hit.normal o.type.bounce).length ≤ _
  rw [bounceVelocity_eq]
  exact length_correctVelocity_le hunit h.bounce_nonneg h.bounce_le (le_refl 0) zero_le_two

theorem respond_speed_le (h : o.type.Lossy) {normal : Vec3 ℝ} (hunit : normal.dot normal = 1) :
    (o.respond normal).velocity.length ≤ o.velocity.length :=
  length_correctVelocity_le hunit h.bounce_nonneg h.bounce_le (friction_bounds h).1 (friction_bounds h).2

theorem putBack_speed_le (o : DynamicObject ℝ) (place : Vec3 ℝ) :
    (Resolve.putBack o place).velocity.length ≤ o.velocity.length := by
  show (o.velocity * (capDamping : ℝ)).length ≤ _
  rw [Vec3.mul_eq_smul, Vec3.length_smul_abs]
  refine mul_le_of_le_one_left (Vec3.length_nonneg _) ?_
  unfold capDamping
  norm_num [abs_le]

theorem triangle_speed_le (h : o.type.Lossy) (m : Mesh ℝ) (i : Nat) (l : Ledger ℝ) :
    (triangle m o i l).1.velocity.length ≤ o.velocity.length := by
  unfold triangle
  simp only
  split
  · exact le_refl _
  split
  · exact le_refl _
  next hit hpenetration =>
  split
  · exact respond_speed_le (o := o.move (hit.normal * hit.penetration)) h
      (normal_dot_self_of_penetration hpenetration)
  · exact le_refl _

/-- A contact leaves an object its type. -/
theorem Meets.type_eq (h : Meets o o') : o'.type = o.type := by
  have hcarried : o.Carried o' := by
    cases h with
    | slides _ => exact strike_carried _ _ _ _
    | putBack _ place => exact (DynamicObject.Carried.move _ _).trans (.of_eq rfl rfl rfl)
    | pushed m _ i l => exact triangle_carried m o i l
  have htype := congrArg DynamicObject.type hcarried.kept
  exact htype

/-- **No contact makes an object faster.** -/
theorem Meets.speed_le (h : Meets o o') (hlossy : o.type.Lossy) :
    o'.velocity.length ≤ o.velocity.length := by
  cases h with
  | slides hhit => exact slide_speed_le hlossy (earliestHit_unit hhit)
  | putBack _ place => exact putBack_speed_le o place
  | pushed m _ i l => exact triangle_speed_le hlossy m i l

/-! ## §C Sequences of contacts -/

/-- Any sequence of contacts. -/
abbrev MeetsAll : DynamicObject ℝ → DynamicObject ℝ → Prop := Relation.ReflTransGen Meets

theorem MeetsAll.type_eq (h : MeetsAll o o') : o'.type = o.type := by
  induction h with
  | refl => rfl
  | tail _ hstep ih => exact hstep.type_eq.trans ih

theorem MeetsAll.speed_le (h : MeetsAll o o') (hlossy : o.type.Lossy) :
    o'.velocity.length ≤ o.velocity.length := by
  induction h with
  | refl => exact le_refl _
  | tail hbefore hstep ih =>
    have htype := MeetsAll.type_eq hbefore
    exact (hstep.speed_le (htype ▸ hlossy)).trans ih

/-- A walk is a sequence of contacts, one at the end of each leg but the last one. -/
theorem walk_meets {meshes : List (Mesh ℝ)} {limit left : Nat} {safe : Vec3 ℝ} {l l' : Ledger ℝ}
    (h : walk meshes limit left safe o l = .ok (o', l')) : MeetsAll o o' := by
  obtain ⟨legs, hroute⟩ := walk_eq_ok_iff.mp h
  clear h
  induction hroute with
  | remainder _ => exact .refl
  | arrived _ _ => exact .refl
  | putBack _ _ => exact .single (.putBack _ _)
  | hit _ hhit _ ih => exact .head (.slides hhit) ih

/-- A pass over a mesh is a sequence of contacts, one for each triangle that is found. -/
theorem mesh_meets {m : Mesh ℝ} {l l' : Ledger ℝ} (h : mesh m o l = .ok (o', l')) : MeetsAll o o' :=
  inv_mesh (fun s => MeetsAll o s.1) (fun s i hs => hs.tail (.pushed m s.1 i s.2)) h .refl

end Resolve

open Resolve

namespace World

variable {w : World ℝ} {o o₁ o₂ : DynamicObject ℝ} {before : Before ℝ} {l l₁ l₂ : Ledger ℝ}

theorem sweepMeshes_meets (h : w.sweepMeshes o before l = .ok (o₁, l₁)) : MeetsAll o o₁ := by
  unfold sweepMeshes at h
  split at h
  · exact walk_meets h
  · cases h
    exact .refl

theorem foldlM_mesh_meets {meshes : List (Mesh ℝ)}
    (h : meshes.foldlM (fun (o, l) m => mesh m o l) (o₁, l₁) = .ok (o₂, l₂)) : MeetsAll o₁ o₂ :=
  rel_of_foldlM_eq_ok (R := fun s s' : DynamicObject ℝ × Ledger ℝ => MeetsAll s.1 s'.1) (fun _ => .refl)
    (fun _ _ _ h g => h.trans g) (fun _ _ _ hstep => mesh_meets hstep) h

end World

/-- **Contacts with static meshes add no speed, and swept and direct ones are the same.** What a contact with a
unit normal leaves of a velocity is no longer than the velocity was. What led into the surface leads out of it,
scaled by the bounce, what led out is kept, and a second contact with the same surface changes nothing. The
correction of a swept contact is that of a direct one without friction. So no sequence of contacts with static
meshes makes an object faster, and what settling an object does with the meshes, its walk and then the pass
over each mesh, is such a sequence. -/
theorem contacts_add_no_speed :
    (∀ (velocity normal : Vec3 ℝ) (bounce friction : ℝ), normal.dot normal = 1 →
      0 ≤ bounce → bounce ≤ 1 → 0 ≤ friction → friction ≤ 2 →
        (correctVelocity velocity normal bounce friction).length ≤ velocity.length ∧
        (velocity.dot normal < 0 →
          (correctVelocity velocity normal bounce friction).dot normal = -bounce * velocity.dot normal) ∧
        (¬velocity.dot normal < 0 → correctVelocity velocity normal bounce friction = velocity) ∧
        correctVelocity (correctVelocity velocity normal bounce friction) normal bounce friction =
          correctVelocity velocity normal bounce friction ∧
        bounceVelocity velocity normal bounce = correctVelocity velocity normal bounce 0) ∧
    (∀ o o' : DynamicObject ℝ, o.type.Lossy → Relation.ReflTransGen Meets o o' →
      o'.velocity.length ≤ o.velocity.length) ∧
    ∀ (w : World ℝ) (before : World.Before ℝ) (o o₁ o₂ : DynamicObject ℝ) (l l₁ l₂ : Ledger ℝ),
      o.type.Lossy → w.sweepMeshes o before l = .ok (o₁, l₁) →
      w.staticMeshes.foldlM (fun (o, l) m => mesh m o l) (o₁, l₁) = .ok (o₂, l₂) →
        Relation.ReflTransGen Meets o o₂ ∧ o₂.velocity.length ≤ o.velocity.length := by
  refine ⟨?_, fun o o' hlossy h => MeetsAll.speed_le h hlossy, ?_⟩
  · intro velocity normal bounce friction hunit hb hb1 hf hf2
    exact ⟨length_correctVelocity_le hunit hb hb1 hf hf2, correctVelocity_dot hunit bounce friction,
      fun hleaving => correctVelocity_of_leaving bounce friction (not_lt.mp hleaving),
      correctVelocity_again hunit hb friction bounce friction, bounceVelocity_eq velocity normal bounce⟩
  · intro w before o o₁ o₂ l l₁ l₂ hlossy hswept hdirect
    have hmeets : MeetsAll o o₂ := (World.sweepMeshes_meets hswept).trans (World.foldlM_mesh_meets hdirect)
    exact ⟨hmeets, hmeets.speed_le hlossy⟩

/-- The dart on its way through the wall, with a bounce and all the friction that is allowed. -/
noncomputable def hurledDart : DynamicObject ℝ :=
  { dart with velocity := ⟨2, 0, -1⟩, type := { dart.type with bounce := 1 / 2, friction := 2 } }

theorem hurledDart_lossy : hurledDart.type.Lossy := by
  constructor <;> norm_num [hurledDart]

/-- The velocity of something that falls and drifts sideways. -/
noncomputable def falling : Vec3 ℝ := ⟨1, -2, 0⟩

/-- A fall is thrown back at half its speed. The dart is not faster after it was walked through the wall and pushed
out of it, nor after any one push. -/
theorem hurledDart_slows :
    (correctVelocity falling Vec3.unitY (1 / 2) (1 / 4)).dot Vec3.unitY = -(1 / 2) * -2 ∧
      (correctVelocity falling Vec3.unitY (1 / 2) (1 / 4)).length ≤ falling.length ∧
      hurledDart.type.Lossy ∧ ∃ m : Mesh ℝ,
        Mesh.build #[thinWall.a, thinWall.b, thinWall.c] Mesh.singleTriangle = .ok m ∧
        (triangle m (putBack hurledDart 0) 0 ⟨.ofCapacity 1, #[]⟩).1.velocity.length ≤
          hurledDart.velocity.length ∧
        ∃ (w : World ℝ) (o₁ o₂ : DynamicObject ℝ) (l₁ l₂ : Ledger ℝ), w.staticMeshes = [m] ∧
          w.sweepMeshes hurledDart ⟨⟨-1, 0, 0⟩, false⟩ ⟨.ofCapacity 1, #[]⟩ = .ok (o₁, l₁) ∧
          w.staticMeshes.foldlM (fun (o, l) m => mesh m o l) (o₁, l₁) = .ok (o₂, l₂) ∧
          o₂.velocity.length ≤ hurledDart.velocity.length := by
  obtain ⟨hcontact, hsequence, htick⟩ := contacts_add_no_speed
  have hunit : (Vec3.unitY : Vec3 ℝ).dot Vec3.unitY = 1 := by simp [Vec3.unitY, Vec3.dot_def]
  have hinto : falling.dot Vec3.unitY = -2 := by simp [falling, Vec3.unitY, Vec3.dot_def]
  obtain ⟨hlength, hdot, -⟩ := hcontact falling Vec3.unitY (1 / 2) (1 / 4) hunit (by norm_num) (by norm_num)
    (by norm_num) (by norm_num)
  obtain ⟨m, hbuild, -⟩ := Mesh.exists_build_single thinWall
  let w : World ℝ := { World.new Config.standard with meshes := [(⟨0⟩, m)] }
  have hwalkable : ∀ m' ∈ w.staticMeshes, m'.Walkable :=
    List.forall_mem_singleton.mpr (Mesh.walkable_of_build hbuild)
  obtain ⟨⟨o₁, l₁⟩, hswept⟩ := World.exists_sweepMeshes_eq_ok hwalkable hurledDart ⟨⟨-1, 0, 0⟩, false⟩
    ⟨.ofCapacity 1, #[]⟩
  obtain ⟨⟨o₂, l₂⟩, hdirect⟩ := exists_foldlM_eq_ok
    (f := fun (s : DynamicObject ℝ × Ledger ℝ) m => mesh m s.1 s.2)
    (fun m hm s => exists_mesh_eq_ok (hwalkable m hm) s.1 s.2) (o₁, l₁)
  rw [hinto] at hdot
  refine ⟨hdot (by norm_num), hlength, hurledDart_lossy, m, hbuild, ?_, w, o₁, o₂, l₁, l₂, rfl, hswept, hdirect,
    (htick w _ _ o₁ o₂ _ l₁ l₂ hurledDart_lossy hswept hdirect).2⟩
  exact hsequence _ _ hurledDart_lossy (.tail (.single (.putBack hurledDart 0)) (.pushed m _ 0 _))

end ConvexCollision
