import ConvexCollision.Proofs.Mesh.Walkable
import ConvexCollision.Proofs.World.Elements

/-!
# ConvexCollision.Proofs.World.Ends -- a tick over walkable meshes comes to its end

The one thing that can interrupt a tick is a mesh whose tree cannot be walked, as long as the registry
is right. Every step that looks into meshes is taken in turn; what the geometry answers does not matter.
-/

namespace ConvexCollision

variable {α : Type} [Scalar α]

omit [Scalar α] in
/-- A step that meets no fault goes on in the middle of a tick. -/
theorem Ledger.guarding_eq_ok {β : Type} {step : Except Fault β} {result : β}
    (h : step = .ok result) (l : Ledger α) : l.guarding step = .ok result := by
  rw [h]
  rfl

namespace Resolve

variable {meshes : List (Mesh α)}

theorem exists_mesh_eq_ok {m : Mesh α} (h : m.Walkable) (o : DynamicObject α) (l : Ledger α) :
    ∃ result, mesh m o l = .ok result := by
  obtain ⟨found, hfound⟩ := h.lookup o.box o.layers
  unfold mesh
  rw [Ledger.guarding_eq_ok hfound]
  exact ⟨_, rfl⟩

theorem exists_earliestHit_eq_ok (h : ∀ m ∈ meshes, m.Walkable) (o : DynamicObject α)
    (motion : Vec3 α) (l : Ledger α) : ∃ result, earliestHit meshes o motion l = .ok result := by
  unfold earliestHit
  refine exists_foldlM_eq_ok ?_ _
  intro m hm state
  obtain ⟨found, hfound⟩ := (h m hm).visit (o.box.extendDirection (-motion)) o.layers
  rw [hfound]
  exact ⟨_, rfl⟩

theorem exists_walk_eq_ok (h : ∀ m ∈ meshes, m.Walkable) (limit left : Nat) (safe : Vec3 α)
    (o : DynamicObject α) (l : Ledger α) :
    ∃ result, walk meshes limit left safe o l = .ok result := by
  -- on the stops that are left; each turn looks for hits once
  induction left generalizing safe o l with
  | zero =>
    obtain ⟨⟨hit, l₁⟩, hhit⟩ := exists_earliestHit_eq_ok h o (o.position - safe) l
    unfold walk
    simp only [hhit]
    split
    · exact ⟨_, rfl⟩
    · cases hit <;> exact ⟨_, rfl⟩
  | succ left ih =>
    obtain ⟨⟨hit, l₁⟩, hhit⟩ := exists_earliestHit_eq_ok h o (o.position - safe) l
    unfold walk
    simp only [hhit]
    split
    · exact ⟨_, rfl⟩
    · cases hit with
      | none => exact ⟨_, rfl⟩
      | some hit => exact ih _ _ _

end Resolve

namespace World

variable {w : World α}

theorem exists_shadowCastOn_eq_ok {meshes : List (Mesh α)} (h : ∀ m ∈ meshes, m.Walkable)
    (point : Vec3 α) : ∃ hit, shadowCastOn meshes point = .ok hit := by
  choose! hit hhit using fun m hm => (h m hm).shadowCast point
  unfold shadowCastOn
  rw [mapM_eq_ok_map hhit]
  exact ⟨_, rfl⟩

theorem exists_sweepMeshes_eq_ok (h : ∀ m ∈ w.staticMeshes, m.Walkable) (o : DynamicObject α)
    (before : Before α) (l : Ledger α) : ∃ result, w.sweepMeshes o before l = .ok result := by
  unfold sweepMeshes
  split
  · exact Resolve.exists_walk_eq_ok h _ _ _ o l
  · exact ⟨_, rfl⟩

theorem exists_settle_eq_ok (h : ∀ m ∈ w.staticMeshes, m.Walkable) (o : DynamicObject α)
    (before : Before α) (l : Ledger α) : ∃ result, settle w o before l = .ok result := by
  obtain ⟨⟨o₀, l₀⟩, hswept⟩ := exists_sweepMeshes_eq_ok h o before l
  obtain ⟨⟨o₁, l₁⟩, hpushed⟩ := exists_foldlM_eq_ok
    (f := fun (s : DynamicObject α × Ledger α) m => Resolve.mesh m s.1 s.2)
    (fun m hm s => Resolve.exists_mesh_eq_ok (h m hm) s.1 s.2) (o₀, l₀)
  obtain ⟨ground, hground⟩ := exists_shadowCastOn_eq_ok h o₁.position
  unfold settle
  simp only [hswept, hpushed, Ledger.guarding_eq_ok hground, bind, Except.bind]
  split <;> exact ⟨_, rfl⟩

theorem exists_settleAt_eq_ok (h : ∀ m ∈ w.staticMeshes, m.Walkable) (befores : Array (Before α))
    (state : Array (Element α) × Ledger α × List EntityId) (i : Nat) :
    ∃ state', settleAt w befores state i = .ok state' := by
  obtain ⟨elements, l, fallen⟩ := state
  unfold settleAt
  simp only
  split
  · next o ho =>
    split
    · exact ⟨_, rfl⟩
    · obtain ⟨⟨o', fell, l'⟩, hsettle⟩ := exists_settle_eq_ok h o (befores.getD i default) l
      rw [hsettle]
      exact ⟨_, rfl⟩
  · exact ⟨_, rfl⟩

/-- **A tick ends.** With a right registry, and static meshes whose trees can be walked, nothing
interrupts a tick. -/
theorem Registered.exists_collide_eq_ok (hregistered : w.Registered)
    (h : ∀ m ∈ w.staticMeshes, m.Walkable) : ∃ outcome, w.collide = .ok outcome := by
  obtain ⟨⟨elements, l, fallen⟩, hsettled⟩ := exists_foldlM_eq_ok
    (f := settleAt w.start.1 w.start.2)
    (fun i _ state => exists_settleAt_eq_ok (w := w.start.1) h w.start.2 state i)
    ((resolvePairs w.start.2 w.start.1.elements ⟨w.start.1.pool, #[]⟩).1,
      (resolvePairs w.start.2 w.start.1.elements ⟨w.start.1.pool, #[]⟩).2, [])
    (l := List.range (resolvePairs w.start.2 w.start.1.elements ⟨w.start.1.pool, #[]⟩).1.size)
  have hbefore : ({ w.start.1 with elements, pool := l.pool } : World α).Registered :=
    hregistered.congr (start_ids w).2 (collide_ids hsettled)
  obtain ⟨w', hremoved, -⟩ := hbefore.removeAll fallen
  refine ⟨⟨w', fallen, l.journal⟩, ?_⟩
  unfold World.collide
  simp only [hsettled, bind, Except.bind]
  rw [Ledger.guarding_eq_ok hremoved]
  rfl

end World

end ConvexCollision
