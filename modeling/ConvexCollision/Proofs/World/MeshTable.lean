import ConvexCollision.Proofs.Order
import ConvexCollision.Proofs.World.Carried
import ConvexCollision.Proofs.World.Dropped
import ConvexCollision.Proofs.World.Reset

/-!
# ConvexCollision.Proofs.World.MeshTable -- handles, static meshes and the kill plane in every run

What a request does to the table of static meshes depends on that table and on the next number alone
(`Table.after`): adding puts a mesh at the end, under a number that was never given before, taking out
removes one place, and nothing else but a reset touches it (`table_after`). Meshes and handles in two lists
of their own, each with its own places, would go the same way (`shelf_afterAll`). The rest is an induction on
the requests of a run. A mesh stands in the table exactly as long as nobody took it out and nobody reset the
world (`mem_meshes_iff_loaded`), the handles that were given out are numbered in their order (`issued_eq`),
and the kill plane is kept at the lowest point of the meshes in the table (`Planed`).
-/

namespace ConvexCollision

variable {α : Type} [Scalar α]

namespace World

/-! ## §A What a run gives out -/

/-- The handles of the static meshes, in the order of these. -/
def handles (w : World α) : List MeshHandle := w.meshes.map (·.1)

/-- The handle that a reply gives out. -/
def Reply.handle? : Reply α → Option MeshHandle
  | handle (.ok h) => some h
  | _ => none

/-- The handles that come back when a world goes through some requests. -/
def issued (w : World α) : List (Request α) → List MeshHandle
  | [] => []
  | r :: rs => (w.reply r).handle?.toList ++ issued (w.after r) rs

/-- The request takes out the mesh of a handle, whatever it is asked for. -/
def Request.Unloads (handle : MeshHandle) : Request α → Prop
  | removeMesh h => h = handle
  | reset => True
  | _ => False

/-- The request neither adds a mesh nor takes any out. -/
def Request.LeavesMeshes : Request α → Prop
  | addMesh _ | removeMesh _ | reset => False
  | _ => True

/-- The handle was given for the mesh, and since then nothing has taken that mesh out. -/
def Loaded (config : Config α) (rs : List (Request α)) (handle : MeshHandle) (m : Mesh α) : Prop :=
  ∃ past later, rs = past ++ Request.addMesh m :: later ∧
    (((World.new config).afterAll past).reply (.addMesh m)).handle? = some handle ∧
    ∀ r ∈ later, ¬ r.Unloads handle

/-! ## §B One request -/

/-- The static meshes of a world, and the number of its next handle. -/
structure Table (α : Type) [Scalar α] where
  /-- The meshes with their handles. -/
  meshes : List (MeshHandle × Mesh α)
  /-- The number of the next handle. -/
  next : Nat

/-- What a request makes of a table. -/
def Table.after (t : Table α) : Request α → Table α
  | .addMesh m =>
    if t.meshes.length < maxStaticMeshes then ⟨t.meshes ++ [(⟨t.next⟩, m)], t.next + 1⟩ else t
  | .removeMesh handle => { t with meshes := t.meshes.eraseP fun e => e.1 == handle }
  | .reset => { t with meshes := [] }
  | _ => t

/-- The table of a world. -/
def table (w : World α) : Table α := ⟨w.meshes, w.nextHandle⟩

/-- The kill plane is a margin below the lowest point of the meshes in the table. -/
def Planed (config : Config α) (w : World α) : Prop :=
  w.config = config ∧
    w.killPlane = (lowestPoint? w.staticMeshes).map (· - config.killPlaneMargin)

/-- What belongs to the static meshes: the tunables, the table and the kill plane. -/
def statics (w : World α) : Config α × Table α × Option α := (w.config, w.table, w.killPlane)

variable {w w' : World α} {config : Config α} {handle : MeshHandle} {m : Mesh α}

theorem removeElement_statics {id : EntityId} {taken? : Option (Element α)}
    (h : w.removeElement id = .ok (taken?, w')) : w'.statics = w.statics := by
  rcases removeElement_cases h with ⟨-, -, rfl⟩ | ⟨i, e, registry, -, -, -, rfl⟩
  · rfl
  · rfl

theorem removeAll_statics {ids : List EntityId} (h : w.removeAll ids = .ok w') :
    w'.statics = w.statics := by
  refine rel_of_foldlM_eq_ok (R := fun w w' : World α => w'.statics = w.statics) (fun _ => rfl)
    (fun _ _ _ hab hbc => hbc.trans hab) ?_ h
  intro v v' id hdrop
  obtain ⟨taken?, hremove⟩ := exists_of_dropElement hdrop
  exact removeElement_statics hremove

/-- A tick leaves everything alone that belongs to the static meshes. -/
theorem collide_statics {outcome : Outcome α} (h : w.collide = .ok outcome) :
    outcome.world.statics = w.statics := by
  obtain ⟨elements, l, -, hremove⟩ := exists_settled_of_collide h
  exact removeAll_statics (w := { w.start.1 with elements, pool := l.pool }) hremove

/-- Every other request leaves everything alone that belongs to the static meshes. -/
theorem after_statics {r : Request α} (h : r.LeavesMeshes) : (w.after r).statics = w.statics := by
  rcases w.after_cases r with hgranted | hsame
  · generalize w.after r = w' at hgranted ⊢
    cases hgranted with
    | addObject => rfl
    | addTrigger => rfl
    | removeObject removed => exact removeElement_statics removed
    | removeTrigger removed => exact removeElement_statics removed
    | addMesh => exact h.elim
    | removeMesh => exact h.elim
    | reset => exact h.elim
    | collide ends => exact collide_statics ends
    | modifyObject => rfl
    | modifyTrigger => rfl
  · rw [hsame]

/-- Adding puts a mesh at the end, while there is room. -/
theorem after_addMesh (w : World α) (m : Mesh α) : w.after (.addMesh m) =
    if w.meshes.length < maxStaticMeshes then
      ({ w with meshes := w.meshes ++ [(⟨w.nextHandle⟩, m)],
                nextHandle := w.nextHandle + 1 } : World α).updateKillPlane
    else w := by
  by_cases hroom : w.meshes.length < maxStaticMeshes
  · have hadd : w.addMesh m = .ok (_, ⟨w.nextHandle⟩) := if_pos hroom
    rw [after, answer, hadd, if_pos hroom]
    rfl
  · have hadd : w.addMesh m = .error .meshTableFull := if_neg hroom
    rw [after, answer, hadd, if_neg hroom]
    rfl

/-- It gives out the next number, while there is room. -/
theorem handle?_addMesh (w : World α) (m : Mesh α) : (w.reply (.addMesh m)).handle? =
    if w.meshes.length < maxStaticMeshes then some ⟨w.nextHandle⟩ else none := by
  show (Reply.handle ((w.addMesh m).map (·.2)) : Reply α).handle? = _
  unfold addMesh
  split <;> rfl

/-- Taking out takes one entry of the handle out, if there is one. -/
theorem after_removeMesh (w : World α) (handle : MeshHandle) : w.after (.removeMesh handle) =
    if handle ∈ w.handles then
      ({ w with meshes := w.meshes.eraseP fun e => e.1 == handle } : World α).updateKillPlane
    else w := by
  show (w.removeMesh handle).2 = _
  rcases w.removeMesh_cases handle with ⟨hstale, hremove⟩ | ⟨m, hloaded, hremove⟩
  · refine hremove ▸ (if_neg fun hmem => ?_).symm
    obtain ⟨e, he, heq⟩ := List.mem_map.mp hmem
    exact hstale e he heq
  · exact hremove ▸ (if_pos (List.mem_map_of_mem hloaded)).symm

/-- **A request does to the table what it does to any table**, whatever else there is in the world. -/
theorem table_after (w : World α) (r : Request α) : (w.after r).table = w.table.after r := by
  cases r with
  | addMesh m =>
    rw [after_addMesh]
    show _ = if w.meshes.length < maxStaticMeshes then _ else _
    split <;> rfl
  | removeMesh handle =>
    rw [after_removeMesh]
    split
    · rfl
    · next hmem =>
      have hstays : w.meshes.eraseP (fun e => e.1 == handle) = w.meshes := by
        refine List.eraseP_of_forall_not fun e he heq => hmem ?_
        exact beq_iff_eq.mp heq ▸ List.mem_map_of_mem he
      show w.table = ⟨w.meshes.eraseP fun e => e.1 == handle, w.nextHandle⟩
      rw [hstays]
      rfl
  | reset => rfl
  | _ =>
    refine congrArg (fun s => s.2.1) (after_statics (w := w) ?_)
    trivial

/-- Meshes and handles in two lists side by side, and the number of the next handle. -/
structure Shelf (α : Type) [Scalar α] where
  /-- The meshes. -/
  meshes : List (Mesh α)
  /-- The handles. -/
  handles : List MeshHandle
  /-- The number of the next handle. -/
  next : Nat

/-- What a request makes of the two lists. Nothing when it takes from a place that one of them does not
have. -/
def Shelf.after (s : Shelf α) : Request α → Option (Shelf α)
  | .addMesh m =>
    some (if s.meshes.length < maxStaticMeshes then
      ⟨s.meshes ++ [m], s.handles ++ [⟨s.next⟩], s.next + 1⟩ else s)
  | .removeMesh handle =>
    match s.handles.findIdx? (· == handle) with
    | none => some s
    | some i =>
      if i < s.meshes.length then some ⟨s.meshes.eraseIdx i, s.handles.eraseIdx i, s.next⟩ else none
  | .reset => some { s with meshes := [], handles := [] }
  | _ => some s

/-- A table taken apart. -/
def Table.shelf (t : Table α) : Shelf α := ⟨t.meshes.map (·.2), t.meshes.map (·.1), t.next⟩

theorem Table.shelf_after (t : Table α) (r : Request α) : t.shelf.after r = some (t.after r).shelf := by
  cases r with
  | addMesh m =>
    show some (if (t.meshes.map (·.2)).length < _ then _ else _) =
      some (Table.shelf (if t.meshes.length < _ then _ else _))
    rw [List.length_map]
    split
    · simp [Table.shelf]
    · rfl
  | removeMesh handle =>
    have herase := @List.eraseP_eq_eraseIdx _ t.meshes fun e => e.1 == handle
    show (match (t.meshes.map (·.1)).findIdx? (· == handle) with
      | none => some t.shelf
      | some i => if i < (t.meshes.map (·.2)).length then
          some ⟨(t.meshes.map (·.2)).eraseIdx i, (t.meshes.map (·.1)).eraseIdx i, t.next⟩ else none) =
      some (Table.shelf ⟨t.meshes.eraseP fun e => e.1 == handle, t.next⟩)
    rw [List.findIdx?_map]
    cases hfind : t.meshes.findIdx? fun e => e.1 == handle with
    | none =>
      rw [show List.findIdx? ((· == handle) ∘ (·.1)) t.meshes = none from hfind, herase, hfind]
    | some i =>
      have hlt : i < (t.meshes.map (·.2)).length := by
        rw [List.length_map]
        exact (List.findIdx?_eq_some_iff_findIdx_eq.mp hfind).1
      rw [show List.findIdx? ((· == handle) ∘ (·.1)) t.meshes = some i from hfind, herase, hfind]
      show (if _ then _ else _) = _
      rw [if_pos hlt, List.eraseIdx_map, List.eraseIdx_map]
      rfl
  | reset => rfl
  | _ => rfl

/-- Two lists side by side go through every run without ever getting out of step. -/
theorem shelf_afterAll (w : World α) (rs : List (Request α)) :
    rs.foldlM Shelf.after w.table.shelf = some (w.afterAll rs).table.shelf := by
  induction rs generalizing w with
  | nil => rfl
  | cons r rs ih =>
    rw [List.foldlM_cons, Table.shelf_after, ← table_after]
    exact ih (w.after r)

/-- Every request keeps the kill plane where it belongs. -/
theorem Planed.after (h : Planed config w) (r : Request α) : Planed config (w.after r) := by
  have hupdate (v : World α) (hv : v.config = config) : Planed config v.updateKillPlane :=
    ⟨hv, hv ▸ rfl⟩
  have hother (hr : r.LeavesMeshes) : Planed config (w.after r) := by
    have hsame := after_statics (w := w) hr
    have hmeshes : (w.after r).staticMeshes = w.staticMeshes :=
      congrArg (fun s => s.2.1.meshes.map (·.2)) hsame
    refine ⟨(congrArg (·.1) hsame).trans h.1, ?_⟩
    rw [hmeshes, ← h.2]
    exact congrArg (·.2.2) hsame
  cases r with
  | addMesh m =>
    rw [after_addMesh]
    split
    · exact hupdate _ h.1
    · exact h
  | removeMesh handle =>
    rw [after_removeMesh]
    split
    · exact hupdate _ h.1
    · exact h
  | reset => exact ⟨h.1, rfl⟩
  | _ => exact hother trivial

/-! ## §C Whole runs -/

/-- Handles are numbered in order and below the next number. -/
structure Table.Numbered (t : Table α) : Prop where
  /-- There is no more than the table holds. -/
  length_le : t.meshes.length ≤ maxStaticMeshes
  /-- No two meshes have one handle. -/
  nodup : (t.meshes.map (·.1)).Nodup
  /-- Every number was given before. -/
  lt_next : ∀ e ∈ t.meshes, e.1.number < t.next

theorem Table.Numbered.after {t : Table α} (h : t.Numbered) (r : Request α) : (t.after r).Numbered := by
  cases r with
  | addMesh m =>
    show (if t.meshes.length < maxStaticMeshes then _ else t : Table α).Numbered
    split
    · next hroom =>
      refine ⟨?_, ?_, ?_⟩
      · rw [List.length_append]
        exact hroom
      · rw [List.map_append, List.nodup_append]
        refine ⟨h.nodup, List.nodup_singleton _, ?_⟩
        intro handle hmem last hlast
        obtain ⟨e, he, rfl⟩ := List.mem_map.mp hmem
        rw [List.mem_singleton.mp hlast]
        intro heq
        exact absurd (congrArg MeshHandle.number heq) (Nat.ne_of_lt (h.lt_next e he))
      · intro e he
        rcases List.mem_append.mp he with he | he
        · exact Nat.lt_succ_of_lt (h.lt_next e he)
        · rw [List.mem_singleton.mp he]
          exact Nat.lt_succ_self t.next
    · exact h
  | removeMesh handle =>
    have hsub : (t.meshes.eraseP fun e => e.1 == handle).Sublist t.meshes := List.eraseP_sublist
    exact ⟨hsub.length_le.trans h.length_le, h.nodup.sublist (hsub.map _),
      fun e he => h.lt_next e (hsub.subset he)⟩
  | reset => exact ⟨Nat.zero_le _, List.nodup_nil, fun e he => absurd he List.not_mem_nil⟩
  | _ => exact h

/-- The handle was given before, and no mesh stands under it any more. -/
structure Table.Gone (t : Table α) (handle : MeshHandle) : Prop where
  /-- Its number was given before. -/
  lt_next : handle.number < t.next
  /-- No mesh stands under it. -/
  ne : ∀ e ∈ t.meshes, e.1 ≠ handle

/-- Numbers that were given stay given. -/
theorem Table.lt_next_after {t : Table α} {n : Nat} (h : n < t.next) (r : Request α) :
    n < (t.after r).next := by
  cases r with
  | addMesh m =>
    show n < Table.next (if t.meshes.length < maxStaticMeshes then _ else t)
    split
    · exact Nat.lt_succ_of_lt h
    · exact h
  | _ => exact h

/-- What is gone stays gone, as numbers are not given twice. -/
theorem Table.Gone.after {t : Table α} (h : t.Gone handle) (r : Request α) : (t.after r).Gone handle := by
  refine ⟨Table.lt_next_after h.lt_next r, ?_⟩
  cases r with
  | addMesh m =>
    show ∀ e ∈ Table.meshes (if t.meshes.length < maxStaticMeshes then _ else t), _
    split
    · intro e he heq
      rcases List.mem_append.mp he with he | he
      · exact h.ne e he heq
      · rw [List.mem_singleton.mp he] at heq
        exact absurd (congrArg MeshHandle.number heq).symm (Nat.ne_of_lt h.lt_next)
    · exact h.ne
  | removeMesh handle' => exact fun e he => h.ne e (List.eraseP_sublist.subset he)
  | reset => exact fun e he => absurd he List.not_mem_nil
  | _ => exact h.ne

theorem issued_append_singleton (w : World α) (rs : List (Request α)) (r : Request α) :
    w.issued (rs ++ [r]) = w.issued rs ++ ((w.afterAll rs).reply r).handle?.toList := by
  induction rs generalizing w with
  | nil => exact List.append_nil _
  | cons r' rs ih =>
    show _ ++ issued (w.after r') (rs ++ [r]) = _ ++ issued (w.after r') rs ++ _
    rw [ih, List.append_assoc]
    rfl

/-- In every run, the handles that were given out are the numbers up to the next one, in their order. -/
theorem issued_eq (config : Config α) (rs : List (Request α)) :
    ((World.new config).issued rs).map MeshHandle.number =
      List.range ((World.new config).afterAll rs).nextHandle := by
  induction rs using List.reverseRecOn with
  | nil => rfl
  | append_singleton rs r ih =>
    have htable := congrArg Table.next (table_after ((World.new config).afterAll rs) r)
    rw [issued_append_singleton, afterAll_append_singleton, List.map_append, ih]
    refine Eq.trans ?_ (congrArg List.range htable).symm
    generalize (World.new config).afterAll rs = w
    cases r with
    | addMesh m =>
      rw [handle?_addMesh]
      show _ = List.range (Table.next (if w.meshes.length < maxStaticMeshes then _ else _))
      split
      · exact List.range_succ.symm
      · exact List.append_nil _
    | _ => exact List.append_nil _

/-- So many handles were given out. -/
theorem nextHandle_eq_length_issued (config : Config α) (rs : List (Request α)) :
    ((World.new config).afterAll rs).nextHandle = ((World.new config).issued rs).length := by
  rw [← List.length_map MeshHandle.number, issued_eq, List.length_range]

theorem afterAll_numbered (config : Config α) (rs : List (Request α)) :
    ((World.new config).afterAll rs).table.Numbered := by
  induction rs using List.reverseRecOn with
  | nil => exact ⟨Nat.zero_le _, List.nodup_nil, fun e he => absurd he List.not_mem_nil⟩
  | append_singleton rs r ih =>
    rw [afterAll_append_singleton, table_after]
    exact ih.after r

/-- **Handles fit in 32 bits** for as long as fewer meshes were added than 32 bits count. -/
theorem handles_fit (config : Config α) (rs : List (Request α))
    (hfew : ((World.new config).issued rs).length < UInt32.size) :
    ((World.new config).afterAll rs).nextHandle < UInt32.size ∧
      ∀ handle ∈ ((World.new config).afterAll rs).handles, handle.number < UInt32.size := by
  rw [← nextHandle_eq_length_issued] at hfew
  refine ⟨hfew, fun handle hmem => ?_⟩
  obtain ⟨e, he, rfl⟩ := List.mem_map.mp hmem
  exact Nat.lt_trans ((afterAll_numbered config rs).lt_next e he) hfew

theorem afterAll_planed (config : Config α) (rs : List (Request α)) :
    Planed config ((World.new config).afterAll rs) := by
  induction rs using List.reverseRecOn with
  | nil => exact ⟨rfl, rfl⟩
  | append_singleton rs r ih =>
    rw [afterAll_append_singleton]
    exact ih.after r

/-- A mesh is loaded after one more request when it was and the request does not take it out, or when the
request is the one that adds it. -/
theorem loaded_append_singleton {rs : List (Request α)} {r : Request α} :
    Loaded config (rs ++ [r]) handle m ↔ (Loaded config rs handle m ∧ ¬ r.Unloads handle) ∨
      (r = .addMesh m ∧ (((World.new config).afterAll rs).reply r).handle? = some handle) := by
  constructor
  · rintro ⟨past, later, heq, hgiven, hkept⟩
    rcases List.eq_nil_or_concat later with rfl | ⟨later, last, rfl⟩
    · obtain ⟨rfl, hr⟩ := List.append_inj' heq rfl
      cases hr
      exact .inr ⟨rfl, hgiven⟩
    · rw [List.concat_eq_append, ← List.cons_append, ← List.append_assoc] at heq
      obtain ⟨rfl, hr⟩ := List.append_inj' heq rfl
      cases hr
      rw [List.concat_eq_append] at hkept
      exact .inl ⟨⟨past, later, rfl, hgiven, fun r hr => hkept r (List.mem_append_left _ hr)⟩,
        hkept r (List.mem_append_right _ (List.mem_singleton_self r))⟩
  · rintro (⟨⟨past, later, rfl, hgiven, hkept⟩, hr⟩ | ⟨rfl, hgiven⟩)
    · refine ⟨past, later ++ [r], by rw [List.append_assoc, List.cons_append], hgiven, ?_⟩
      intro r' hr'
      rcases List.mem_append.mp hr' with hr' | hr'
      · exact hkept r' hr'
      · exact List.mem_singleton.mp hr' ▸ hr
    · exact ⟨rs, [], rfl, hgiven, fun r hr => absurd hr List.not_mem_nil⟩

/-- Taking the entry of a handle out of a table leaves the others. -/
theorem mem_eraseP_iff {entries : List (MeshHandle × Mesh α)} (h : (entries.map (·.1)).Nodup)
    {e : MeshHandle × Mesh α} :
    e ∈ entries.eraseP (fun e => e.1 == handle) ↔ e ∈ entries ∧ e.1 ≠ handle := by
  induction entries with
  | nil => simp
  | cons first rest ih =>
    rw [List.map_cons, List.nodup_cons] at h
    by_cases hfirst : first.1 = handle
    · rw [List.eraseP_cons_of_pos (by simpa using hfirst), List.mem_cons]
      constructor
      · intro he
        refine ⟨.inr he, fun heq => h.1 ?_⟩
        rw [hfirst, ← heq]
        exact List.mem_map_of_mem he
      · rintro ⟨rfl | he, hne⟩
        · exact absurd hfirst hne
        · exact he
    · rw [List.eraseP_cons_of_neg (by simpa using hfirst), List.mem_cons, List.mem_cons, ih h.2]
      constructor
      · rintro (rfl | ⟨he, hne⟩)
        · exact ⟨.inl rfl, hfirst⟩
        · exact ⟨.inr he, hne⟩
      · rintro ⟨rfl | he, hne⟩
        · exact .inl rfl
        · exact .inr ⟨he, hne⟩

/-- **The table holds what is loaded.** In every run, a mesh stands in the table under a handle exactly when
the handle was given for it and nothing has taken it out since. -/
theorem mem_meshes_iff_loaded (config : Config α) (rs : List (Request α)) :
    (handle, m) ∈ ((World.new config).afterAll rs).meshes ↔ Loaded config rs handle m := by
  induction rs using List.reverseRecOn with
  | nil =>
    refine ⟨fun h => absurd h List.not_mem_nil, ?_⟩
    rintro ⟨past, later, heq, -⟩
    exact absurd heq.symm (List.append_ne_nil_of_right_ne_nil past (List.cons_ne_nil _ later))
  | append_singleton rs r ih =>
    have htable := congrArg Table.meshes (table_after ((World.new config).afterAll rs) r)
    have hnodup : ((World.new config).afterAll rs).handles.Nodup := (afterAll_numbered config rs).nodup
    rw [loaded_append_singleton, ← ih, afterAll_append_singleton]
    rw [show (((World.new config).afterAll rs).after r).meshes = _ from htable]
    generalize (World.new config).afterAll rs = w at hnodup ⊢
    cases r with
    | addMesh m' =>
      rw [handle?_addMesh]
      show (handle, m) ∈ Table.meshes (if w.meshes.length < maxStaticMeshes then _ else _) ↔ _
      split
      · simp only [table, List.mem_append, List.mem_singleton, Prod.mk.injEq, Request.Unloads,
          not_false_eq_true, and_true, Request.addMesh.injEq, Option.some.injEq]
        exact or_congr_right ⟨fun h => ⟨h.2.symm, h.1.symm⟩, fun h => ⟨h.2.symm, h.1.symm⟩⟩
      · simp [table, Request.Unloads]
    | removeMesh handle' =>
      show _ ∈ w.meshes.eraseP _ ↔ _
      rw [mem_eraseP_iff hnodup]
      simp [Request.Unloads, eq_comm]
    | reset => simp [Table.after, Request.Unloads]
    | _ => simp [Table.after, table, Request.Unloads]

/-! ## §D Taking out -/

/-- What a request takes out is gone. -/
theorem Table.Numbered.gone_after {t : Table α} (h : t.Numbered) (hlt : handle.number < t.next)
    {r : Request α} (hr : r.Unloads handle) : (t.after r).Gone handle := by
  refine ⟨Table.lt_next_after hlt r, ?_⟩
  cases r with
  | removeMesh handle' =>
    obtain rfl : handle' = handle := hr
    exact fun e he => ((mem_eraseP_iff h.nodup).mp he).2
  | reset => exact fun e he => absurd he List.not_mem_nil
  | _ => exact hr.elim

theorem table_afterAll (w : World α) (rs : List (Request α)) :
    (w.afterAll rs).table = rs.foldl Table.after w.table := by
  induction rs generalizing w with
  | nil => rfl
  | cons r rs ih =>
    show ((w.after r).afterAll rs).table = rs.foldl Table.after (w.table.after r)
    rw [ih, table_after]

/-- A handle whose mesh was taken out stands for nothing, whatever was asked since. -/
theorem gone_of_unloads {past later : List (Request α)}
    (hgiven : (((World.new config).afterAll past).reply (.addMesh m)).handle? = some handle)
    (hunloads : ∃ r ∈ later, r.Unloads handle) :
    ((World.new config).afterAll (past ++ .addMesh m :: later)).table.Gone handle := by
  obtain ⟨r, hr, hunloads⟩ := hunloads
  obtain ⟨before, rest, rfl⟩ := List.append_of_mem hr
  have hsplit : past ++ Request.addMesh m :: (before ++ r :: rest) =
      (past ++ Request.addMesh m :: before) ++ r :: rest := by
    rw [List.append_assoc, List.cons_append]
  -- when it is taken out, the handle has been given
  have hlt : handle.number < ((World.new config).afterAll (past ++ .addMesh m :: before)).table.next := by
    have hnumbered := afterAll_numbered config past
    rw [table_afterAll, List.foldl_append, ← table_afterAll, List.foldl_cons]
    rw [handle?_addMesh] at hgiven
    generalize (World.new config).afterAll past = w at hgiven hnumbered
    split at hgiven
    · next hroom =>
      cases hgiven
      have hfirst : w.nextHandle < (w.table.after (.addMesh m)).next := by
        show w.nextHandle < Table.next (if w.meshes.length < maxStaticMeshes then _ else _)
        rw [if_pos hroom]
        exact Nat.lt_succ_self w.nextHandle
      exact inv_foldl (fun _ t => w.nextHandle < Table.next t)
        (fun r _ _ h => Table.lt_next_after h r) hfirst
    · cases hgiven
  have hgone := (afterAll_numbered config (past ++ .addMesh m :: before)).gone_after hlt hunloads
  rw [hsplit, table_afterAll, List.foldl_append, ← table_afterAll, List.foldl_cons]
  exact inv_foldl (fun _ t => Table.Gone t handle) (fun r _ _ h => h.after r) hgone

/-- A handle in the table takes out the mesh at its place, from both lists at once. -/
theorem removeMesh_of_mem (hnodup : w.handles.Nodup) (hmem : (handle, m) ∈ w.meshes) :
    ∃ i w', w.removeMesh handle = (some m, w') ∧ w.handles[i]? = some handle ∧
      w.staticMeshes[i]? = some m ∧ w'.handles = w.handles.eraseIdx i ∧
      w'.staticMeshes = w.staticMeshes.eraseIdx i ∧
      w' = { w with meshes := w'.meshes, killPlane := w'.killPlane } := by
  obtain ⟨front, back, hsplit⟩ := List.append_of_mem hmem
  -- no earlier place has that handle
  have hfront : ∀ e ∈ front, ¬(e.1 == handle) = true := by
    intro e he heq
    unfold handles at hnodup
    rw [hsplit, List.map_append, List.nodup_append] at hnodup
    exact hnodup.2.2 e.1 (List.mem_map_of_mem he) handle (List.mem_map_of_mem List.mem_cons_self)
      (beq_iff_eq.mp heq)
  have hfind : w.meshes.find? (fun e => e.1 == handle) = some (handle, m) := by
    rw [hsplit, List.find?_append, List.find?_eq_none.mpr hfront, Option.none_or,
      List.find?_cons_of_pos (by simp)]
  have herase : w.meshes.eraseP (fun e => e.1 == handle) = front ++ back := by
    rw [hsplit, List.eraseP_append_right _ hfront, List.eraseP_cons_of_pos (by simp)]
  refine ⟨front.length, ({ w with meshes := front ++ back } : World α).updateKillPlane, ?_, ?_, ?_, ?_, ?_,
    rfl⟩
  · unfold removeMesh
    rw [hfind, herase]
  · simp [handles, hsplit]
  · simp [staticMeshes, hsplit]
  · simp [handles, updateKillPlane, hsplit, List.eraseIdx_append_of_length_le]
  · simp [staticMeshes, updateKillPlane, hsplit, List.eraseIdx_append_of_length_le]

/-- A handle that is not in the table takes nothing out and changes nothing. -/
theorem removeMesh_of_not_mem (h : ∀ m, (handle, m) ∉ w.meshes) : w.removeMesh handle = (none, w) := by
  rcases w.removeMesh_cases handle with ⟨-, hremove⟩ | ⟨m, hloaded, -⟩
  · exact hremove
  · exact absurd hloaded (h m)

theorem Reply.handle?_eq_some_iff {r : Reply α} : r.handle? = some handle ↔ r = .handle (.ok handle) := by
  constructor
  · intro h
    unfold Reply.handle? at h
    split at h
    · cases h
      rfl
    · cases h
  · rintro rfl
    rfl

/-! ## §E The kill plane -/

/-- The smaller of two defined numbers belongs to one of the two, and is not above either. -/
theorem exists_minNum_eq [Scalar.Ordered α] {β : Type} (key : β → α) {first second : β}
    (hfirst : key first ≤ key first) (hsecond : key second ≤ key second) :
    ∃ low, (low = first ∨ low = second) ∧ Scalar.minNum (key first) (key second) = key low ∧
      key low ≤ key first ∧ key low ≤ key second := by
  have hleft := Scalar.minNum_le_left hfirst hsecond
  have hright := Scalar.minNum_le_right hfirst hsecond
  rw [Scalar.minNum_eq hfirst hsecond] at hleft hright ⊢
  split at hleft
  · next hlt =>
    rw [if_pos hlt] at hright
    exact ⟨first, .inl rfl, if_pos hlt, hleft, hright⟩
  · next hlt =>
    rw [if_neg hlt] at hright
    exact ⟨second, .inr rfl, if_neg hlt, hleft, hright⟩

/-- Of numbers that are defined, taking the smaller one again and again finds one that is not above any. -/
theorem foldl_minNum [Scalar.Ordered α] {β : Type} (key : β → α) (l : List β) (first : β)
    (hdefined : ∀ x ∈ first :: l, key x ≤ key x) :
    ∃ x ∈ first :: l, l.foldl (fun low y => Scalar.minNum low (key y)) (key first) = key x ∧
      ∀ y ∈ first :: l, key x ≤ key y := by
  induction l generalizing first with
  | nil =>
    refine ⟨first, List.mem_cons_self, rfl, fun y hy => ?_⟩
    rw [List.mem_singleton.mp hy]
    exact hdefined first List.mem_cons_self
  | cons second l ih =>
    have hfirst := hdefined first List.mem_cons_self
    have hsecond := hdefined second (List.mem_cons_of_mem _ List.mem_cons_self)
    have hrest : ∀ x ∈ l, key x ≤ key x := fun x hx =>
      hdefined x (List.mem_cons_of_mem _ (List.mem_cons_of_mem _ hx))
    -- the smaller of the first two stands for both of them
    obtain ⟨low, hlow, hmin, hle⟩ := exists_minNum_eq key hfirst hsecond
    have hlowdefined : ∀ x ∈ low :: l, key x ≤ key x :=
      List.forall_mem_cons.mpr ⟨Scalar.Ordered.defined_left hle.1, hrest⟩
    obtain ⟨x, hx, hfold, hleast⟩ := ih low hlowdefined
    refine ⟨x, ?_, ?_, ?_⟩
    · rcases List.mem_cons.mp hx with rfl | hx
      · rcases hlow with rfl | rfl
        · exact List.mem_cons_self
        · exact List.mem_cons_of_mem _ List.mem_cons_self
      · exact List.mem_cons_of_mem _ (List.mem_cons_of_mem _ hx)
    · rw [List.foldl_cons, hmin, hfold]
    · have hxlow := hleast low List.mem_cons_self
      exact List.forall_mem_cons.mpr ⟨Scalar.Ordered.le_trans hxlow hle.1,
        List.forall_mem_cons.mpr ⟨Scalar.Ordered.le_trans hxlow hle.2,
          fun y hy => hleast y (List.mem_cons_of_mem _ hy)⟩⟩

/-- Of meshes whose lowest points are defined, one lies at least as low as all of them. -/
theorem exists_lowestPoint? [Scalar.Ordered α] {meshes : List (Mesh α)} (hne : meshes ≠ [])
    (hdefined : ∀ m ∈ meshes, m.lowestPoint ≤ m.lowestPoint) :
    ∃ m ∈ meshes, lowestPoint? meshes = some m.lowestPoint ∧
      ∀ m' ∈ meshes, m.lowestPoint ≤ m'.lowestPoint := by
  cases meshes with
  | nil => exact absurd rfl hne
  | cons first rest =>
    obtain ⟨m, hm, hfold, hleast⟩ := foldl_minNum (fun m : Mesh α => m.lowestPoint) rest first hdefined
    exact ⟨m, hm, congrArg some hfold, hleast⟩

/-! ## §F The static meshes in every run -/

/-- **The table of static meshes is exact.** Take any requests, one after another. Meshes and handles kept in
two lists side by side stay in step, and no more meshes are loaded than there are places. The handle that came
back for a mesh takes out that mesh and its handle from one place, and nothing else, if nothing took it out
since; otherwise it takes nothing out and nothing changes. No handle was given twice, and with as many handles
all numbers are below that count. The kill plane is a margin below the lowest of the lowest points of the
loaded meshes, when these are defined, and there is none without a mesh. -/
theorem static_meshes_exact [Scalar.Ordered α] (config : Config α) (rs : List (Request α)) :
    let w := (World.new config).afterAll rs
    let issued := (World.new config).issued rs
    (rs.foldlM Shelf.after ⟨[], [], 0⟩ = some ⟨w.staticMeshes, w.handles, w.nextHandle⟩ ∧
      w.handles.length = w.staticMeshes.length ∧ w.staticMeshes.length ≤ maxStaticMeshes) ∧
    (∀ past m later handle, rs = past ++ .addMesh m :: later →
      ((World.new config).afterAll past).reply (.addMesh m) = .handle (.ok handle) →
      ((∀ r ∈ later, ¬ r.Unloads handle) →
        ∃ i w', w.removeMesh handle = (some m, w') ∧ w.handles[i]? = some handle ∧
          w.staticMeshes[i]? = some m ∧ w'.handles = w.handles.eraseIdx i ∧
          w'.staticMeshes = w.staticMeshes.eraseIdx i ∧
          w' = { w with meshes := w'.meshes, killPlane := w'.killPlane }) ∧
      ((∃ r ∈ later, r.Unloads handle) → w.removeMesh handle = (none, w))) ∧
    (issued.Nodup ∧ (∀ handle ∈ issued, handle.number < issued.length) ∧ w.nextHandle = issued.length) ∧
    (w.staticMeshes = [] → w.killPlane = none) ∧
    (w.staticMeshes ≠ [] → (∀ m ∈ w.staticMeshes, m.lowestPoint ≤ m.lowestPoint) →
      ∃ m ∈ w.staticMeshes, w.killPlane = some (m.lowestPoint - config.killPlaneMargin) ∧
        ∀ m' ∈ w.staticMeshes, m.lowestPoint ≤ m'.lowestPoint) := by
  intro w issued
  have hnumbered : w.table.Numbered := afterAll_numbered config rs
  have hplane := (afterAll_planed config rs).2
  have hnumbers : issued.map MeshHandle.number = List.range w.nextHandle := issued_eq config rs
  have hnext : w.nextHandle = issued.length := nextHandle_eq_length_issued config rs
  refine ⟨⟨shelf_afterAll (World.new config) rs, ?_, ?_⟩, ?_, ⟨?_, ?_, hnext⟩, ?_, ?_⟩
  · unfold handles staticMeshes
    rw [List.length_map, List.length_map]
  · unfold staticMeshes
    rw [List.length_map]
    exact hnumbered.length_le
  · intro past m later handle hrs hreply
    have hgiven := Reply.handle?_eq_some_iff.mpr hreply
    constructor
    · intro hkept
      exact removeMesh_of_mem hnumbered.nodup
        ((mem_meshes_iff_loaded config rs).mpr ⟨past, later, hrs, hgiven, hkept⟩)
    · intro hunloads
      have hgone : w.table.Gone handle := by
        show ((World.new config).afterAll rs).table.Gone handle
        rw [hrs]
        exact gone_of_unloads hgiven hunloads
      exact removeMesh_of_not_mem fun m' hmem => hgone.ne _ hmem rfl
  · exact List.Nodup.of_map _ (hnumbers ▸ List.nodup_range)
  · intro handle hmem
    have hnumber := List.mem_map_of_mem (f := MeshHandle.number) hmem
    rw [hnumbers] at hnumber
    exact hnext ▸ List.mem_range.mp hnumber
  · intro hnone
    rw [show w.killPlane = _ from hplane, show ((World.new config).afterAll rs).staticMeshes = [] from hnone]
    rfl
  · intro hne hdefined
    obtain ⟨m, hm, hlowest, hleast⟩ := exists_lowestPoint? hne hdefined
    refine ⟨m, hm, ?_, hleast⟩
    rw [show w.killPlane = _ from hplane, show lowestPoint? _ = _ from hlowest]
    rfl

/-- A floor is added, the same floor under another handle, and the first one is taken out. -/
def floorAgain : List (Request Float32) :=
  [.addMesh floorMesh, .addMesh floorMesh, .removeMesh ⟨0⟩]

/-- The second floor is still there under its own handle, the first handle takes nothing out any more, and
the kill plane lies below the floor that is left. -/
theorem floorAgain_static_meshes :
    let w := (World.new threeContacts).afterAll floorAgain
    (∃ w', w.removeMesh ⟨1⟩ = (some floorMesh, w')) ∧ w.removeMesh ⟨0⟩ = (none, w) ∧
      w.killPlane = some (floorMesh.lowestPoint - threeContacts.killPlaneMargin) := by
  intro w
  have hleft : w.staticMeshes = [floorMesh] := rfl
  have hlowest : floorMesh.lowestPoint ≤ floorMesh.lowestPoint := by decide +kernel
  obtain ⟨-, htaken, -, -, hplane⟩ := static_meshes_exact threeContacts floorAgain
  obtain ⟨hkept, -⟩ := htaken [.addMesh floorMesh] floorMesh [.removeMesh ⟨0⟩] ⟨1⟩ rfl rfl
  obtain ⟨-, hgone⟩ := htaken [] floorMesh [.addMesh floorMesh, .removeMesh ⟨0⟩] ⟨0⟩ rfl rfl
  obtain ⟨i, w', hremove, -⟩ := hkept fun r hr hunloads => by
    rw [List.mem_singleton.mp hr] at hunloads
    exact absurd hunloads (show ¬(⟨0⟩ : MeshHandle) = ⟨1⟩ by decide)
  obtain ⟨m, hm, hkill, -⟩ := hplane (hleft ▸ List.cons_ne_nil _ _) fun m hm => by
    rw [show ((World.new threeContacts).afterAll floorAgain).staticMeshes = [floorMesh] from hleft] at hm
    exact List.mem_singleton.mp hm ▸ hlowest
  rw [show ((World.new threeContacts).afterAll floorAgain).staticMeshes = [floorMesh] from hleft] at hm
  exact ⟨⟨w', hremove⟩, hgone ⟨.removeMesh ⟨0⟩, by simp, rfl⟩, List.mem_singleton.mp hm ▸ hkill⟩

end World

end ConvexCollision
