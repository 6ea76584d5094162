import ConvexCollision.Proofs.Contact.Records
import ConvexCollision.World.Tick

/-!
# ConvexCollision.Proofs.World.Parts -- the parts of a tick, and what they write on the lists

Two objects that the broad phase pairs are resolved at most once, whichever way is taken, so that they
exchange at most one contact each (`resolveObjects_adds`). An object that is settled gets contacts
that name nobody, from the meshes or from the water under it, and its shadow (`settle_settles`).
Nothing here asks what the geometry answers.

What the start of a tick makes of the elements (`start_elements`) and what it does at a place when the
elements are settled (`settleAt_cases`) is said here once, for whatever is to be known of a tick, and so
is what taking an element out changes (`removeElement_cases`).
-/

namespace ConvexCollision.World

variable {α : Type} [Scalar α]

/-! ## §A The start -/

/-- At the start of a tick every element is started in its place, with some pool. -/
theorem start_elements (w : World α) :
    List.Forall₂ (fun e e' => ∃ pool, e' = (startElement w.config e pool).1) w.elements.toList
      w.start.1.elements.toList := by
  unfold start
  simp only [← Array.foldl_toList]
  refine inv_foldl_passed (fun passed (s : Array (Element α) × Array (Before α) × ContactPool α) =>
    List.Forall₂ (fun e e' => ∃ pool, e' = (startElement w.config e pool).1) passed s.1.toList) ?_ .nil
  intro passed e rest s _ hpassed
  simp only [Array.toList_push]
  exact List.rel_append hpassed (.cons ⟨s.2.2, rfl⟩ .nil)

/-- What holds of every element that is started holds of all elements at the start of a tick. -/
theorem forall_mem_start {p : Element α → Prop} (w : World α)
    (h : ∀ e pool, p (startElement w.config e pool).1) : ∀ e ∈ w.start.1.elements, p e := by
  intro e' he'
  obtain ⟨e, -, pool, rfl⟩ := exists_of_forall₂_of_mem (start_elements w) (Array.mem_toList_iff.mpr he')
  exact h e pool

/-! ## §B Pairs -/

/-- Two objects ignore each other, are put back to where they met on the way, or are tested where they are,
with no more than a report before that. -/
theorem resolveObjects_cases (a : DynamicObject α) (aBefore : Before α) (b : DynamicObject α)
    (bBefore : Before α) (l : Ledger α) :
    resolveObjects a aBefore b bBefore l = (a, b, l) ∨
    (a.isTrigger = false ∧ b.isTrigger = false ∧
      Resolve.objectsSwept a aBefore.position b bBefore.position l =
        (true, resolveObjects a aBefore b bBefore l)) ∨
    ∃ l', l.Reports l' ∧ resolveObjects a aBefore b bBefore l = Resolve.objects a b l' := by
  unfold resolveObjects
  split
  · exact .inl rfl
  simp only
  split
  · next hneither =>
    simp only [Bool.and_eq_true, Bool.not_eq_true'] at hneither
    rcases hswept : Resolve.objectsSwept a aBefore.position b bBefore.position l with ⟨met, a', b', l'⟩
    rcases Resolve.objectsSwept_cases hswept with ⟨rfl, rfl, rfl, hreports⟩ | ⟨rfl, -⟩
    · exact .inr (.inr ⟨l', hreports, rfl⟩)
    · exact .inr (.inl ⟨hneither.1.1, hneither.1.2, rfl⟩)
  · exact .inr (.inr ⟨l, Ledger.Reports.refl l, rfl⟩)

/-- Two objects exchange at most one contact each, whichever way they are resolved. -/
theorem resolveObjects_adds (a : DynamicObject α) (aBefore : Before α) (b : DynamicObject α)
    (bBefore : Before α) (l : Ledger α) :
    AddsPair a b l (resolveObjects a aBefore b bBefore l).1 (resolveObjects a aBefore b bBefore l).2.1
      (resolveObjects a aBefore b bBefore l).2.2 := by
  rcases resolveObjects_cases a aBefore b bBefore l with hsame | ⟨-, -, hswept⟩ | ⟨l', hreports, htested⟩
  · rw [hsame]
    exact AddsPair.refl a b l
  · exact Resolve.objectsSwept_adds hswept
  · rw [htested]
    exact AddsPair.of_tag rfl rfl hreports (Resolve.objects_adds a b l')

/-! ## §C Settling -/

theorem tag_snapToGround (o : DynamicObject α) (previous : Vec3 α) (pool : ContactPool α)
    (config : Config α) : (snapToGround o previous pool config).tag = o.tag := by
  unfold snapToGround
  split
  · rfl
  simp only
  split
  · rfl
  split
  · rfl
  split <;> rfl

theorem tag_catchFalling {o o' : DynamicObject α} {plane : Option α}
    (h : catchFalling? o plane = some o') : o'.tag = o.tag := by
  unfold catchFalling? at h
  split at h
  · cases h
  · cases h
    rfl

theorem sweepMeshes_adds {w : World α} {o o' : DynamicObject α} {before : Before α}
    {l l' : Ledger α} (h : w.sweepMeshes o before l = .ok (o', l')) : Adds o l o' l' := by
  unfold sweepMeshes at h
  split at h
  · exact Resolve.meshesSwept_adds h
  · cases h
    exact Adds.refl _ _

/-- A step with an object that may change its shadow as well. What it puts in front of the object's
list names nobody. -/
structure Settles (o : DynamicObject α) (l : Ledger α) (o' : DynamicObject α) (l' : Ledger α) :
    Prop where
  /-- A dropped contact stays on the journal. -/
  exhausted : l.Exhausted → l'.Exhausted
  /-- The list grows at its front, and the shadow is held alone. -/
  booked : ∀ {n cs books loose},
    l.pool.Booked n ((o.activeContacts, cs) :: books) (o.shadowContact.toList ++ loose) →
    ∃ added : List (Contact α), (∀ c ∈ added, c.other = EntityId.none) ∧
      l'.pool.Booked n ((o'.activeContacts, added ++ cs) :: books) (o'.shadowContact.toList ++ loose)

namespace Settles

variable {o o' o'' : DynamicObject α} {l l' l'' : Ledger α}

theorem of_adds (h : Adds o l o' l') : Settles o l o' l' := by
  refine ⟨h.exhausted, ?_⟩
  intro n cs books loose hbooked
  rw [h.shadow]
  exact h.booked hbooked

theorem trans (h : Settles o l o' l') (g : Settles o' l' o'' l'') : Settles o l o'' l'' := by
  refine ⟨g.exhausted ∘ h.exhausted, ?_⟩
  intro n cs books loose hbooked
  exact exists_added_trans
    (Q := fun ds =>
      l''.pool.Booked n ((o''.activeContacts, ds) :: books) (o''.shadowContact.toList ++ loose))
    (h.booked hbooked) fun _ => g.booked

/-- Nothing changes that has to do with contacts. -/
theorem of_tag (ho : o'.tag = o.tag) (hl : l.Reports l') : Settles o l o' l' :=
  of_adds (Adds.of_tag ho hl)

end Settles

/-- An object without a shadow is given one, if there is ground below it and a contact is free. -/
theorem castShadow_settles {o : DynamicObject α} (ground : Option (GroundHit α)) (l : Ledger α)
    (hshadow : o.shadowContact = none) :
    Settles o l (castShadow o ground l).1 (castShadow o ground l).2 := by
  cases ground with
  | none => exact Settles.of_tag rfl (Ledger.Reports.refl l)
  | some hit =>
    refine ⟨fun h => h.allocate _, ?_⟩
    intro n cs books loose hbooked
    rw [hshadow] at hbooked
    exact ⟨[], by simp, Ledger.booked_allocate hbooked _⟩

/-- Water leaves what an object holds alone, or puts its shadow, overwritten, in front of its list. -/
theorem water_settles (o : DynamicObject α) (l : Ledger α) (config : Config α) :
    Settles o l (Water.apply o l.pool config).1 { l with pool := (Water.apply o l.pool config).2 } := by
  have hsame : Settles o l o { l with pool := l.pool } := Settles.of_tag rfl (Ledger.Reports.refl l)
  unfold Water.apply
  split
  · exact hsame
  next shadow hshadow =>
  simp only
  split
  · exact hsame
  split
  · exact hsame
  split
  · refine ⟨id, ?_⟩
    intro n cs books loose hbooked
    rw [hshadow] at hbooked
    obtain ⟨hset, hcontact⟩ := hbooked.set
      ⟨Vec3.unitY, ⟨o.position.x, (l.pool.get shadow).point.y, o.position.z⟩, .water, EntityId.none⟩
    have hlinked := hset.link
    rw [hcontact] at hlinked
    exact ⟨[_], by simp, hlinked⟩
  · refine Settles.of_tag ?_ (Ledger.Reports.refl l)
    unfold Water.float
    simp only
    split <;> rfl

/-- What settling does: the meshes add to the list, the ground gives a shadow, and water may take it
over. Nothing after that has to do with contacts. -/
theorem settle_steps {w : World α} {o o' : DynamicObject α} {before : Before α} {l l' : Ledger α}
    {fell : Bool} (h : settle w o before l = .ok (o', fell, l')) :
    ∃ (o₁ : DynamicObject α) (l₁ : Ledger α) (ground : Option (GroundHit α)), Adds o l o₁ l₁ ∧
      let (o₂, l₂) := castShadow o₁ ground l₁
      let (o₃, pool) := Water.apply o₂ l₂.pool w.config
      o'.tag = o₃.tag ∧ Ledger.Reports { l₂ with pool } l' := by
  unfold settle at h
  obtain ⟨⟨o₀, l₀⟩, hswept, h⟩ := bind_eq_ok_iff.mp h
  obtain ⟨⟨o₁, l₁⟩, hmeshes, h⟩ := bind_eq_ok_iff.mp h
  obtain ⟨ground, -, h⟩ := bind_eq_ok_iff.mp h
  have hadds : Adds o l o₁ l₁ := (sweepMeshes_adds hswept).trans
    (Adds.foldlM (fun _ _ _ hm => Resolve.mesh_adds hm) hmeshes)
  refine ⟨o₁, l₁, ground, hadds, ?_⟩
  simp only at h ⊢
  split at h
  · next hcaught =>
    cases h
    refine ⟨(tag_catchFalling hcaught).trans ?_, Ledger.reports_report _ _⟩
    split
    · exact tag_snapToGround _ _ _ _
    · rfl
  · cases h
    refine ⟨?_, Ledger.Reports.refl _⟩
    split
    · exact tag_snapToGround _ _ _ _
    · rfl

/-- **Settling names nobody.** The list of an object without a shadow grows by contacts that name
nobody, and the shadow that it gets is held alone. -/
theorem settle_settles {w : World α} {o o' : DynamicObject α} {before : Before α} {l l' : Ledger α}
    {fell : Bool} (h : settle w o before l = .ok (o', fell, l')) (hshadow : o.shadowContact = none) :
    Settles o l o' l' := by
  obtain ⟨o₁, l₁, ground, hadds, htag, hreports⟩ := settle_steps h
  have hcast := castShadow_settles ground l₁ (hadds.shadow.trans hshadow)
  exact (((Settles.of_adds hadds).trans hcast).trans (water_settles _ _ w.config)).trans
    (Settles.of_tag htag hreports)

/-- What happens at a place when its turn comes: nothing, unless a movable object stands there, which is
then settled and written back. -/
theorem settleAt_cases {w : World α} {befores : Array (Before α)} {i : Nat} {elements : Array (Element α)}
    {l : Ledger α} {fallen : List EntityId} {s' : Array (Element α) × Ledger α × List EntityId}
    (h : settleAt w befores (elements, l, fallen) i = .ok s') :
    (s' = (elements, l, fallen) ∧
      ∀ o, elements[i]? = some (.object o) → (o.isFixed || o.isTrigger) = true) ∨
    ∃ o o' fell l', elements[i]? = some (.object o) ∧ (o.isFixed || o.isTrigger) = false ∧
      settle w o (befores.getD i default) l = .ok (o', fell, l') ∧
      s' = (elements.setIfInBounds i (.object o'), l', if fell then fallen ++ [o'.id] else fallen) := by
  unfold settleAt at h
  simp only at h
  split at h
  · next o ho =>
    split at h
    · next hstays =>
      cases h
      refine .inl ⟨rfl, fun o' ho' => ?_⟩
      cases ho.symm.trans ho'
      exact hstays
    · next hmoves =>
      obtain ⟨⟨o', fell, l'⟩, hsettle, h⟩ := bind_eq_ok_iff.mp h
      cases h
      exact .inr ⟨o, o', fell, l', ho, Bool.eq_false_of_not_eq_true hmoves, hsettle, rfl⟩
  · next hother =>
    cases h
    exact .inl ⟨rfl, fun o ho => absurd ho (hother o)⟩

/-! ## §D Taking out -/

/-- Taking out by identity does nothing when none is on record. Otherwise the element at the place on
record is taken out: the last one takes that place, and the contacts go back. Nothing else changes but the
registry. -/
theorem removeElement_cases {w w' : World α} {id : EntityId} {taken? : Option (Element α)}
    (h : w.removeElement id = .ok (taken?, w')) :
    (w.registry.find? id = none ∧ taken? = none ∧ w' = w) ∨
    ∃ i e registry, w.registry.find? id = some i ∧ w.elements[i]? = some e ∧
      taken? = some (e.returnContacts w.pool).1 ∧
      w' = { w with
        elements := swapRemoveAt w.elements i
        registry
        pool := (e.returnContacts w.pool).2 } := by
  unfold removeElement at h
  split at h
  · next hnone =>
    cases h
    exact .inl ⟨hnone, rfl, rfl⟩
  next i hi =>
  split at h
  · cases h
  · next e he =>
    cases h
    exact .inr ⟨i, e, _, hi, he, rfl, rfl⟩

/-- What is taken out as one of many is taken out by identity. -/
theorem exists_of_dropElement {w w' : World α} {id : EntityId} (h : w.dropElement id = .ok w') :
    ∃ taken?, w.removeElement id = .ok (taken?, w') := by
  obtain ⟨⟨taken?, w₁⟩, hremove, rfl⟩ := map_eq_ok_iff.mp h
  exact ⟨taken?, hremove⟩

end ConvexCollision.World
