import ConvexCollision.Proofs.World.Accounting
import ConvexCollision.Proofs.World.Registry

/-!
# ConvexCollision.Proofs.World.Elements -- the identities of the elements through a tick

Through all parts of a tick an element keeps its identity and its place, and so a tick leaves the
registry right (`Registered.collide`).
-/

namespace ConvexCollision.World

variable {α : Type} [Scalar α]

/-! ## §A The start -/

@[simp] theorem id_startElement (config : Config α) (e : Element α) (pool : ContactPool α) :
    (startElement config e pool).1.id = e.id := by
  cases e with
  | trigger t => rfl
  | object o =>
    obtain ⟨hid, -⟩ := Prod.mk.inj (DynamicObject.tag_integrate
      { o with activeContacts := none, shadowContact := none }.tickCounters config.fixedTimeStep
      config.gravity)
    exact hid

/-- At the start of a tick every element keeps its identity. -/
theorem start_ids (w : World α) : w.start.1.ids = w.ids ∧ w.start.1.registry = w.registry := by
  refine ⟨(map_eq_map_of_forall₂ (start_elements w) ?_).symm, rfl⟩
  rintro e - _ ⟨pool, rfl⟩
  exact (id_startElement w.config e pool).symm

/-! ## §B Pairs -/

theorem resolvePair_ids (befores : Array (Before α)) (s : Array (Element α) × Ledger α)
    (p : BroadPhase.Pair) :
    (resolvePair befores s p).1.toList.map Element.id = s.1.toList.map Element.id := by
  obtain ⟨elements, l⟩ := s
  unfold resolvePair
  simp only
  split
  · next a b ha hb =>
    have hadds := resolveObjects_adds a (befores.getD p.a default) b (befores.getD p.b default) l
    generalize resolveObjects a _ b _ l = r at hadds ⊢
    have hfirst : (elements.toList.set p.a (.object r.1)).map Element.id =
        elements.toList.map Element.id := Element.ids_set (by simp [ha, Element.id, hadds.idA])
    rw [Array.toList_setIfInBounds, Array.toList_setIfInBounds, Element.ids_set, hfirst]
    rw [hfirst]
    simp [hb, Element.id, hadds.idB]
  · next o t ho ht =>
    rw [Array.toList_setIfInBounds]
    exact Element.ids_set (by simp [ht, Element.id, (Resolve.objectInTrigger_adds o t l).1])
  · next t o ht ho =>
    rw [Array.toList_setIfInBounds]
    exact Element.ids_set (by simp [ht, Element.id, (Resolve.objectInTrigger_adds o t l).1])
  · rfl

theorem resolvePairs_ids (befores : Array (Before α)) (elements : Array (Element α)) (l : Ledger α) :
    (resolvePairs befores elements l).1.toList.map Element.id = elements.toList.map Element.id := by
  unfold resolvePairs
  simp only
  refine inv_foldl_passed (fun _ (s : Array (Element α) × Ledger α) =>
    s.1.toList.map Element.id = elements.toList.map Element.id) ?_ rfl
  intro passed p rest s _ hids
  exact (resolvePair_ids befores s p).trans hids

/-! ## §C Settling -/

theorem id_water (o : DynamicObject α) (pool : ContactPool α) (config : Config α) :
    (Water.apply o pool config).1.id = o.id := by
  unfold Water.apply
  split
  · rfl
  simp only
  split
  · rfl
  split
  · rfl
  split
  · rfl
  · unfold Water.float
    simp only
    split <;> rfl

theorem settle_id {w : World α} {o o' : DynamicObject α} {before : Before α} {l l' : Ledger α}
    {fell : Bool} (h : settle w o before l = .ok (o', fell, l')) : o'.id = o.id := by
  obtain ⟨o₁, l₁, ground, hadds, htag, -⟩ := settle_steps h
  have hcast : (castShadow o₁ ground l₁).1.id = o₁.id := by cases ground <;> rfl
  exact (Prod.mk.inj htag).1.trans ((id_water _ _ w.config).trans (hcast.trans hadds.id))

theorem settleAt_ids {w : World α} {befores : Array (Before α)} {i : Nat}
    {s s' : Array (Element α) × Ledger α × List EntityId} (hs : settleAt w befores s i = .ok s') :
    s'.1.toList.map Element.id = s.1.toList.map Element.id := by
  obtain ⟨elements, l, fallen⟩ := s
  rcases settleAt_cases hs with ⟨rfl, -⟩ | ⟨o, o', fell, l', ho, -, hsettle, rfl⟩
  · rfl
  · rw [Array.toList_setIfInBounds]
    exact Element.ids_set (by simp [ho, Element.id, settle_id hsettle])

/-! ## §D A tick -/

/-- What a tick settles are the elements that were there, in their places. -/
theorem collide_ids {w : World α} {elements : Array (Element α)} {l : Ledger α}
    {fallen : List EntityId}
    (h : (List.range (resolvePairs w.start.2 w.start.1.elements ⟨w.start.1.pool, #[]⟩).1.size).foldlM
      (settleAt w.start.1 w.start.2) ((resolvePairs w.start.2 w.start.1.elements ⟨w.start.1.pool, #[]⟩).1,
        (resolvePairs w.start.2 w.start.1.elements ⟨w.start.1.pool, #[]⟩).2, []) =
      .ok (elements, l, fallen)) : elements.toList.map Element.id = w.ids := by
  have hsettled := rel_of_foldlM_eq_ok
    (R := fun s s' : Array (Element α) × Ledger α × List EntityId =>
      s'.1.toList.map Element.id = s.1.toList.map Element.id)
    (fun _ => rfl) (fun _ _ _ hab hbc => hbc.trans hab) (fun _ _ _ => settleAt_ids) h
  exact hsettled.trans ((resolvePairs_ids _ _ _).trans (start_ids w).1)

/-- A tick takes elements out and enters the others anew, and that is all that it does to the
registry. -/
theorem Registered.collide {w : World α} {outcome : Outcome α} (h : w.Registered)
    (hcollide : w.collide = .ok outcome) : outcome.world.Registered := by
  unfold World.collide at hcollide
  simp only at hcollide
  obtain ⟨⟨elements, l, fallen⟩, hsettle, hcollide⟩ := bind_eq_ok_iff.mp hcollide
  obtain ⟨w', hremove, hcollide⟩ := bind_eq_ok_iff.mp hcollide
  cases hcollide
  have hbefore : ({ w.start.1 with elements, pool := l.pool } : World α).Registered :=
    h.congr (start_ids w).2 (collide_ids hsettle)
  obtain ⟨w'', hall, hregistered⟩ := hbefore.removeAll fallen
  have hsame := (Ledger.eq_ok_of_guarding hremove).symm.trans hall
  cases hsame
  exact hregistered

end ConvexCollision.World
