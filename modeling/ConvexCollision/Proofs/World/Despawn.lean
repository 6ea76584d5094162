import ConvexCollision.Proofs.Single.Laws
import ConvexCollision.Proofs.World.Carried
import ConvexCollision.Proofs.World.Dropped
import ConvexCollision.Proofs.World.Run

/-!
# ConvexCollision.Proofs.World.Despawn -- which objects a tick takes out

Elements are settled one after another, and each of them is tested against the kill plane at the end of
its own settling. `Tested` says what is known when those before a place were settled: the identities put
down so far come from movable objects at different places, in their order, and any other movable object
there is above the plane. Nothing that comes later moves an element at an earlier place, so that all of it
still holds at the end (`settled_tested`).

Taking out by identity then leaves exactly the elements that were not put down.
-/

namespace ConvexCollision

variable {α : Type} [Scalar α]

/-! ## §A What stays of an element -/

namespace Element

/-- The element is an object that is settled: neither fixed nor a trigger. -/
def isMovable : Element α → Bool
  | object o => !(o.isFixed || o.isTrigger)
  | trigger _ => false

/-- Who the element is, and whether it is settled. -/
def role (e : Element α) : EntityId × Bool := (e.id, e.isMovable)

/-- The element after a tick is the same one: an object in everything that a tick does not write to, a
trigger in everything but its box and its contacts. -/
inductive Persists : Element α → Element α → Prop
  /-- An object. -/
  | object {o o' : DynamicObject α} (kept : o'.kept = o.kept) : Persists (.object o) (.object o')
  /-- A trigger. -/
  | trigger (t : SpatialTrigger α) (box : Bounds α) (head : Option ContactId) :
    Persists (.trigger t) (.trigger { t with box, activeContacts := head })

variable {e e' e'' : Element α}

theorem Persists.trans (h : e.Persists e') (g : e'.Persists e'') : e.Persists e'' := by
  cases h with
  | object h =>
    cases g with
    | object g => exact .object (g.trans h)
  | trigger t box head =>
    cases g with
    | trigger _ box' head' => exact .trigger t box' head'

theorem Carried.persists (h : e.Carried e') : e.Persists e' := by
  cases h with
  | object h => exact .object h.kept
  | trigger t head => exact .trigger t t.box head

theorem Persists.role_eq (h : e.Persists e') : e'.role = e.role := by
  cases h with
  | object h =>
    have hid := congrArg DynamicObject.id h
    show (_, !(_ || _)) = (_, !(_ || _))
    rw [DynamicObject.isFixed_of_kept h, DynamicObject.isTrigger_of_kept h]
    exact congrArg (·, _) hid
  | trigger t box head => rfl

theorem Persists.id_eq (h : e.Persists e') : e'.id = e.id := congrArg Prod.fst h.role_eq

end Element

namespace World

theorem kept_integrate (o : DynamicObject α) (dt gravity : α) :
    (o.integrate dt gravity).kept = o.kept := by
  unfold DynamicObject.integrate
  split
  · rfl
  · simp only
    split <;> rfl

theorem startElement_persists (config : Config α) (e : Element α) (pool : ContactPool α) :
    e.Persists (startElement config e pool).1 := by
  cases e with
  | object o => exact .object (kept_integrate _ config.fixedTimeStep config.gravity)
  | trigger t => exact .trigger t _ none

/-- At the start of a tick every element persists, in its place. -/
theorem start_persists (w : World α) :
    List.Forall₂ Element.Persists w.elements.toList w.start.1.elements.toList := by
  refine (start_elements w).imp ?_
  rintro e _ ⟨pool, rfl⟩
  exact startElement_persists w.config e pool

/-! ## §B The test against the kill plane -/

/-- The identities of the movable elements before a place. -/
def movableIds (roles : List (EntityId × Bool)) (i : Nat) : List EntityId :=
  ((roles.take i).filter (·.2)).map (·.1)

theorem movableIds_sublist_succ (roles : List (EntityId × Bool)) (i : Nat) :
    (movableIds roles i).Sublist (movableIds roles (i + 1)) :=
  ((List.take_sublist_take_left (Nat.le_succ i)).filter _).map _

theorem movableIds_succ {roles : List (EntityId × Bool)} {i : Nat} {id : EntityId}
    (h : roles[i]? = some (id, true)) : movableIds roles (i + 1) = movableIds roles i ++ [id] := by
  unfold movableIds
  rw [List.take_add_one, h]
  simp

/-- What is known when the elements before a place were settled. -/
structure Tested (w : World α) (roles : List (EntityId × Bool)) (i : Nat)
    (s : Array (Element α) × Ledger α × List EntityId) : Prop where
  /-- Every element is in its place. -/
  roles_eq : s.1.toList.map Element.role = roles
  /-- The identities put down come from different places, in their order. -/
  fallen : s.2.2.Sublist (movableIds roles i)
  /-- Any other movable object that was settled is above the plane. -/
  above : ∀ j < i, ∀ o, s.1[j]? = some (.object o) → (Element.object o).isMovable = true →
    o.id ∉ s.2.2 → isAbove o.position.y w.killPlane = true

section Tested

variable {w : World α} {roles : List (EntityId × Bool)} {i : Nat} {elements : Array (Element α)}
  {l l' : Ledger α} {fallen : List EntityId}

/-- An element that is not movable is left alone, and there is nothing to know of it. -/
theorem Tested.pass (h : Tested w roles i (elements, l, fallen))
    (hnone : ∀ o, elements[i]? = some (.object o) → (Element.object o).isMovable = false) :
    Tested w roles (i + 1) (elements, l, fallen) := by
  refine ⟨h.roles_eq, h.fallen.trans (movableIds_sublist_succ roles i), ?_⟩
  intro j hj o ho hmovable hid
  rcases Nat.lt_succ_iff_lt_or_eq.mp hj with hlt | rfl
  · exact h.above j hlt o ho hmovable hid
  · rw [hnone o ho] at hmovable
    exact absurd hmovable Bool.false_ne_true

/-- A movable object is written back to its place, and its identity is put down if it fell. -/
theorem Tested.put {o o' : DynamicObject α} {fell : Bool} (h : Tested w roles i (elements, l, fallen))
    (ho : elements[i]? = some (.object o)) (hmovable : (Element.object o).isMovable = true)
    (hrole : (Element.object o').role = (Element.object o).role)
    (habove : fell = false → isAbove o'.position.y w.killPlane = true) :
    Tested w roles (i + 1) (elements.setIfInBounds i (.object o'), l',
      if fell = true then fallen ++ [o'.id] else fallen) := by
  have hlist : elements.toList[i]? = some (.object o) := by rwa [Array.getElem?_toList]
  have hat : roles[i]? = some ((Element.object o').role) := by
    rw [← h.roles_eq, List.getElem?_map, hlist, hrole]
    rfl
  constructor
  case roles_eq =>
    obtain ⟨hlt, hget⟩ := List.getElem?_eq_some_iff.mp hat
    rw [Array.toList_setIfInBounds, List.map_set, h.roles_eq, ← hget, List.set_getElem_self]
  case fallen =>
    have hsucc : movableIds roles (i + 1) = movableIds roles i ++ [o'.id] := by
      apply movableIds_succ
      rw [hat, ← hmovable, ← show (Element.object o').isMovable = (Element.object o).isMovable from
        congrArg Prod.snd hrole]
      rfl
    rw [hsucc]
    split
    · exact h.fallen.append (List.Sublist.refl _)
    · exact h.fallen.trans (List.sublist_append_left _ _)
  case above =>
    intro j hj o₁ ho₁ hmovable₁ hid
    have hfallen : fallen ⊆ if fell = true then fallen ++ [o'.id] else fallen := by
      split
      · exact List.subset_append_left _ _
      · exact List.Subset.refl _
    rcases Nat.lt_succ_iff_lt_or_eq.mp hj with hlt | rfl
    · simp only [Array.getElem?_setIfInBounds_ne (Nat.ne_of_gt hlt)] at ho₁
      exact h.above j hlt o₁ ho₁ hmovable₁ fun hmem => hid (hfallen hmem)
    · -- the object itself: it was put down, or it stood the test
      have hsize : j < elements.size := (Array.getElem?_eq_some_iff.mp ho).1
      simp only [Array.getElem?_setIfInBounds_self_of_lt hsize] at ho₁
      cases ho₁
      apply habove
      cases fell with
      | false => rfl
      | true => exact absurd (List.mem_append_right _ (List.mem_singleton_self _)) hid

/-- The element at a place is settled. -/
theorem Tested.settleAt {befores : Array (Before α)} {s s' : Array (Element α) × Ledger α × List EntityId}
    (h : Tested w roles i s) (hs : World.settleAt w befores s i = .ok s') :
    Tested w roles (i + 1) s' := by
  obtain ⟨elements, l, fallen⟩ := s
  rcases settleAt_cases hs with ⟨rfl, hstays⟩ | ⟨o, o', fell, l', ho, hmoves, hsettle, rfl⟩
  · refine h.pass fun o ho => ?_
    show (!(o.isFixed || o.isTrigger)) = false
    rw [hstays o ho, Bool.not_true]
  · obtain ⟨hcarried, habove⟩ := settle_carried hsettle
    have hmovable : (!(o.isFixed || o.isTrigger)) = true := by rw [hmoves, Bool.not_false]
    exact h.put ho hmovable (Element.Carried.object hcarried).persists.role_eq habove

end Tested

/-- When all elements were settled, those that fell are known, and all others are above the plane. -/
theorem settled_tested {w : World α} {elements : Array (Element α)} {l : Ledger α}
    {fallen : List EntityId}
    (h : (List.range w.paired.1.size).foldlM (settleAt w.start.1 w.start.2)
      (w.paired.1, w.paired.2, []) = .ok (elements, l, fallen)) :
    Tested w.start.1 (elements.toList.map Element.role) elements.size (elements, l, fallen) := by
  have hroles {es es' : List (Element α)} (hall : Element.Carried.All es es') :
      es'.map Element.role = es.map Element.role :=
    (map_eq_map_of_forall₂ hall fun e _ e' he => he.persists.role_eq.symm).symm
  have hsettled : Element.Carried.All w.paired.1.toList elements.toList :=
    rel_of_foldlM_eq_ok
      (R := fun s s' : Array (Element α) × Ledger α × List EntityId =>
        Element.Carried.All s.1.toList s'.1.toList)
      (fun _ => .refl _) (fun _ _ _ => .trans) (fun _ _ _ => settleAt_carried) h
  have hsize : elements.size = w.paired.1.size := hsettled.length_eq.symm
  rw [hsize]
  refine inv_of_foldlM_range_eq_ok (Tested w.start.1 (elements.toList.map Element.role))
    (fun i s s' hs hstep => hs.settleAt hstep) ?_ h
  refine ⟨(hroles hsettled).symm, List.Sublist.refl _, ?_⟩
  intro j hj
  exact absurd hj (Nat.not_lt_zero j)

/-! ## §C A tick -/

/-- A height on or above the kill plane is a number, and not below the plane. -/
theorem le_of_isAbove [Scalar.Ordered α] {height : α} {plane : Option α}
    (h : isAbove height plane = true) : height ≤ height ∧ ∀ p, plane = some p → p ≤ height := by
  cases plane with
  | some plane =>
    have hplane : plane ≤ height := of_decide_eq_true h
    refine ⟨Scalar.Ordered.defined_right hplane, ?_⟩
    intro p hp
    cases hp
    exact hplane
  | none =>
    have hdefined : height ≤ height := by simpa [isAbove, Scalar.isUndefined] using h
    exact ⟨hdefined, fun p hp => nomatch hp⟩

/-- The identities put down are different, and each is that of a movable object of the world as it was
before the tick. -/
theorem Registered.fallen_movable {w : World α} (h : w.Registered) {elements : Array (Element α)}
    {l : Ledger α} {fallen : List EntityId}
    (hpersists : List.Forall₂ Element.Persists w.elements.toList elements.toList)
    (htested : Tested w.start.1 (elements.toList.map Element.role) elements.size
      (elements, l, fallen)) :
    fallen.Nodup ∧ ∀ id ∈ fallen, ∃ o, w.findObject? id = some o ∧ o.isFixed = false ∧
      o.isTrigger = false := by
  have hroles : elements.toList.map Element.role = w.elements.toList.map Element.role :=
    (map_eq_map_of_forall₂ hpersists fun e _ e' he => he.role_eq.symm).symm
  have hsublist : fallen.Sublist (((w.elements.toList.map Element.role).filter (·.2)).map (·.1)) := by
    have hfallen := htested.fallen
    unfold movableIds at hfallen
    rw [List.take_of_length_le (by simp), hroles] at hfallen
    exact hfallen
  constructor
  · apply hsublist.nodup
    apply ((List.filter_sublist).map _).nodup
    rw [List.map_map]
    exact h.indexes.nodup
  · intro id hid
    obtain ⟨role, hrole, rfl⟩ := List.mem_map.mp (hsublist.subset hid)
    obtain ⟨hrole, hmovable⟩ := List.mem_filter.mp hrole
    obtain ⟨e, he, rfl⟩ := List.mem_map.mp hrole
    cases e with
    | trigger t => exact absurd hmovable Bool.false_ne_true
    | object o =>
      have hneither : (!(o.isFixed || o.isTrigger)) = true := hmovable
      rw [Bool.not_eq_true', Bool.or_eq_false_iff] at hneither
      exact ⟨o, h.findObject?_eq_some_iff.mpr ⟨Array.mem_toList_iff.mp he, rfl⟩, hneither⟩

/-- What is found after elements were taken out are the elements that were found before, unless they
were among those. -/
theorem Registered.find?_removeAll {w w₁ w' : World α} (h : w.Registered) (h₁ : w₁.Registered)
    (hpersists : List.Forall₂ Element.Persists w.elements.toList w₁.elements.toList)
    {ids : List EntityId} (hremove : w₁.removeAll ids = .ok w') (h' : w'.Registered)
    (id : EntityId) :
    Option.Rel Element.Persists (if id ∈ ids then none else w.find? id) (w'.find? id) := by
  have hleft := h₁.mem_removeAll hremove
  -- whoever is found after the tick was found before it
  have hback (e' : Element α) (he' : w'.find? id = some e') :
      id ∉ ids ∧ ∃ e, w.find? id = some e := by
    obtain ⟨hmem, rfl⟩ := h'.find?_eq_some_iff.mp he'
    obtain ⟨hmem, hid⟩ := (hleft e').mp hmem
    obtain ⟨e, he, hsame⟩ := exists_of_forall₂_of_mem hpersists (Array.mem_toList_iff.mpr hmem)
    exact ⟨hid, e, h.find?_eq_some_iff.mpr ⟨Array.mem_toList_iff.mp he, hsame.id_eq.symm⟩⟩
  split
  · next hid =>
    cases hfind : w'.find? id with
    | none => exact .none
    | some e' => exact absurd hid (hback e' hfind).1
  · next hid =>
    cases hfind : w.find? id with
    | none =>
      cases hfind' : w'.find? id with
      | none => exact .none
      | some e' =>
        obtain ⟨-, e, he⟩ := hback e' hfind'
        rw [hfind] at he
        cases he
    | some e =>
      obtain ⟨hmem, rfl⟩ := h.find?_eq_some_iff.mp hfind
      have hforward : List.Forall₂ (flip Element.Persists) w₁.elements.toList w.elements.toList :=
        List.Forall₂.flip hpersists
      obtain ⟨e', he', hsame⟩ := exists_of_forall₂_of_mem hforward (Array.mem_toList_iff.mpr hmem)
      have hsame : e.Persists e' := hsame
      have hkept : e' ∈ w'.elements :=
        (hleft e').mpr ⟨Array.mem_toList_iff.mp he', by rwa [hsame.id_eq]⟩
      rw [h'.find?_eq_some_iff.mpr ⟨hkept, hsame.id_eq⟩]
      exact .some hsame

/-- What is settled when elements are taken out are the elements from before the tick, in their places. -/
theorem settled_persists {w : World α} {elements : Array (Element α)} {l : Ledger α} {fallen : List EntityId}
    (h : (List.range w.paired.1.size).foldlM (settleAt w.start.1 w.start.2)
      (w.paired.1, w.paired.2, []) = .ok (elements, l, fallen)) :
    List.Forall₂ Element.Persists w.elements.toList elements.toList :=
  forall₂_trans (T := Element.Persists) (fun _ _ _ hfirst hsecond => hfirst.trans hsecond.persists)
    (start_persists w) (settled_carried h)

/-- Every element after a tick was there before it. -/
theorem exists_persists_of_collide {w : World α} {outcome : Outcome α} (h : w.collide = .ok outcome)
    {e : Element α} (he : e ∈ outcome.world.elements) : ∃ e₀ ∈ w.elements, e₀.Persists e := by
  obtain ⟨elements, l, hsettle, hremove⟩ := exists_settled_of_collide h
  have hsettled := (removeAll_subset hremove).1 e he
  obtain ⟨e₀, he₀, hsame⟩ :=
    exists_of_forall₂_of_mem (settled_persists hsettle) (Array.mem_toList_iff.mpr hsettled)
  exact ⟨e₀, Array.mem_toList_iff.mp he₀, hsame⟩

/-- **Despawning is exact.** In every run, the identities that a tick reports are different, and each
was that of an object that is neither fixed nor a trigger. What is registered after the tick are the
elements that were registered before it, without the ones reported. And every object that is left, and
that is neither fixed nor a trigger, has a height that is a number and is not below the kill plane. -/
theorem Run.despawn_exact [Scalar.Ordered α] {w : World α} (hrun : Run w) {outcome : Outcome α}
    (h : w.collide = .ok outcome) :
    outcome.despawned.Nodup ∧
    (∀ id ∈ outcome.despawned, ∃ o, w.findObject? id = some o ∧ o.isFixed = false ∧
      o.isTrigger = false) ∧
    (∀ id, Option.Rel Element.Persists (if id ∈ outcome.despawned then none else w.find? id)
      (outcome.world.find? id)) ∧
    (∀ e ∈ outcome.world.elements, outcome.world.find? e.id = some e) ∧
    ∀ o, .object o ∈ outcome.world.elements → o.isFixed = false → o.isTrigger = false →
      o.position.y ≤ o.position.y ∧ ∀ plane, w.killPlane = some plane → plane ≤ o.position.y := by
  have hregistered := hrun.registered
  have hafter := hregistered.collide h
  obtain ⟨elements, l, hsettle, hremove⟩ := exists_settled_of_collide h
  have hpersists := settled_persists hsettle
  have hbefore : ({ w.start.1 with elements, pool := l.pool } : World α).Registered :=
    hregistered.congr (start_ids w).2 (collide_ids hsettle)
  have htested := settled_tested hsettle
  obtain ⟨hnodup, hmovable⟩ := hregistered.fallen_movable hpersists htested
  refine ⟨hnodup, hmovable, hregistered.find?_removeAll hbefore hpersists hremove hafter, ?_, ?_⟩
  · intro e he
    exact hafter.find?_eq_some_iff.mpr ⟨he, rfl⟩
  · intro o ho hfixed htrigger
    obtain ⟨hmem, hid⟩ := (hbefore.mem_removeAll hremove _).mp ho
    obtain ⟨j, hj⟩ := Array.getElem?_of_mem hmem
    apply le_of_isAbove
    apply htested.above j (Array.getElem?_eq_some_iff.mp hj).1 o hj ?_ hid
    show (!(o.isFixed || o.isTrigger)) = true
    rw [hfixed, htrigger]
    rfl

/-- A ball is added below the kill plane of a floor. -/
def lostBall : World Float32 :=
  let ball : DynamicObject Float32 := .create ⟨1⟩ ⟨.sphere 1, 0, 0, 0⟩ Layers.all ⟨0, -20, 0⟩ none
  ((World.new { Config.standard with contactPoolCapacity := 3 }).after (.addMesh floorMesh)).after
    (.addObject ball)

theorem lostBall_run : Run lostBall := by
  unfold lostBall
  exact ((Run.new _).step (.addMesh _) trivial).step (.addObject _) trivial

theorem lostBall_collide : ∃ outcome, lostBall.collide = .ok outcome ∧ outcome.despawned = [⟨1⟩] := by
  have hdespawned : (lostBall.collide.toOption.map (·.despawned)) = some [⟨1⟩] := by
    rw [collide_of_single (by decide +kernel)]
    decide +kernel
  exact exists_eq_ok_of_map hdespawned

/-- The ball was there before the tick that reports it, and is not there after it. -/
theorem lostBall_despawned : ∃ outcome, lostBall.collide = .ok outcome ∧
    outcome.despawned = [⟨1⟩] ∧ (lostBall.find? ⟨1⟩).isSome = true ∧
    outcome.world.find? ⟨1⟩ = none := by
  obtain ⟨outcome, hcollide, hids⟩ := lostBall_collide
  obtain ⟨-, hmovable, hfound, -, -⟩ := Run.despawn_exact lostBall_run hcollide
  refine ⟨outcome, hcollide, hids, ?_, ?_⟩
  · obtain ⟨o, ho, -, -⟩ := hmovable ⟨1⟩ (by rw [hids]; exact List.mem_singleton_self _)
    obtain ⟨e, he, -⟩ := Option.bind_eq_some_iff.mp ho
    rw [he]
    rfl
  · have hgone := hfound ⟨1⟩
    rw [hids, if_pos (List.mem_singleton_self _)] at hgone
    cases hfind : outcome.world.find? ⟨1⟩ with
    | none => rfl
    | some e =>
      rw [hfind] at hgone
      cases hgone

end World

end ConvexCollision
