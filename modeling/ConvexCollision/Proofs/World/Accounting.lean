import ConvexCollision.Proofs.BroadPhase
import ConvexCollision.Proofs.World.Parts

/-!
# ConvexCollision.Proofs.World.Accounting -- who holds the contacts of a world

`AccountedAmong` says that the pool is balanced when the elements of a world hold their lists and their
shadows. It does not depend on the order of the elements, so what happens to one or two of them is a
step with these in front of all others. The parts of a tick are taken in turn: at its start everyone
gives back what it holds, pairs and meshes add to the lists, and every object that is settled gets a
shadow, which water may move to its list. Nothing here asks what the geometry answers.
-/

namespace ConvexCollision

open ContactPool (Balanced)

variable {α : Type} [Scalar α]

/-! ## §A The holders -/

/-- The contact with the surface below; a trigger has none. -/
def Element.shadowContact : Element α → Option ContactId
  | object o => o.shadowContact
  | trigger _ => none

/-- Every contact of the pool is on the list of one of the elements, or the shadow of one of them, or
free. -/
def AccountedAmong (n : Nat) (p : ContactPool α) (es : List (Element α)) : Prop :=
  p.Balanced n (es.map Element.activeContacts) (es.flatMap fun e => e.shadowContact.toList)

/-- The element holds no contact. -/
structure Element.Bare (e : Element α) : Prop where
  /-- It has no list. -/
  activeContacts : e.activeContacts = none
  /-- It has no shadow. -/
  shadowContact : e.shadowContact = none

namespace AccountedAmong

variable {n : Nat} {p q : ContactPool α} {es es' : List (Element α)} {e e' : Element α} {i j : Nat}

theorem perm (h : AccountedAmong n p es) (hperm : es.Perm es') : AccountedAmong n p es' :=
  Balanced.perm h (hperm.map _) (hperm.flatMap_right _)

/-- An element in front of others, with what it holds in front of what they hold. -/
theorem cons_iff : AccountedAmong n p (e :: es) ↔
    p.Balanced n (e.activeContacts :: es.map Element.activeContacts)
      (e.shadowContact.toList ++ es.flatMap fun e => e.shadowContact.toList) := Iff.rfl

/-- An element that holds nothing can be named or left out. -/
theorem cons_bare (he : e.Bare) : AccountedAmong n p (e :: es) ↔ AccountedAmong n p es := by
  rw [cons_iff, he.activeContacts, he.shadowContact, Balanced.cons_none_iff]
  rfl

/-- Elements that hold nothing can be named. -/
theorem of_bare (h : AccountedAmong n p []) (hes : ∀ e ∈ es, e.Bare) : AccountedAmong n p es := by
  induction es with
  | nil => exact h
  | cons e es ih =>
    rw [cons_bare (hes e List.mem_cons_self)]
    exact ih fun e' he' => hes e' (List.mem_cons_of_mem e he')

/-- A step with one of the elements. -/
theorem set (h : AccountedAmong n p es) (hi : es[i]? = some e)
    (hstep : ∀ es', AccountedAmong n p (e :: es') → AccountedAmong n q (e' :: es')) :
    AccountedAmong n q (es.set i e') := by
  have hfront := hstep _ (h.perm (perm_cons_eraseIdx hi))
  exact hfront.perm (set_perm (List.getElem?_eq_some_iff.mp hi).1 e').symm

/-- A step with two of the elements. -/
theorem set_pair {a b a' b' : Element α} (h : AccountedAmong n p es) (hij : i ≠ j)
    (hi : es[i]? = some a) (hj : es[j]? = some b)
    (hstep : ∀ es', AccountedAmong n p (a :: b :: es') → AccountedAmong n q (a' :: b' :: es')) :
    AccountedAmong n q ((es.set i a').set j b') := by
  obtain ⟨rest, hperm, hset⟩ := exists_perm_pair hij hi hj
  exact (hstep rest (h.perm hperm)).perm (hset a' b').symm

end AccountedAmong

/-- A step with an object, among the elements. -/
theorem World.Settles.accounted {n : Nat} {es : List (Element α)} {o o' : DynamicObject α}
    {l l' : Ledger α} (h : Settles o l o' l') (hacc : AccountedAmong n l.pool (.object o :: es)) :
    AccountedAmong n l'.pool (.object o' :: es) := by
  rw [AccountedAmong.cons_iff] at hacc ⊢
  refine hacc.step fun cs books hbooked => ?_
  obtain ⟨added, -, hafter⟩ := h.booked hbooked
  exact ⟨_, hafter⟩

/-- A step with two objects, among the elements. -/
theorem AddsPair.accounted {n : Nat} {es : List (Element α)} {a b a' b' : DynamicObject α}
    {l l' : Ledger α} (h : AddsPair a b l a' b' l')
    (hacc : AccountedAmong n l.pool (.object a :: .object b :: es)) :
    AccountedAmong n l'.pool (.object a' :: .object b' :: es) := by
  rw [AccountedAmong.cons_iff] at hacc ⊢
  simp only [Element.shadowContact, List.flatMap_cons, h.shadowA, h.shadowB] at hacc ⊢
  refine hacc.step_pair fun cs ds books hbooked => ?_
  obtain ⟨added, addedBack, hafter, -⟩ := h.booked hbooked
  exact ⟨_, _, hafter⟩

/-- A trigger that looks at an object, among the elements. -/
theorem Resolve.objectInTrigger_accounted {n : Nat} {es : List (Element α)} (o : DynamicObject α)
    (t : SpatialTrigger α) {l : Ledger α} (hacc : AccountedAmong n l.pool (.trigger t :: es)) :
    AccountedAmong n (objectInTrigger o t l).2.pool (.trigger (objectInTrigger o t l).1 :: es) := by
  rw [AccountedAmong.cons_iff] at hacc ⊢
  refine hacc.step fun cs books hbooked => ?_
  obtain ⟨added, -, -, hafter⟩ := (objectInTrigger_adds o t l).2.2 hbooked
  exact ⟨_, hafter⟩

/-! ## §B Giving back -/

/-- An element gives back its list first, and then its shadow. -/
theorem Element.pool_returnContacts (p : ContactPool α) (e : Element α) : (e.returnContacts p).2 =
    match e.shadowContact with
    | some id => (p.returnContacts e.activeContacts).release id
    | none => p.returnContacts e.activeContacts := by
  cases e <;> rfl

/-- An element gives back all that it holds. -/
theorem Element.returnContacts_accounted {n : Nat} {p : ContactPool α} {es : List (Element α)}
    {e : Element α} (h : AccountedAmong n p (e :: es)) :
    AccountedAmong n (e.returnContacts p).2 es := by
  rw [AccountedAmong.cons_iff] at h
  have hlist := Balanced.returnContacts h
  rw [Element.pool_returnContacts]
  cases hshadow : e.shadowContact with
  | none =>
    rw [hshadow] at hlist
    exact hlist
  | some id =>
    rw [hshadow] at hlist
    exact hlist.release

namespace World

/-- An element starts without contacts, and motion gives it none. -/
theorem startElement_bare (config : Config α) (e : Element α) (pool : ContactPool α) :
    (startElement config e pool).1.Bare := by
  cases e with
  | trigger t => exact ⟨rfl, rfl⟩
  | object o =>
    obtain ⟨-, hhandles⟩ := Prod.mk.inj (DynamicObject.tag_integrate
      { o with activeContacts := none, shadowContact := none }.tickCounters config.fixedTimeStep
      config.gravity)
    obtain ⟨hactive, hshadow⟩ := Prod.mk.inj hhandles
    exact ⟨hactive, hshadow⟩

theorem start_bare (w : World α) : ∀ e ∈ w.start.1.elements, e.Bare :=
  forall_mem_start w (startElement_bare w.config)

/-- At the start of a tick everyone gives back all that it holds. -/
theorem start_accounted {n : Nat} {w : World α} (h : AccountedAmong n w.pool w.elements.toList) :
    AccountedAmong n w.start.1.pool [] := by
  unfold start
  simp only [← Array.foldl_toList]
  -- what is still to come holds its contacts
  refine inv_foldl (fun es (s : Array (Element α) × Array (Before α) × ContactPool α) =>
    AccountedAmong n s.2.2 es) ?_ h
  intro e es s hcoming
  have hgiven := Element.returnContacts_accounted hcoming
  cases e <;> exact hgiven

/-! ## §C Pairs -/

/-- No element has a shadow. -/
def Shadowless (elements : Array (Element α)) : Prop :=
  ∀ (i : Nat) (e : Element α), elements[i]? = some e → e.shadowContact = none

omit [Scalar α] in
theorem Shadowless.set {elements : Array (Element α)} (h : Shadowless elements) (i : Nat)
    {e : Element α} (he : e.shadowContact = none) : Shadowless (elements.setIfInBounds i e) := by
  intro j e' hj
  rw [Array.getElem?_setIfInBounds] at hj
  split at hj
  · split at hj
    · cases hj
      exact he
    · cases hj
  · exact h j e' hj

/-- The elements hold all contacts that are not free, and none of them has a shadow. -/
structure PairsState (n : Nat) (s : Array (Element α) × Ledger α) : Prop where
  /-- The contacts are accounted for. -/
  accounted : AccountedAmong n s.2.pool s.1.toList
  /-- There are no shadows. -/
  shadowless : Shadowless s.1

/-- A pair of different elements is resolved. -/
theorem resolvePair_state {n : Nat} (befores : Array (Before α))
    {s : Array (Element α) × Ledger α} (h : PairsState n s) {p : BroadPhase.Pair} (hne : p.a ≠ p.b) :
    PairsState n (resolvePair befores s p) := by
  obtain ⟨elements, l⟩ := s
  obtain ⟨hacc, hshadows⟩ := h
  unfold resolvePair
  simp only
  split
  · next a b ha hb =>
    have hadds := resolveObjects_adds a (befores.getD p.a default) b (befores.getD p.b default) l
    refine ⟨?_, ?_⟩
    · simp only [Array.toList_setIfInBounds]
      refine hacc.set_pair hne (by rwa [Array.getElem?_toList]) (by rwa [Array.getElem?_toList]) ?_
      exact fun es hes => hadds.accounted hes
    · refine (hshadows.set _ ?_).set _ ?_
      · exact hadds.shadowA.trans (hshadows _ _ ha)
      · exact hadds.shadowB.trans (hshadows _ _ hb)
  · next o t ho ht =>
    refine ⟨?_, hshadows.set _ rfl⟩
    simp only [Array.toList_setIfInBounds]
    refine hacc.set (by rwa [Array.getElem?_toList]) ?_
    exact fun es hes => Resolve.objectInTrigger_accounted o t hes
  · next t o ht ho =>
    refine ⟨?_, hshadows.set _ rfl⟩
    simp only [Array.toList_setIfInBounds]
    refine hacc.set (by rwa [Array.getElem?_toList]) ?_
    exact fun es hes => Resolve.objectInTrigger_accounted o t hes
  · exact ⟨hacc, hshadows⟩

/-- All pairs that the broad phase reports are resolved. -/
theorem resolvePairs_state {n : Nat} (befores : Array (Before α)) {elements : Array (Element α)}
    {l : Ledger α} (h : PairsState n (elements, l)) :
    PairsState n (resolvePairs befores elements l) := by
  unfold resolvePairs
  simp only
  -- no pair to come names one element twice, which the broad phase promises of all of them
  refine (inv_foldl (fun pairs s => PairsState n s ∧ ∀ p ∈ pairs, p.a ≠ p.b) ?_
    ⟨h, BroadPhase.pairs_ne _⟩).1
  rintro p pairs s ⟨hs, hne⟩
  refine ⟨resolvePair_state befores hs (hne p List.mem_cons_self), ?_⟩
  exact fun q hq => hne q (List.mem_cons_of_mem p hq)

/-- A tick in which the pairs of the broad phase are known. Its sort has no part in the right side, so that
such a tick can be evaluated. -/
theorem collide_of_pairs {w : World α} {pairs : List BroadPhase.Pair}
    (h : BroadPhase.pairs ((w.start.1.elements.zip w.start.2).map fun x => sweptBox x.1 x.2) = pairs) :
    w.collide = (do
      let (elements, l) := pairs.foldl (resolvePair w.start.2) (w.start.1.elements, ⟨w.start.1.pool, #[]⟩)
      let (elements, l, fallen) ← (List.range elements.size).foldlM
        (settleAt w.start.1 w.start.2) (elements, l, [])
      let w ← l.guarding (removeAll { w.start.1 with elements, pool := l.pool } fallen)
      return ⟨w, fallen, l.journal⟩) := by
  subst h
  rfl

/-- A single element is in no pair. -/
theorem collide_of_single {w : World α} (h : w.start.1.elements.size ≤ 1) :
    w.collide = (do
      let (elements, l, fallen) ← (List.range w.start.1.elements.size).foldlM
        (settleAt w.start.1 w.start.2) (w.start.1.elements, ⟨w.start.1.pool, #[]⟩, [])
      let w ← l.guarding (removeAll { w.start.1 with elements, pool := l.pool } fallen)
      return ⟨w, fallen, l.journal⟩) := by
  have hsize : ((w.start.1.elements.zip w.start.2).map fun x => sweptBox x.1 x.2).size ≤ 1 := by
    rw [Array.size_map, Array.size_zip]
    omega
  exact collide_of_pairs (BroadPhase.pairs_of_single hsize)

/-! ## §D Settling -/

/-- After the elements before a position were settled: the contacts are accounted for, and no element
from there on has a shadow. -/
structure SettleState (n i : Nat) (s : Array (Element α) × Ledger α × List EntityId) : Prop where
  /-- The contacts are accounted for. -/
  accounted : AccountedAmong n s.2.1.pool s.1.toList
  /-- Those to come have no shadow. -/
  shadowless : ∀ (j : Nat) (e : Element α), i ≤ j → s.1[j]? = some e → e.shadowContact = none

/-- The element at a position is settled. -/
theorem settleAt_state {n : Nat} {w : World α} {befores : Array (Before α)} {i : Nat}
    {s s' : Array (Element α) × Ledger α × List EntityId} (h : SettleState n i s)
    (hs : settleAt w befores s i = .ok s') : SettleState n (i + 1) s' := by
  obtain ⟨elements, l, fallen⟩ := s
  -- whatever happens at this position, the elements after it are as they were
  have hlater : ∀ (j : Nat) (e : Element α), i + 1 ≤ j → elements[j]? = some e →
      e.shadowContact = none := fun j e hj => h.shadowless j e (Nat.le_of_succ_le hj)
  rcases settleAt_cases hs with ⟨rfl, -⟩ | ⟨o, o', fell, l', ho, -, hsettle, rfl⟩
  · exact ⟨h.accounted, hlater⟩
  · refine ⟨?_, ?_⟩
    · simp only [Array.toList_setIfInBounds]
      refine AccountedAmong.set h.accounted (by rwa [Array.getElem?_toList]) ?_
      exact fun es hes =>
        (settle_settles hsettle (h.shadowless i _ (Nat.le_refl i) ho)).accounted hes
    · intro j e hj he
      rw [Array.getElem?_setIfInBounds_ne (by omega)] at he
      exact hlater j e hj he

/-! ## §E Taking out -/

/-- The contacts of a world are accounted for among its elements. -/
def Accounted (w : World α) : Prop :=
  AccountedAmong w.config.contactPoolCapacity w.pool w.elements.toList

/-- An element that is taken out gives back all that it holds. -/
theorem removeElement_accounted {w w' : World α} {id : EntityId} {taken? : Option (Element α)}
    (h : w.Accounted) (hremove : w.removeElement id = .ok (taken?, w')) : w'.Accounted := by
  rcases removeElement_cases hremove with ⟨-, -, rfl⟩ | ⟨i, taken, registry, -, htaken, -, rfl⟩
  · exact h
  have hlist : w.elements.toList[i]? = some taken := by rwa [Array.getElem?_toList]
  have hfront := AccountedAmong.perm h (perm_cons_eraseIdx hlist)
  have hgiven := Element.returnContacts_accounted hfront
  refine AccountedAmong.perm hgiven ?_
  simp only [toList_swapRemoveAt]
  exact (swapRemove_perm (List.getElem?_eq_some_iff.mp hlist).1).symm

theorem removeAll_accounted {w w' : World α} {ids : List EntityId} (h : w.Accounted)
    (hremove : w.removeAll ids = .ok w') : w'.Accounted :=
  rel_of_foldlM_eq_ok (R := fun w w' : World α => w.Accounted → w'.Accounted) (fun _ => id)
    (fun _ _ _ hab hbc h => hbc (hab h))
    (fun _ _ _ hdrop h => (exists_of_dropElement hdrop).elim fun _ => removeElement_accounted h) hremove h

/-! ## §F A tick -/

/-- A tick that comes to its end leaves all contacts accounted for. -/
theorem collide_accounted {w : World α} {outcome : Outcome α} (h : w.Accounted)
    (hcollide : w.collide = .ok outcome) : outcome.world.Accounted := by
  have hbare := start_bare w
  -- at the start nobody holds anything, so that all elements can be named
  have hstart : PairsState w.config.contactPoolCapacity
      (w.start.1.elements, (⟨w.start.1.pool, #[]⟩ : Ledger α)) :=
    ⟨AccountedAmong.of_bare (start_accounted h) fun e he => hbare e (Array.mem_toList_iff.mp he),
      fun i e he => (hbare e (Array.mem_of_getElem? he)).shadowContact⟩
  have hpairs := resolvePairs_state w.start.2 hstart
  unfold collide at hcollide
  simp only at hcollide
  obtain ⟨⟨elements, l, fallen⟩, hsettle, hcollide⟩ := bind_eq_ok_iff.mp hcollide
  obtain ⟨w', hremove, hcollide⟩ := bind_eq_ok_iff.mp hcollide
  cases hcollide
  have hsettled := inv_of_foldlM_range_eq_ok (SettleState w.config.contactPoolCapacity)
    (fun i s s' hs hstep => settleAt_state hs hstep)
    ⟨hpairs.accounted, fun j e _ he => hpairs.shadowless j e he⟩ hsettle
  refine removeAll_accounted ?_ (Ledger.eq_ok_of_guarding hremove)
  exact hsettled.accounted

end World

end ConvexCollision
