import ConvexCollision.Proofs.World.Run

/-!
# ConvexCollision.Proofs.World.Reachable -- what holds of a world in every run

A run as in `Run`, in which whoever writes to the fields of an element leaves its contacts alone. Then
every contact that is numbered has one place at any time: a list, a shadow or the stack of free ones.

The numbers have 32 bits. A pool for 2³² contacts or more has contacts that are not numbered, and these
have no place anywhere. So it is the size of the pool that decides whether each contact has one
(`Reachable.contacts_once`).
-/

namespace ConvexCollision.World

variable {α : Type} [Scalar α]

/-- Whoever writes to an element leaves its identity and its contacts alone. -/
def Request.KeepsContacts (w : World α) : Request α → Prop
  | modifyObject id f => ∀ o, w.findObject? id = some o → (f o).id = o.id ∧
    (f o).activeContacts = o.activeContacts ∧ (f o).shadowContact = o.shadowContact
  | modifyTrigger id f => ∀ t, w.findTrigger? id = some t → (f t).id = t.id ∧
    (f t).activeContacts = t.activeContacts
  | _ => True

/-- The world comes about in a run that leaves contacts alone. -/
inductive Reachable : World α → Prop
  /-- An empty world. -/
  | new (config : Config α) : Reachable (World.new config)
  /-- A request, granted or not. -/
  | step {w : World α} (before : Reachable w) (r : Request α) (keeps : r.KeepsContacts w) :
    Reachable (w.after r)

/-! ## §A Steps of a run -/

theorem new_accounted (config : Config α) : (World.new config).Accounted :=
  ContactPool.balanced_ofCapacity config.contactPoolCapacity

theorem reset_accounted {w : World α} (h : w.Accounted) : w.reset.Accounted :=
  ContactPool.balanced_clear h.capacity_eq

/-- An element that holds nothing is added. -/
theorem withElement_accounted {w : World α} {e : Element α} (h : w.Accounted) (he : e.Bare) :
    (w.withElement e).Accounted := by
  show AccountedAmong w.config.contactPoolCapacity w.pool (w.elements.push e).toList
  rw [Array.toList_push]
  refine AccountedAmong.perm ((AccountedAmong.cons_bare he).mpr h) ?_
  exact (List.perm_append_singleton e _).symm

/-- An element is overwritten with one that holds the same. -/
theorem setElement_accounted {w : World α} {i : Nat} {e e' : Element α} (h : w.Accounted)
    (hi : w.elements[i]? = some e) (hactive : e'.activeContacts = e.activeContacts)
    (hshadow : e'.shadowContact = e.shadowContact) :
    ({ w with elements := w.elements.setIfInBounds i e' } : World α).Accounted := by
  show AccountedAmong w.config.contactPoolCapacity w.pool (w.elements.setIfInBounds i e').toList
  rw [Array.toList_setIfInBounds]
  refine AccountedAmong.set h (by rwa [Array.getElem?_toList]) ?_
  intro es hes
  rw [AccountedAmong.cons_iff] at hes ⊢
  rw [hactive, hshadow]
  exact hes

/-- A request that is granted keeps contacts accounted for. -/
theorem granted_accounted {w w' : World α} (h : w.Accounted) {r : Request α} (keeps : r.KeepsContacts w)
    (hgranted : w.Granted r w') : w'.Accounted := by
  cases hgranted with
  | addObject => exact withElement_accounted h ⟨rfl, rfl⟩
  | addTrigger => exact withElement_accounted h ⟨rfl, rfl⟩
  | removeObject removed => exact removeElement_accounted h removed
  | removeTrigger removed => exact removeElement_accounted h removed
  | addMesh => exact h
  | removeMesh => exact h
  | reset => exact reset_accounted h
  | collide ends => exact collide_accounted h ends
  | modifyObject here found =>
    obtain ⟨-, hactive, hshadow⟩ := keeps _ found
    exact setElement_accounted h (getElem?_of_findObject? here found) hactive hshadow
  | modifyTrigger here found =>
    exact setElement_accounted h (getElem?_of_findTrigger? here found) (keeps _ found).2 rfl

/-! ## §B Whole runs -/

/-- Contacts are accounted for in every run. -/
theorem Reachable.accounted {w : World α} (h : Reachable w) : w.Accounted := by
  induction h with
  | new config => exact new_accounted config
  | @step w _ r keeps ih =>
    rcases w.after_cases r with hgranted | hsame
    · exact granted_accounted ih keeps hgranted
    · exact hsame.symm ▸ ih

/-- The places of a world in which a contact can be: the lists of its elements, their shadows, and the stack
of free ones. -/
def places (w : World α) : List ContactId :=
  (w.elements.toList.flatMap fun e => w.pool.toList e.activeContacts) ++
    ((w.elements.toList.flatMap fun e => e.shadowContact.toList) ++ w.pool.free)

/-- Every contact of a world has one place. -/
structure EachOnce (w : World α) : Prop where
  /-- Following the list of an element from its head ends. -/
  ends : ∀ e ∈ w.elements, w.pool.Linked e.activeContacts (w.pool.toList e.activeContacts)
  /-- Every slot of the pool is that of one number in these places. -/
  once : ∀ i < w.pool.capacity, (w.places.map ContactId.index).count i = 1
  /-- The slots that are not in use are those of the free numbers. -/
  inUse : ∀ (i : Nat) (slot : ContactSlot α), w.pool.slots[i]? = some slot →
    (slot.inUse = false ↔ i ∈ w.pool.free.map ContactId.index)

/-- Where a contact is in a run, whatever the size of the pool: following the list of an element from its
head ends, every contact that is numbered has one place, and no other number has any. -/
theorem Reachable.places_perm {w : World α} (h : Reachable w) :
    (∀ e ∈ w.elements, w.pool.Linked e.activeContacts (w.pool.toList e.activeContacts)) ∧
    w.places.Perm (ContactPool.allIds w.pool.capacity) := by
  have hbalanced := h.accounted
  refine ⟨?_, ?_⟩
  · intro e he
    exact hbalanced.ends _ (List.mem_map_of_mem (Array.mem_toList_iff.mpr he))
  -- the balance is told of heads, this of elements
  · have honce := hbalanced.once
    rw [List.flatMap_map, ← hbalanced.capacity_eq] at honce
    exact honce

/-- A number occurs among the places as often as among those that are given out. -/
theorem Reachable.count_places {w : World α} (h : Reachable w) (i : Nat) :
    (w.places.map ContactId.index).count i = if i < w.pool.capacity % UInt32.size then 1 else 0 := by
  rw [(h.places_perm.2.map ContactId.index).count_eq, ContactPool.map_index_allIds]
  split
  · next hlt => exact List.count_eq_one_of_mem List.nodup_range (List.mem_range.mpr hlt)
  · next hge => exact List.count_eq_zero.mpr fun hmem => hge (List.mem_range.mp hmem)

/-- In a pool of which every contact is numbered, the slots not in use are those of the free numbers. -/
theorem Reachable.inUse_iff {w : World α} (h : Reachable w) (hnumbered : w.pool.capacity < UInt32.size)
    {i : Nat} {slot : ContactSlot α} (hslot : w.pool.slots[i]? = some slot) :
    slot.inUse = false ↔ i ∈ w.pool.free.map ContactId.index := by
  have hi : i < w.pool.capacity := (Array.getElem?_eq_some_iff.mp hslot).1
  have hindex := ContactId.index_ofNat (Nat.lt_trans hi hnumbered)
  have hsame : w.pool.slot ⟨UInt32.ofNat i⟩ = slot := by
    unfold ContactPool.slot
    rw [hindex, Array.getD_eq_getD_getElem?, hslot]
    rfl
  have hgiven : (⟨UInt32.ofNat i⟩ : ContactId) ∈ ContactPool.allIds w.config.contactPoolCapacity := by
    rw [← h.accounted.capacity_eq, ContactPool.mem_allIds, hindex, Nat.mod_eq_of_lt hnumbered]
    exact hi
  have hinUse := h.accounted.inUse ⟨UInt32.ofNat i⟩
  rw [hsame] at hinUse
  have hfree : i ∈ w.pool.free.map ContactId.index ↔ (⟨UInt32.ofNat i⟩ : ContactId) ∈ w.pool.free := by
    rw [← List.mem_map_of_injective ContactId.index_injective, hindex]
  rw [hfree, ← Bool.not_eq_true, hinUse, not_and_not_right]
  exact ⟨fun himp => himp hgiven, fun hmem _ => hmem⟩

/-- **When every contact has one place.** In a run there are as many contacts as the tunables ask for, the
lists of all elements end, every contact that is numbered occurs exactly once among these lists, the shadows
and the free contacts, and those in use are the numbered ones that are not free. So every contact of the pool
has one place, and those not in use are the free ones, exactly as long as there are fewer of them than 32 bits
count. -/
theorem Reachable.contacts_once {w : World α} (h : Reachable w) :
    w.pool.capacity = w.config.contactPoolCapacity ∧
    (∀ e ∈ w.elements, w.pool.Linked e.activeContacts (w.pool.toList e.activeContacts)) ∧
    w.places.Perm (ContactPool.allIds w.config.contactPoolCapacity) ∧
    (∀ contact, (w.pool.slot contact).inUse = true ↔
      contact ∈ ContactPool.allIds w.config.contactPoolCapacity ∧ contact ∉ w.pool.free) ∧
    (w.EachOnce ↔ w.config.contactPoolCapacity < UInt32.size) := by
  have hcapacity := h.accounted.capacity_eq
  obtain ⟨hends, hplaces⟩ := h.places_perm
  refine ⟨hcapacity, hends, hcapacity ▸ hplaces, h.accounted.inUse, ?_⟩
  rw [← hcapacity]
  constructor
  · intro honce
    by_contra hmany
    -- the last contact has no number
    have hlast := honce.once (w.pool.capacity - 1) (by have : 0 < UInt32.size := (by decide); omega)
    rw [h.count_places] at hlast
    have hmod := Nat.mod_lt w.pool.capacity (show 0 < UInt32.size by decide)
    split at hlast <;> omega
  · intro hnumbered
    refine ⟨hends, fun i hi => ?_, fun i slot hslot => h.inUse_iff hnumbered hslot⟩
    rw [h.count_places, Nat.mod_eq_of_lt hnumbered, if_pos hi]

/-- A world that is to have 2³² contacts has them, but none is ever given out: each is in none of the places
that there are. -/
theorem new_not_eachOnce :
    let w : World Float32 := World.new { Config.standard with contactPoolCapacity := 4294967296 }
    Reachable w ∧ w.pool.capacity = 4294967296 ∧ w.places = [] ∧
      (∀ contact, w.pool.allocate? contact = none) ∧ ¬w.EachOnce := by
  intro w
  have hcapacity : w.pool.capacity = 4294967296 := Array.size_replicate
  have hfree : w.pool.free = [] := rfl
  have hplaces : w.places = [] := by
    unfold places
    rw [hfree]
    rfl
  refine ⟨.new _, hcapacity, hplaces, fun contact => ?_, fun honce => ?_⟩
  · unfold ContactPool.allocate?
    rw [hfree]
  · have hfirst := honce.once 0 (by rw [hcapacity]; decide)
    rw [hplaces] at hfirst
    cases hfirst

/-- A floor is added to a world with room for three contacts, and a ball high above it. -/
def ballOverFloor : World Float32 :=
  ((World.new { Config.standard with contactPoolCapacity := 3 }).after (.addMesh floorMesh)).after
    (.addObject (.create ⟨1⟩ ⟨.sphere 1, 0, 0, 0⟩ Layers.all ⟨0, 5, 0⟩ none))

theorem ballOverFloor_reachable : Reachable ballOverFloor := by
  unfold ballOverFloor
  exact ((Reachable.new _).step (.addMesh _) trivial).step (.addObject _) trivial

/-- In a tick the ball takes a contact for its shadow on the floor. -/
theorem ballOverFloor_collide : ∃ outcome, ballOverFloor.collide = .ok outcome ∧
    outcome.world.config.contactPoolCapacity = 3 ∧ outcome.world.pool.free.length = 2 := by
  have hboth : (ballOverFloor.collide.toOption.map fun outcome =>
      (outcome.world.config.contactPoolCapacity, outcome.world.pool.free.length)) = some (3, 2) := by
    rw [collide_of_single (by decide +kernel)]
    decide +kernel
  obtain ⟨outcome, hcollide, heq⟩ := exists_eq_ok_of_map hboth
  exact ⟨outcome, hcollide, Prod.mk.inj heq⟩

/-- The world after the tick has three contacts, and each of them has one place. -/
theorem ballOverFloor_contacts_once : ∃ outcome, ballOverFloor.collide = .ok outcome ∧
    Reachable outcome.world ∧ outcome.world.pool.free.length = 2 ∧ outcome.world.pool.capacity = 3 ∧
    outcome.world.places.Perm (ContactPool.allIds 3) ∧ outcome.world.EachOnce := by
  obtain ⟨outcome, hcollide, hconfig, hfree⟩ := ballOverFloor_collide
  have hafter : Reachable outcome.world := by
    rw [← after_collide hcollide]
    exact ballOverFloor_reachable.step .collide trivial
  obtain ⟨hcapacity, -, hplaces, -, honce⟩ := Reachable.contacts_once hafter
  rw [hconfig] at hcapacity hplaces honce
  exact ⟨outcome, hcollide, hafter, hfree, hcapacity, hplaces, honce.mpr (by decide)⟩

end ConvexCollision.World
