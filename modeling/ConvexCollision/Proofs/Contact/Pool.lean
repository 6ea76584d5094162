import Mathlib.Data.List.Nodup
import Mathlib.Data.List.Perm.Basic
import ConvexCollision.Contact

/-!
# ConvexCollision.Proofs.Contact.Pool -- every contact has one place

`Balanced` is what the pool and those who hold contacts of it have to agree on: every contact is on one
of the lists, or held alone, or free, and in one of these places only. It is stated of the heads of the
lists and of the contacts that are held alone, whoever holds them, so that each operation of the pool is
one lemma: a contact is taken (`take`), put in front of a list (`link`), or given back (`release`). The
contact in front of a list may as well be seen as held alone next to the rest of it (`cons_some_iff`).
What the rest of a world does to contacts is made of these.
-/

namespace ConvexCollision

/-! ## §A Numbers and slots -/

theorem ContactId.index_injective : Function.Injective ContactId.index := by
  rintro ⟨m⟩ ⟨n⟩ h
  exact congrArg ContactId.mk (UInt32.toNat_inj.mp h)

theorem ContactId.index_ofNat {i : Nat} (h : i < UInt32.size) :
    (ContactId.mk (UInt32.ofNat i)).index = i := UInt32.toNat_ofNat_of_lt' h

namespace ContactPool

variable {α : Type} [Scalar α]

section Slots

variable {p : ContactPool α} {id other : ContactId} {f : ContactSlot α → ContactSlot α}

theorem slot_modifySlot_self (h : id.index < p.capacity) :
    (p.modifySlot id f).slot id = f (p.slot id) := by
  unfold slot modifySlot
  simp only [Array.getD_eq_getD_getElem?, Array.getElem?_modify, if_pos]
  rw [Array.getElem?_eq_getElem h]
  rfl

theorem slot_modifySlot_of_ne (h : other ≠ id) : (p.modifySlot id f).slot other = p.slot other := by
  have hindex : id.index ≠ other.index := fun heq => h (ContactId.index_injective heq.symm)
  unfold slot modifySlot
  simp only [Array.getD_eq_getD_getElem?, Array.getElem?_modify, if_neg hindex]

omit [Scalar α] in
theorem modifySlot_of_le (h : p.capacity ≤ id.index) : p.modifySlot id f = p := by
  have hslots : p.slots.modify id.index f = p.slots := by
    refine Array.ext_getElem? fun k => ?_
    rw [Array.getElem?_modify]
    split
    · next heq =>
      rw [Array.getElem?_eq_none (heq ▸ h)]
      rfl
    · rfl
  unfold modifySlot
  rw [hslots]

theorem slot_congr {p q : ContactPool α} (h : q.slots = p.slots) (id : ContactId) :
    q.slot id = p.slot id := by
  unfold slot
  rw [h]

omit [Scalar α] in
theorem capacity_modifySlot : (p.modifySlot id f).capacity = p.capacity := by
  unfold capacity modifySlot
  exact Array.size_modify

theorem slot_release_of_ne (h : other ≠ id) : (p.release id).slot other = p.slot other := by
  unfold release
  split
  · exact slot_modifySlot_of_ne h
  · rfl

end Slots

/-- The places of the numbers that are given out: as many as the low 32 bits of the size count. -/
theorem map_index_allIds (n : Nat) : (allIds n).map ContactId.index = List.range (n % UInt32.size) := by
  unfold allIds
  rw [List.map_map, UInt32.toNat_ofNat']
  have hindex : ∀ i ∈ List.range (n % UInt32.size), (ContactId.mk (UInt32.ofNat i)).index = i := fun i hi =>
    ContactId.index_ofNat (Nat.lt_trans (List.mem_range.mp hi) (Nat.mod_lt n (by decide)))
  exact (List.map_congr_left hindex).trans (List.map_id' _)

theorem mem_allIds {n : Nat} {id : ContactId} : id ∈ allIds n ↔ id.index < n % UInt32.size := by
  rw [← List.mem_range, ← map_index_allIds, List.mem_map_of_injective ContactId.index_injective]

theorem nodup_allIds (n : Nat) : (allIds n).Nodup := by
  refine List.Nodup.of_map ContactId.index ?_
  rw [map_index_allIds]
  exact List.nodup_range

theorem length_allIds_le (n : Nat) : (allIds n).length ≤ n := by
  rw [← List.length_map ContactId.index, map_index_allIds, List.length_range]
  exact Nat.mod_le n _

/-! ## §B Lists that end -/

/-- The list with this head ends, and these are its contacts. -/
inductive Linked (p : ContactPool α) : Option ContactId → List ContactId → Prop
  /-- The list without contacts. -/
  | nil : Linked p none []
  /-- A contact, and the list that it names. -/
  | cons {id : ContactId} {ids : List ContactId} (rest : Linked p (p.slot id).next ids) :
      Linked p (some id) (id :: ids)

section Linked

variable {p q : ContactPool α} {head : Option ContactId} {ids : List ContactId}

/-- A list depends only on which contact each of its contacts names. -/
theorem Linked.congr (h : Linked p head ids)
    (hnext : ∀ id ∈ ids, (q.slot id).next = (p.slot id).next) : Linked q head ids := by
  induction h with
  | nil => exact .nil
  | @cons id ids rest ih =>
    refine .cons ?_
    rw [hnext id List.mem_cons_self]
    exact ih fun other hother => hnext other (List.mem_cons_of_mem id hother)

/-- A list has only these contacts. -/
theorem Linked.unique (h : Linked p head ids) {others : List ContactId}
    (g : Linked p head others) : ids = others := by
  induction h generalizing others with
  | nil =>
    cases g
    rfl
  | cons rest ih =>
    cases g with
    | cons rest' => rw [ih rest']

/-- Following a list that ends for long enough gives all of it. -/
theorem Linked.chain_eq (h : Linked p head ids) {limit : Nat} (hlimit : ids.length ≤ limit) :
    p.chain limit head = ids := by
  induction h generalizing limit with
  | nil => cases limit <;> rfl
  | cons rest ih =>
    cases limit with
    | zero => exact absurd hlimit (Nat.not_succ_le_zero _)
    | succ limit => rw [chain, ih (Nat.le_of_succ_le_succ hlimit)]

theorem length_chain_le (limit : Nat) (head : Option ContactId) :
    (p.chain limit head).length ≤ limit := by
  induction limit generalizing head with
  | zero => exact Nat.le_refl 0
  | succ limit ih =>
    cases head with
    | none => exact Nat.zero_le _
    | some id => exact Nat.succ_le_succ (ih _)

/-- A list that is no longer than the pool is all of what is followed from its head. -/
theorem Linked.toList_eq (h : Linked p head ids) (hlength : ids.length ≤ p.capacity) :
    p.toList head = ids := h.chain_eq hlength

end Linked

/-! ## §C Balance -/

/-- Every numbered contact of the pool has one place: on the list with one of the given heads, among the
given contacts that are held alone, or on the stack of free ones. Those on the stack are not in use, and
all others of them are. -/
structure Balanced (n : Nat) (p : ContactPool α) (heads : List (Option ContactId))
    (loose : List ContactId) : Prop where
  /-- So many contacts there are. -/
  capacity_eq : p.capacity = n
  /-- The lists end. -/
  ends : ∀ head ∈ heads, Linked p head (p.toList head)
  /-- Every numbered contact occurs once among the lists, the contacts held alone and the free ones. -/
  once : (heads.flatMap p.toList ++ (loose ++ p.free)).Perm (allIds n)
  /-- The contacts in use are the numbered ones that are not free. -/
  inUse : ∀ id, (p.slot id).inUse = true ↔ id ∈ allIds n ∧ id ∉ p.free

namespace Balanced

variable {n : Nat} {p q : ContactPool α} {heads heads' : List (Option ContactId)}
  {loose loose' : List ContactId} {head : Option ContactId} {id : ContactId}

theorem nodup (h : Balanced n p heads loose) :
    (heads.flatMap p.toList ++ (loose ++ p.free)).Nodup :=
  h.once.nodup_iff.mpr (nodup_allIds n)

/-- The holders may be named in any order. -/
theorem perm (h : Balanced n p heads loose) (hheads : heads.Perm heads')
    (hloose : loose.Perm loose') : Balanced n p heads' loose' := by
  refine ⟨h.capacity_eq, fun head hhead => h.ends head (hheads.mem_iff.mpr hhead), ?_, h.inUse⟩
  exact ((hheads.flatMap_right _).append (hloose.append_right _)).symm.trans h.once

/-- Whoever holds no list can be named or left out. -/
theorem cons_none_iff :
    Balanced n p (none :: heads) loose ↔ Balanced n p heads loose := by
  have hnil : p.toList none = [] := by
    unfold toList
    cases p.capacity <;> rfl
  constructor
  · intro h
    refine ⟨h.capacity_eq, fun head hhead => h.ends head (List.mem_cons_of_mem none hhead), ?_, h.inUse⟩
    have honce := h.once
    rwa [List.flatMap_cons, hnil, List.nil_append] at honce
  · intro h
    refine ⟨h.capacity_eq, ?_, ?_, h.inUse⟩
    · intro head hhead
      rcases List.mem_cons.mp hhead with rfl | hhead
      · rw [hnil]
        exact .nil
      · exact h.ends head hhead
    · rw [List.flatMap_cons, hnil, List.nil_append]
      exact h.once

/-- The number of a contact that has a place is below the size of the pool. -/
theorem index_lt (h : Balanced n p heads loose)
    (hid : id ∈ heads.flatMap p.toList ++ (loose ++ p.free)) : id.index < p.capacity := by
  rw [h.once.mem_iff, mem_allIds] at hid
  rw [h.capacity_eq]
  exact Nat.lt_of_lt_of_le hid (Nat.mod_le n _)

/-- A contact that has a place outside of the lists is on none of them. -/
theorem not_mem_lists (h : Balanced n p heads loose) (hid : id ∈ loose ++ p.free) :
    id ∉ heads.flatMap p.toList := fun hmem =>
  (List.nodup_append.mp h.nodup).2.2 id hmem id hid rfl

/-! ## §D Changing one slot -/

/-- The pool stays balanced when a slot changes whose contact is on no list, or keeps its place there,
and the stack changes by what is no longer held alone. -/
theorem of_slot (h : Balanced n p heads loose) (id : ContactId) (hcapacity : q.capacity = p.capacity)
    (hother : ∀ other, other ≠ id → q.slot other = p.slot other)
    (hnext : id ∈ heads.flatMap p.toList → (q.slot id).next = (p.slot id).next)
    (hplaces : (loose' ++ q.free).Perm (loose ++ p.free))
    (hfree : ∀ other, other ≠ id → (other ∈ q.free ↔ other ∈ p.free))
    (hinUse : (q.slot id).inUse = true ↔ id ∈ allIds n ∧ id ∉ q.free) :
    Balanced n q heads loose' := by
  -- every list is still the same: the slot is on none of them, or names the same contact
  have hlist : ∀ head ∈ heads, Linked q head (p.toList head) ∧ q.toList head = p.toList head := by
    intro head hhead
    have hlinked : Linked q head (p.toList head) := (h.ends head hhead).congr fun other hmem => by
      have hlisted := List.mem_flatMap.mpr ⟨head, hhead, hmem⟩
      by_cases hid : other = id
      · subst hid
        exact hnext hlisted
      · rw [hother other hid]
    refine ⟨hlinked, hlinked.toList_eq ?_⟩
    rw [hcapacity]
    exact length_chain_le _ _
  have hlists : heads.flatMap q.toList = heads.flatMap p.toList :=
    List.flatMap_congr fun head hhead => (hlist head hhead).2
  refine ⟨hcapacity.trans h.capacity_eq, ?_, ?_, ?_⟩
  · intro head hhead
    rw [(hlist head hhead).2]
    exact (hlist head hhead).1
  · rw [hlists]
    exact (List.Perm.append_left _ hplaces).trans h.once
  · intro other
    by_cases hid : other = id
    · subst hid
      exact hinUse
    · rw [hother other hid, h.inUse other, hfree other hid]

/-- A contact in front of a list is as well held alone, next to the list that it names. -/
theorem cons_some_iff : Balanced n p (some id :: heads) loose ↔
    Balanced n p ((p.slot id).next :: heads) (id :: loose) := by
  constructor
  · intro h
    have hlinked := h.ends (some id) List.mem_cons_self
    generalize hids : p.toList (some id) = ids at hlinked
    cases hlinked with
    | @cons _ ids rest =>
      -- the rest of the list is shorter than the pool, so following it gives all of it
      have hlength := length_chain_le (p := p) p.capacity (some id)
      rw [show p.chain p.capacity (some id) = id :: ids from hids] at hlength
      have hrest : p.toList (p.slot id).next = ids := rest.toList_eq (Nat.le_of_succ_le hlength)
      refine ⟨h.capacity_eq, ?_, ?_, h.inUse⟩
      · intro head hmem
        rcases List.mem_cons.mp hmem with rfl | hmem
        · rw [hrest]
          exact rest
        · exact h.ends head (List.mem_cons_of_mem _ hmem)
      · have honce := h.once
        rw [List.flatMap_cons, hids] at honce
        rw [List.flatMap_cons, hrest]
        exact List.perm_middle.trans honce
  · intro h
    have hlinked : Linked p (some id) (id :: p.toList (p.slot id).next) :=
      .cons (h.ends _ List.mem_cons_self)
    -- the list is no longer than the pool, since its contacts are all different
    have hlist : p.toList (some id) = id :: p.toList (p.slot id).next := by
      refine hlinked.toList_eq ?_
      have hlength := h.once.length_eq
      have hnumbered := length_allIds_le n
      simp only [List.flatMap_cons, List.length_append, List.length_cons] at hlength
      rw [h.capacity_eq, List.length_cons]
      omega
    refine ⟨h.capacity_eq, ?_, ?_, h.inUse⟩
    · intro head hmem
      rcases List.mem_cons.mp hmem with rfl | hmem
      · rw [hlist]
        exact hlinked
      · exact h.ends head (List.mem_cons_of_mem _ hmem)
    · have honce := h.once
      rw [List.flatMap_cons] at honce
      rw [List.flatMap_cons, hlist]
      exact List.perm_middle.symm.trans honce

/-! ## §E What the operations do to it -/

/-- A contact is taken from the stack and held alone. -/
theorem take (h : Balanced n p heads loose) {contact : Contact α}
    (hq : p.allocate? contact = some (q, id)) : Balanced n q heads (id :: loose) := by
  unfold allocate? at hq
  split at hq
  · cases hq
  next top free hfree =>
  cases hq
  have hmem : id ∈ loose ++ p.free := by simp [hfree]
  -- the stack names no contact twice, so the one on its top is gone from it
  have hnotfree : id ∉ free := by
    have hnodup := (List.nodup_append.mp (List.nodup_append.mp h.nodup).2.1).2.1
    rw [hfree] at hnodup
    exact (List.nodup_cons.mp hnodup).1
  refine h.of_slot id capacity_modifySlot (fun other hne => slot_modifySlot_of_ne hne)
    (fun hlisted => absurd hlisted (h.not_mem_lists hmem)) ?_ ?_ ?_
  · rw [hfree]
    exact List.perm_middle.symm
  · intro other hne
    rw [hfree, List.mem_cons, or_iff_right hne]
    rfl
  · have hlt := h.index_lt (List.mem_append_right _ hmem)
    have hself : ({ p with free }.modifySlot id fun _ => ⟨contact, none, true⟩ :
        ContactPool α).slot id = ⟨contact, none, true⟩ := slot_modifySlot_self hlt
    rw [hself]
    exact ⟨fun _ => ⟨h.once.mem_iff.mp (List.mem_append_right _ hmem), hnotfree⟩, fun _ => rfl⟩

/-- A contact held alone is put in front of a list. -/
theorem link (h : Balanced n p (head :: heads) (id :: loose)) :
    Balanced n (p.linkFront head id) (some id :: heads) loose := by
  have hmem : id ∈ (id :: loose) ++ p.free := List.mem_cons_self
  have hself : (p.linkFront head id).slot id = { p.slot id with next := head } :=
    slot_modifySlot_self (h.index_lt (List.mem_append_right _ hmem))
  rw [cons_some_iff, hself]
  refine h.of_slot id capacity_modifySlot (fun other hne => slot_modifySlot_of_ne hne)
    (fun hlisted => absurd hlisted (h.not_mem_lists hmem)) (List.Perm.refl _) (fun _ _ => Iff.rfl) ?_
  rw [hself]
  exact h.inUse id

/-- A contact held alone is given back. -/
theorem release (h : Balanced n p heads (id :: loose)) : Balanced n (p.release id) heads loose := by
  have hmem : id ∈ (id :: loose) ++ p.free := List.mem_cons_self
  have hlt := h.index_lt (List.mem_append_right _ hmem)
  have hnotfree : id ∉ p.free := by
    have hnodup := (List.nodup_append.mp h.nodup).2.1
    rw [List.cons_append, List.nodup_cons] at hnodup
    exact fun hfree => hnodup.1 (List.mem_append_right _ hfree)
  -- a contact that is held is in use, so that giving it back is not refused
  have htaken : (p.slot id).inUse = true :=
    (h.inUse id).mpr ⟨h.once.mem_iff.mp (List.mem_append_right _ hmem), hnotfree⟩
  have hrelease : (p.release id).slots =
      (p.modifySlot id fun s => { s with next := none, inUse := false }).slots ∧
      (p.release id).free = id :: p.free := by
    unfold ContactPool.release
    rw [if_pos htaken]
    exact ⟨rfl, rfl⟩
  have hself : (p.release id).slot id = { p.slot id with next := none, inUse := false } :=
    (slot_congr hrelease.1 id).trans (slot_modifySlot_self hlt)
  refine h.of_slot id ?_ ?_ (fun hlisted => absurd hlisted (h.not_mem_lists hmem)) ?_ ?_ ?_
  · unfold capacity
    rw [hrelease.1]
    exact capacity_modifySlot
  · exact fun other hne => slot_release_of_ne hne
  · rw [hrelease.2]
    exact List.perm_middle
  · intro other hne
    rw [hrelease.2, List.mem_cons, or_iff_right hne]
  · rw [hself, hrelease.2]
    exact ⟨fun hfalse => absurd hfalse Bool.false_ne_true, fun hnew => absurd List.mem_cons_self hnew.2⟩

/-- Overwriting a contact moves nothing. -/
theorem set (h : Balanced n p heads loose) (id : ContactId) (contact : Contact α) :
    Balanced n (p.set id contact) heads loose := by
  by_cases hlt : id.index < p.capacity
  · have hself : (p.set id contact).slot id = { p.slot id with contact } := slot_modifySlot_self hlt
    refine h.of_slot id capacity_modifySlot (fun other hne => slot_modifySlot_of_ne hne) ?_
      (List.Perm.refl _) (fun _ _ => Iff.rfl) ?_
    · intro _
      rw [hself]
    · rw [hself]
      exact h.inUse id
  · rw [show p.set id contact = p from modifySlot_of_le (Nat.le_of_not_lt hlt)]
    exact h

/-- The contacts of a list are given back one by one. -/
theorem releaseChain (h : Balanced n p (head :: heads) loose) {ids : List ContactId}
    (hlinked : Linked p head ids) {links : Nat} (hlinks : ids.length ≤ links) :
    Balanced n (ContactPool.releaseChain links head p) heads loose := by
  -- on the contacts of the list: the first one is given back, the rest is a shorter list
  -- of a pool that has changed only there
  induction ids generalizing p head links with
  | nil =>
    cases hlinked
    have hdone : ContactPool.releaseChain links none p = p := by cases links <;> rfl
    rw [hdone]
    exact cons_none_iff.mp h
  | cons id ids ih =>
    cases hlinked with
    | cons rest =>
    cases links with
    | zero => exact absurd hlinks (Nat.not_succ_le_zero _)
    | succ links =>
      have halone := cons_some_iff.mp h
      refine ih halone.release (rest.congr ?_) (Nat.le_of_succ_le_succ hlinks)
      intro other hother
      rw [slot_release_of_ne]
      rintro rfl
      refine halone.not_mem_lists
        (show other ∈ (other :: loose) ++ p.free from List.mem_cons_self) ?_
      rw [List.flatMap_cons, (halone.ends _ List.mem_cons_self).unique rest]
      exact List.mem_append_left _ hother

/-- A whole list is given back. -/
theorem returnContacts (h : Balanced n p (head :: heads) loose) :
    Balanced n (p.returnContacts head) heads loose := by
  refine h.releaseChain (h.ends head List.mem_cons_self) ?_
  -- the limit of steps is far above the length of any list
  calc (p.toList head).length ≤ p.capacity := length_chain_le _ _
    _ ≤ p.capacity + 1 := Nat.le_succ _
    _ ≤ (p.capacity + 1) * (p.capacity + 1) := Nat.le_mul_of_pos_left _ (Nat.succ_pos _)

end Balanced

/-- A pool in which no contact is in use and all numbered ones are free is balanced when nobody holds
anything. -/
theorem balanced_of_unused {n : Nat} {p : ContactPool α} (hcapacity : p.capacity = n)
    (hfree : p.free = allIds n) (hunused : ∀ id, (p.slot id).inUse = false) : Balanced n p [] [] := by
  refine ⟨hcapacity, fun head hhead => absurd hhead List.not_mem_nil, List.Perm.of_eq hfree, ?_⟩
  intro id
  rw [hunused id, hfree]
  exact ⟨fun hfalse => absurd hfalse Bool.false_ne_true, fun hnew => absurd hnew.1 hnew.2⟩

theorem balanced_ofCapacity (n : Nat) : Balanced n (ofCapacity n : ContactPool α) [] [] := by
  refine balanced_of_unused Array.size_replicate rfl fun id => ?_
  unfold slot ofCapacity
  rw [Array.getD_eq_getD_getElem?, Array.getElem?_replicate]
  split <;> rfl

/-- So is a pool that was cleared, whatever became of it before. -/
theorem balanced_clear {n : Nat} {p : ContactPool α} (h : p.capacity = n) :
    Balanced n p.clear [] [] := by
  refine balanced_of_unused (Array.size_map.trans h) (congrArg allIds h) fun id => ?_
  unfold slot clear
  rw [Array.getD_eq_getD_getElem?, Array.getElem?_map]
  cases p.slots[id.index]? <;> rfl

end ContactPool

end ConvexCollision
