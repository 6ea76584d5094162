import ConvexCollision.Proofs.Contact.Pool

/-!
# ConvexCollision.Proofs.Contact.Booked -- what the lists of a pool hold

`Balanced` says where the contacts of a pool are, not what they say. `Booked` adds that: next to the
head of every list stand the contacts that it holds, first to last. Each operation of the pool is again
one lemma. It says what is added to, or taken from, the list that the operation is about, and that all
other lists keep what they hold. Since no contact is on two lists, overwriting a contact held alone
changes none of them.
-/

namespace ConvexCollision.ContactPool

variable {α : Type} [Scalar α]

/-! ## §A Books -/

/-- The contacts of the list with a head, first to last. -/
def contacts (p : ContactPool α) (head : Option ContactId) : List (Contact α) :=
  (p.toList head).map p.get

/-- The pool is balanced, and the lists of the given heads hold the contacts next to them. -/
structure Booked (n : Nat) (p : ContactPool α) (books : List (Option ContactId × List (Contact α)))
    (loose : List ContactId) : Prop where
  /-- Every contact has one place. -/
  balanced : p.Balanced n (books.map Prod.fst) loose
  /-- The lists hold these contacts. -/
  contents : ∀ b ∈ books, p.contacts b.1 = b.2

theorem contacts_none (p : ContactPool α) : p.contacts none = [] := by
  unfold contacts toList
  cases p.capacity <;> rfl

/-- What the lists of a balanced pool hold can be put on the books. -/
theorem Balanced.booked {n : Nat} {p : ContactPool α} {heads : List (Option ContactId)}
    {loose : List ContactId} (h : p.Balanced n heads loose) :
    p.Booked n (heads.map fun head => (head, p.contacts head)) loose := by
  refine ⟨?_, ?_⟩
  · rw [List.map_map]
    simpa [Function.comp_def] using h
  · intro b hb
    obtain ⟨head, -, rfl⟩ := List.mem_map.mp hb
    rfl

/-- What a step does to the books it does to the balance: the holders that it is about hold other
lists, and the rest hold what they held. -/
theorem Balanced.step {n : Nat} {p q : ContactPool α} {head head' : Option ContactId}
    {heads : List (Option ContactId)} {loose loose' : List ContactId}
    (h : p.Balanced n (head :: heads) loose)
    (hstep : ∀ cs books, p.Booked n ((head, cs) :: books) loose →
      ∃ cs', q.Booked n ((head', cs') :: books) loose') : q.Balanced n (head' :: heads) loose' := by
  obtain ⟨cs', hbooked⟩ := hstep _ _ h.booked
  simpa [Function.comp_def] using hbooked.balanced

theorem Balanced.step_pair {n : Nat} {p q : ContactPool α} {head head' next next' : Option ContactId}
    {heads : List (Option ContactId)} {loose : List ContactId}
    (h : p.Balanced n (head :: next :: heads) loose)
    (hstep : ∀ cs ds books, p.Booked n ((head, cs) :: (next, ds) :: books) loose →
      ∃ cs' ds', q.Booked n ((head', cs') :: (next', ds') :: books) loose) :
    q.Balanced n (head' :: next' :: heads) loose := by
  obtain ⟨cs', ds', hbooked⟩ := hstep _ _ _ h.booked
  simpa [Function.comp_def] using hbooked.balanced

/-- The list behind a contact that is in front of it. -/
theorem Linked.toList_eq_cons {p : ContactPool α} {id : ContactId}
    (hfront : p.Linked (some id) (p.toList (some id)))
    (hrest : p.Linked (p.slot id).next (p.toList (p.slot id).next)) :
    p.toList (some id) = id :: p.toList (p.slot id).next :=
  hfront.unique (.cons hrest)

namespace Booked

variable {n : Nat} {p q : ContactPool α} {books books' : List (Option ContactId × List (Contact α))}
  {loose loose' : List ContactId} {head : Option ContactId} {cs : List (Contact α)} {id : ContactId}

/-- The holders may be named in any order. -/
theorem perm (h : p.Booked n books loose) (hbooks : books.Perm books') (hloose : loose.Perm loose') :
    p.Booked n books' loose' :=
  ⟨h.balanced.perm (hbooks.map _) hloose, fun b hb => h.contents b (hbooks.mem_iff.mpr hb)⟩

/-- Whoever holds no list can be named or left out. -/
theorem cons_none_iff : p.Booked n ((none, []) :: books) loose ↔ p.Booked n books loose := by
  constructor
  · intro h
    exact ⟨Balanced.cons_none_iff.mp h.balanced, fun b hb => h.contents b (List.mem_cons_of_mem _ hb)⟩
  · intro h
    refine ⟨Balanced.cons_none_iff.mpr h.balanced, ?_⟩
    intro b hb
    rcases List.mem_cons.mp hb with rfl | hb
    · exact contacts_none p
    · exact h.contents b hb

/-- The books stay right when the slots of the contacts that are on them stay what they were. -/
theorem congr (h : p.Booked n books loose) (hbalanced : q.Balanced n (books.map Prod.fst) loose')
    (hslot : ∀ id ∈ (books.map Prod.fst).flatMap p.toList, q.slot id = p.slot id) :
    q.Booked n books loose' := by
  refine ⟨hbalanced, ?_⟩
  intro b hb
  have hhead := List.mem_map_of_mem (f := Prod.fst) hb
  have hlisted : ∀ id ∈ p.toList b.1, q.slot id = p.slot id := fun id hid =>
    hslot id (List.mem_flatMap.mpr ⟨b.1, hhead, hid⟩)
  -- the list is the same, since each of its contacts still names the same one
  have hsame : q.Linked b.1 (p.toList b.1) := (h.balanced.ends b.1 hhead).congr fun id hid => by
    rw [hlisted id hid]
  rw [← h.contents b hb]
  unfold contacts
  rw [(hbalanced.ends b.1 hhead).unique hsame]
  exact List.map_congr_left fun id hid => congrArg ContactSlot.contact (hlisted id hid)

/-- The books stay right when one slot changes, of a contact that is not on them. -/
theorem of_slot (h : p.Booked n books loose) (hbalanced : q.Balanced n (books.map Prod.fst) loose')
    (hid : id ∈ loose ++ p.free) (hother : ∀ other, other ≠ id → q.slot other = p.slot other) :
    q.Booked n books loose' := by
  refine h.congr hbalanced ?_
  intro other hlisted
  refine hother other ?_
  rintro rfl
  exact h.balanced.not_mem_lists hid hlisted

/-! ## §B What the operations add and take -/

/-- A contact is taken from the stack and held alone. -/
theorem take (h : p.Booked n books loose) {contact : Contact α}
    (hq : p.allocate? contact = some (q, id)) :
    q.Booked n books (id :: loose) ∧ q.get id = contact := by
  have hbalanced := h.balanced.take hq
  unfold allocate? at hq
  split at hq
  · cases hq
  next top free hfree =>
  cases hq
  have hmem : id ∈ loose ++ p.free := by simp [hfree]
  refine ⟨h.of_slot hbalanced hmem fun other hne => slot_modifySlot_of_ne hne, ?_⟩
  have hlt := h.balanced.index_lt (List.mem_append_right _ hmem)
  have hself : ({ p with free }.modifySlot id fun _ => ⟨contact, none, true⟩ :
      ContactPool α).slot id = ⟨contact, none, true⟩ := slot_modifySlot_self hlt
  unfold get
  rw [hself]

/-- A contact held alone is put in front of a list. -/
theorem link (h : p.Booked n ((head, cs) :: books) (id :: loose)) :
    (p.linkFront head id).Booked n ((some id, p.get id :: cs) :: books) loose := by
  have hmem : id ∈ (id :: loose) ++ p.free := List.mem_cons_self
  have hself : (p.linkFront head id).slot id = { p.slot id with next := head } :=
    slot_modifySlot_self (h.balanced.index_lt (List.mem_append_right _ hmem))
  have hlinked : (p.linkFront head id).Balanced n (some id :: books.map Prod.fst) loose :=
    h.balanced.link
  have halone := Balanced.cons_some_iff.mp hlinked
  have hlist := (hlinked.ends _ List.mem_cons_self).toList_eq_cons (halone.ends _ List.mem_cons_self)
  rw [hself] at halone hlist
  have hrest : (p.linkFront head id).Booked n ((head, cs) :: books) (id :: loose) :=
    h.of_slot halone hmem fun other hne => slot_modifySlot_of_ne hne
  refine ⟨hlinked, ?_⟩
  intro b hb
  rcases List.mem_cons.mp hb with rfl | hb
  · unfold contacts
    rw [hlist, List.map_cons]
    refine congrArg₂ List.cons ?_ (hrest.contents _ List.mem_cons_self)
    unfold get
    rw [hself]
  · exact hrest.contents b (List.mem_cons_of_mem _ hb)

/-- A contact is taken from the stack and put in front of a list. -/
theorem pushFront (h : p.Booked n ((head, cs) :: books) loose) {contact : Contact α}
    (hq : p.pushFront? head contact = some (q, id)) :
    q.Booked n ((some id, contact :: cs) :: books) loose := by
  unfold pushFront? at hq
  obtain ⟨⟨r, id'⟩, htake, heq⟩ := Option.map_eq_some_iff.mp hq
  cases heq
  obtain ⟨htaken, hcontact⟩ := h.take htake
  have hlinked := htaken.link
  rwa [hcontact] at hlinked

/-- The contact in front of a list is as well held alone, next to the rest of the list. -/
theorem uncons (h : p.Booked n ((some id, cs) :: books) loose) :
    ∃ rest, cs = p.get id :: rest ∧ p.Booked n (((p.slot id).next, rest) :: books) (id :: loose) := by
  have halone := Balanced.cons_some_iff.mp h.balanced
  have hlist := (h.balanced.ends _ List.mem_cons_self).toList_eq_cons
    (halone.ends _ List.mem_cons_self)
  refine ⟨p.contacts (p.slot id).next, ?_, halone, ?_⟩
  · have hcs := h.contents _ List.mem_cons_self
    unfold contacts at hcs
    rw [hlist, List.map_cons] at hcs
    exact hcs.symm
  · intro b hb
    rcases List.mem_cons.mp hb with rfl | hb
    · rfl
    · exact h.contents b (List.mem_cons_of_mem _ hb)

/-- A contact held alone is given back. -/
theorem release (h : p.Booked n books (id :: loose)) : (p.release id).Booked n books loose :=
  h.of_slot h.balanced.release (show id ∈ (id :: loose) ++ p.free from List.mem_cons_self)
    fun _ hne => slot_release_of_ne hne

/-- A contact held alone is overwritten. -/
theorem set (h : p.Booked n books (id :: loose)) (contact : Contact α) :
    (p.set id contact).Booked n books (id :: loose) ∧ (p.set id contact).get id = contact := by
  have hmem : id ∈ (id :: loose) ++ p.free := List.mem_cons_self
  refine ⟨h.of_slot (h.balanced.set id contact) hmem fun other hne => slot_modifySlot_of_ne hne, ?_⟩
  have hself : (p.set id contact).slot id = { p.slot id with contact } :=
    slot_modifySlot_self (h.balanced.index_lt (List.mem_append_right _ hmem))
  unfold get
  rw [hself]

/-- The contacts of a list are given back one by one. -/
theorem releaseChain (h : p.Booked n ((head, cs) :: books) loose) {links : Nat}
    (hlinks : cs.length ≤ links) :
    (ContactPool.releaseChain links head p).Booked n books loose := by
  -- on the contacts of the list, the first of which is given back
  induction cs generalizing p head links with
  | nil =>
    cases head with
    | none =>
      have hdone : ContactPool.releaseChain links none p = p := by cases links <;> rfl
      rw [hdone]
      exact cons_none_iff.mp h
    | some id =>
      obtain ⟨rest, hcs, -⟩ := h.uncons
      cases hcs
  | cons c cs ih =>
    cases head with
    | none =>
      have hcs := h.contents _ List.mem_cons_self
      rw [contacts_none] at hcs
      cases hcs
    | some id =>
      cases links with
      | zero => exact absurd hlinks (Nat.not_succ_le_zero _)
      | succ links =>
        obtain ⟨rest, hcs, halone⟩ := h.uncons
        cases hcs
        exact ih halone.release (Nat.le_of_succ_le_succ hlinks)

/-- A whole list is given back. -/
theorem returnContacts (h : p.Booked n ((head, cs) :: books) loose) :
    (p.returnContacts head).Booked n books loose := by
  have hcs : p.contacts head = cs := h.contents _ List.mem_cons_self
  refine h.releaseChain ?_
  -- the limit of steps is far above the length of any list
  calc cs.length = (p.toList head).length := by rw [← hcs, contacts, List.length_map]
    _ ≤ p.capacity := length_chain_le _ _
    _ ≤ p.capacity + 1 := Nat.le_succ _
    _ ≤ (p.capacity + 1) * (p.capacity + 1) := Nat.le_mul_of_pos_left _ (Nat.succ_pos _)

end Booked

end ConvexCollision.ContactPool
