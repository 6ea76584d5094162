import ConvexCollision.Proofs.World.Elements

/-!
# ConvexCollision.Proofs.World.Entries -- who holds which contacts, and what they say

An entry is an element with what its list holds. `BookedAmong` says that a pool is booked among entries,
apart from contacts that are lost to all of them: whoever holds a world may overwrite the contacts of an
element, and then nobody gives them back until the world is emptied. Lost or not, no contact is ever in
two places (`Sound`), and so what a tick puts on the lists stays as it was put there.

Like `AccountedAmong` it does not depend on the order of the entries, so that what happens to one or two
of them is a step with these in front of the others.
-/

namespace ConvexCollision

open ContactPool (Balanced Booked)

variable {α : Type} [Scalar α]

/-! ## §A Pools of which contacts may be lost -/

namespace ContactPool

variable {n : Nat} {p : ContactPool α} {held : List ContactId}

/-- Every contact is free or held, and not both, whoever holds it. -/
def Sound (p : ContactPool α) : Prop := ∃ n held, p.Balanced n [] held

/-- Who holds what may be forgotten. -/
theorem Balanced.sound {heads : List (Option ContactId)} {loose : List ContactId}
    (h : p.Balanced n heads loose) : p.Sound := by
  refine ⟨n, heads.flatMap p.toList ++ loose, h.capacity_eq, by simp, ?_, h.inUse⟩
  rw [List.flatMap_nil, List.nil_append, List.append_assoc]
  exact h.once

/-- Giving any number back leaves a sound pool: only a contact that is held is taken back. -/
theorem Sound.release (h : p.Sound) (id : ContactId) : (p.release id).Sound := by
  obtain ⟨n, held, h⟩ := h
  by_cases htaken : (p.slot id).inUse = true
  · obtain ⟨hid, hnotfree⟩ := (h.inUse id).mp htaken
    have hheld : id ∈ held := by
      have hmem := h.once.mem_iff.mpr hid
      simpa [hnotfree] using hmem
    exact ((h.perm (List.Perm.refl _) (List.perm_cons_erase hheld)).release).sound
  · unfold ContactPool.release
    rw [if_neg htaken]
    exact h.sound

theorem Sound.releaseChain (h : p.Sound) (links : Nat) (head : Option ContactId) :
    (ContactPool.releaseChain links head p).Sound := by
  induction links generalizing p head with
  | zero => exact h
  | succ links ih =>
    cases head with
    | none => exact h
    | some id => exact ih (h.release id) (p.slot id).next

theorem Sound.returnContacts (h : p.Sound) (head : Option ContactId) :
    (p.returnContacts head).Sound :=
  h.releaseChain _ head

theorem Sound.clear (h : p.Sound) : p.clear.Sound := by
  obtain ⟨n, held, h⟩ := h
  exact (balanced_clear h.capacity_eq).sound

end ContactPool

theorem Element.returnContacts_sound {p : ContactPool α} (h : p.Sound) (e : Element α) :
    (e.returnContacts p).2.Sound := by
  rw [Element.pool_returnContacts]
  split
  · exact (h.returnContacts _).release _
  · exact h.returnContacts _

/-! ## §B Entries -/

/-- An element, and the contacts that its list holds, first to last. -/
abbrev Entry (α : Type) := Element α × List (Contact α)

/-- Among some entries every element has the list that it is said to have, and the contacts that none of
them holds are lost or free. -/
def BookedAmong (n : Nat) (p : ContactPool α) (lost : List ContactId) (xs : List (Entry α)) : Prop :=
  p.Booked n (xs.map fun x => (x.1.activeContacts, x.2))
    ((xs.flatMap fun x => x.1.shadowContact.toList) ++ lost)

namespace BookedAmong

variable {n : Nat} {p q : ContactPool α} {lost : List ContactId} {xs ys : List (Entry α)}
  {e f : Element α} {cs ds : List (Contact α)} {i j : Nat}

theorem perm (h : BookedAmong n p lost xs) (hperm : xs.Perm ys) : BookedAmong n p lost ys :=
  Booked.perm h (hperm.map _) ((hperm.flatMap_right _).append_right _)

/-- An entry in front of others. -/
theorem cons_iff : BookedAmong n p lost ((e, cs) :: xs) ↔
    p.Booked n ((e.activeContacts, cs) :: xs.map fun x => (x.1.activeContacts, x.2))
      (e.shadowContact.toList ++ ((xs.flatMap fun x => x.1.shadowContact.toList) ++ lost)) := by
  unfold BookedAmong
  rw [List.map_cons, List.flatMap_cons, List.append_assoc]

/-- Elements that hold nothing can be entered. -/
theorem of_bare {es : List (Element α)} (h : p.Balanced n [] lost) (hes : ∀ e ∈ es, e.Bare) :
    BookedAmong n p lost (es.map fun e => (e, [])) := by
  induction es with
  | nil => exact h.booked
  | cons e es ih =>
    have hbare := hes e List.mem_cons_self
    rw [List.map_cons, cons_iff, hbare.activeContacts, hbare.shadowContact, Booked.cons_none_iff]
    exact ih fun e' he' => hes e' (List.mem_cons_of_mem e he')

/-- The list of an element holds what its entry says. -/
theorem contacts_eq (h : BookedAmong n p lost xs) (hx : (e, cs) ∈ xs) :
    p.contacts e.activeContacts = cs ∧ p.Linked e.activeContacts (p.toList e.activeContacts) := by
  have hbook : (e.activeContacts, cs) ∈ xs.map fun x => (x.1.activeContacts, x.2) :=
    List.mem_map_of_mem hx
  refine ⟨h.contents _ hbook, h.balanced.ends _ ?_⟩
  exact List.mem_map.mpr ⟨_, hbook, rfl⟩

/-- A step with one of the elements that adds to its list. -/
theorem set {R : List (Contact α) → Prop} (h : BookedAmong n p lost xs) (hi : xs[i]? = some (e, cs))
    (hstep : ∀ books loose,
      p.Booked n ((e.activeContacts, cs) :: books) (e.shadowContact.toList ++ loose) →
      ∃ added, R added ∧
        q.Booked n ((f.activeContacts, added ++ cs) :: books) (f.shadowContact.toList ++ loose)) :
    ∃ added, R added ∧ BookedAmong n q lost (xs.set i (f, added ++ cs)) := by
  have hlt := (List.getElem?_eq_some_iff.mp hi).1
  obtain ⟨added, hadded, hfront⟩ := hstep _ _ (cons_iff.mp (h.perm (perm_cons_eraseIdx hi)))
  exact ⟨added, hadded, (cons_iff.mpr hfront).perm (set_perm hlt _).symm⟩

/-- A step with two of the elements that adds to their lists and leaves their shadows. -/
theorem set_pair {R : List (Contact α) → List (Contact α) → Prop} {u v : Element α}
    (h : BookedAmong n p lost xs) (hij : i ≠ j) (hi : xs[i]? = some (e, cs))
    (hj : xs[j]? = some (f, ds)) (he : u.shadowContact = e.shadowContact)
    (hf : v.shadowContact = f.shadowContact)
    (hstep : ∀ books loose,
      p.Booked n ((e.activeContacts, cs) :: (f.activeContacts, ds) :: books) loose →
      ∃ added addedBack, R added addedBack ∧ q.Booked n
        ((u.activeContacts, added ++ cs) :: (v.activeContacts, addedBack ++ ds) :: books) loose) :
    ∃ added addedBack, R added addedBack ∧
      BookedAmong n q lost ((xs.set i (u, added ++ cs)).set j (v, addedBack ++ ds)) := by
  obtain ⟨rest, hperm, hset⟩ := exists_perm_pair hij hi hj
  obtain ⟨added, addedBack, hadded, hfront⟩ := hstep _ _ (cons_iff.mp (h.perm hperm))
  refine ⟨added, addedBack, hadded, BookedAmong.perm ?_ (hset _ _).symm⟩
  rw [cons_iff, he]
  simp only [List.map_cons, List.flatMap_cons, hf] at hfront ⊢
  exact hfront

/-- An element that is taken out gives back what it holds, and the others keep what they hold. -/
theorem returnContacts (h : BookedAmong n p lost ((e, cs) :: xs)) :
    BookedAmong n (e.returnContacts p).2 lost xs := by
  rw [cons_iff] at h
  have hlist := Booked.returnContacts h
  rw [Element.pool_returnContacts]
  cases hshadow : e.shadowContact with
  | none =>
    rw [hshadow] at hlist
    exact hlist
  | some id =>
    rw [hshadow] at hlist
    exact hlist.release

end BookedAmong

/-! ## §C Worlds -/

namespace World

variable {w w' : World α} {n : Nat} {lost : List ContactId} {xs : List (Entry α)}

theorem removeElement_sound {id : EntityId} {taken? : Option (Element α)} (h : w.pool.Sound)
    (hremove : w.removeElement id = .ok (taken?, w')) : w'.pool.Sound := by
  rcases removeElement_cases hremove with ⟨-, -, rfl⟩ | ⟨i, taken, registry, -, -, -, rfl⟩
  · exact h
  · exact Element.returnContacts_sound h taken

/-- At the start of a tick every element gives up its contacts, which are lost where it did not hold
them. -/
theorem start_sound (h : w.pool.Sound) : w.start.1.pool.Sound := by
  have helement : ∀ (e : Element α) (p : ContactPool α), p.Sound →
      (startElement w.config e p).2.2.Sound := by
    intro e p hp
    have hreturned := Element.returnContacts_sound hp e
    cases e <;> exact hreturned
  unfold start
  simp only [← Array.foldl_toList]
  refine inv_foldl_passed (fun _ (s : Array (Element α) × Array (Before α) × ContactPool α) =>
    s.2.2.Sound) ?_ h
  intro passed e rest s _ hs
  exact helement e s.2.2 hs

/-- The entries of a world are those of its elements, in their order. -/
structure Enters (w : World α) (n : Nat) (lost : List ContactId) (xs : List (Entry α)) : Prop where
  /-- The elements of the entries. -/
  elements : xs.map Prod.fst = w.elements.toList
  /-- What they hold. -/
  booked : BookedAmong n w.pool lost xs

/-- Taking an element out takes its entry out, and leaves what the others say. -/
theorem Enters.removeElement {id : EntityId} {taken? : Option (Element α)} (h : w.Enters n lost xs)
    (hremove : w.removeElement id = .ok (taken?, w')) :
    w' = w ∨ ∃ i < xs.length, w'.Enters n lost (swapRemove xs i) := by
  rcases removeElement_cases hremove with ⟨-, -, rfl⟩ | ⟨i, taken, registry, -, htaken, -, rfl⟩
  · exact .inl rfl
  have hplace : (xs.map Prod.fst)[i]? = some taken := by rwa [h.elements, Array.getElem?_toList]
  rw [List.getElem?_map, Option.map_eq_some_iff] at hplace
  obtain ⟨⟨taken, cs⟩, hx, rfl⟩ := hplace
  have hlt := (List.getElem?_eq_some_iff.mp hx).1
  refine .inr ⟨i, hlt, ?_, ?_⟩
  · show (swapRemove xs i).map Prod.fst = (swapRemoveAt w.elements i).toList
    rw [map_swapRemove, h.elements, toList_swapRemoveAt]
  · exact (h.booked.perm (perm_cons_eraseIdx hx)).returnContacts.perm (swapRemove_perm hlt).symm

end World

end ConvexCollision
