import Mathlib.Data.Set.Insert
import ConvexCollision.Journal
import ConvexCollision.Proofs.Contact.Pool
import ConvexCollision.Proofs.Except

/-!
# ConvexCollision.Proofs.Contact.Alike -- two pools that nobody can tell apart

A pool that was cleared still holds what its contacts were, and in which lists they stood. Whoever knows
some of the contacts, and goes on from one contact to the next, sees only the slots of those and of the
contacts that they lead to. `ContactPool.Alike` compares two pools as far as a set of contacts is known: the
slots of these are the same, no list leads away from them, and the free contacts come in the same order.

Taking a contact makes it known, so that the set grows while two pools are used side by side. `Likeness` is
what two runs hold at the same point, `Later` that it is alike for some larger set, and the rules of §A put
steps, folds and computations that may fail together. Then every operation of a pool takes pools that are
alike to pools that are alike, and whatever is read of a known contact is the same in both.
-/

namespace ConvexCollision

/-! ## §A Two runs side by side -/

/-- What may be known of a pool: how many contacts it has, and which of them. -/
structure View where
  /-- The number of contacts. -/
  capacity : Nat
  /-- The contacts that are known. -/
  ids : Set ContactId

namespace View

/-- More contacts may be known of the same pool. -/
instance : Preorder View where
  le known more := known.capacity = more.capacity ∧ known.ids ⊆ more.ids
  le_refl _ := ⟨rfl, Set.Subset.rfl⟩
  le_trans _ _ _ h g := ⟨h.1.trans g.1, h.2.trans g.2⟩

/-- One more contact is known. -/
def learn (known : View) (id : ContactId) : View := { known with ids := insert id known.ids }

theorem le_learn (known : View) (id : ContactId) : known ≤ known.learn id :=
  ⟨rfl, Set.subset_insert id known.ids⟩

theorem mem_learn (known : View) (id : ContactId) : id ∈ (known.learn id).ids :=
  Set.mem_insert id known.ids

theorem learn_of_mem {known : View} {id : ContactId} (h : id ∈ known.ids) : known.learn id = known := by
  unfold learn
  rw [Set.insert_eq_of_mem h]

end View

/-- What two runs hold at the same point may be alike, as far as some contacts are known. -/
class Likeness (σ : Type) where
  /-- The two are alike. -/
  alike : View → σ → σ → Prop

export Likeness (alike)

/-- The two are alike when more contacts may have become known. -/
def Later {σ : Type} [Likeness σ] (known : View) (x y : σ) : Prop :=
  ∃ more, known ≤ more ∧ alike more x y

/-- Two computations fail for the same reason, or succeed with results that are related. -/
inductive Ended {ε σ : Type} (R : σ → σ → Prop) : Except ε σ → Except ε σ → Prop
  /-- Both fail. -/
  | error (e : ε) : Ended R (.error e) (.error e)
  /-- Both succeed. -/
  | ok {x y : σ} (related : R x y) : Ended R (.ok x) (.ok y)

namespace Ended

variable {ε σ τ β : Type} {R : σ → σ → Prop} {S : τ → τ → Prop} {x y : Except ε σ}

theorem bind (h : Ended R x y) {f g : σ → Except ε τ} (hstep : ∀ a b, R a b → Ended S (f a) (g b)) :
    Ended S (x >>= f) (y >>= g) := by
  cases h with
  | error e => exact .error e
  | ok hab => exact hstep _ _ hab

theorem map_eq (h : Ended R x y) {f g : σ → β} (hsame : ∀ a b, R a b → f a = g b) :
    x.map f = y.map g := by
  cases h with
  | error e => rfl
  | ok hab => exact congrArg Except.ok (hsame _ _ hab)

theorem map (h : Ended R x y) {f g : σ → τ} (hstep : ∀ a b, R a b → S (f a) (g b)) :
    Ended S (x.map f) (y.map g) := by
  cases h with
  | error e => exact .error e
  | ok hab => exact .ok (hstep _ _ hab)

theorem mapError {ε' : Type} (h : Ended R x y) (f : ε → ε') : Ended R (x.mapError f) (y.mapError f) := by
  cases h with
  | error e => exact .error (f e)
  | ok hab => exact .ok hab

end Ended

namespace Likeness

variable {σ τ ε : Type} {known more : View}

/-- Data that names no contact is alike when it is the same. -/
abbrev plain : Likeness σ := ⟨fun _ => Eq⟩

instance : Likeness Bool := plain
instance : Likeness ContactId := ⟨fun known id id' => id = id' ∧ id ∈ known.ids⟩
instance [Likeness σ] [Likeness τ] : Likeness (σ × τ) :=
  ⟨fun known x y => alike known x.1 y.1 ∧ alike known x.2 y.2⟩
instance [Likeness σ] : Likeness (Option σ) := ⟨fun known => Option.Rel (alike known)⟩
instance [Likeness σ] : Likeness (Except ε σ) := ⟨fun known => Ended (alike known)⟩

variable [Likeness σ] [Likeness τ] {x y : σ} {u v : τ}

theorem pair (hfst : alike known x y) (hsnd : alike known u v) : alike known (x, u) (y, v) :=
  ⟨hfst, hsnd⟩

/-- The head of a list is alike when it is the same, and known if there is one. -/
theorem alike_head_iff {head head' : Option ContactId} :
    alike known head head' ↔ head = head' ∧ ∀ id ∈ head, id ∈ known.ids := by
  constructor
  · rintro (⟨rfl, hid⟩ | _)
    · exact ⟨rfl, fun id hmem => Option.mem_some_iff.mp hmem ▸ hid⟩
    · exact ⟨rfl, fun id hmem => nomatch hmem⟩
  · rintro ⟨rfl, hid⟩
    cases head with
    | none => exact .none
    | some id => exact .some ⟨rfl, hid id rfl⟩

end Likeness

namespace Later

variable {σ τ ε β : Type} [Likeness σ] [Likeness τ] {known more : View} {x y : σ}

theorem now (h : alike known x y) : Later known x y := ⟨known, le_rfl, h⟩

theorem of_subset (hle : known ≤ more) (h : Later more x y) : Later known x y := by
  obtain ⟨most, hmost, halike⟩ := h
  exact ⟨most, hle.trans hmost, halike⟩

/-- One step after another one. -/
theorem andThen {u v : τ} (h : Later known x y)
    (hstep : ∀ more, known ≤ more → alike more x y → Later more u v) : Later known u v := by
  obtain ⟨more, hmore, halike⟩ := h
  exact (hstep more hmore halike).of_subset hmore

/-- A computation that goes on with the result of another one. -/
theorem bind {a b : Except ε σ} {f g : σ → Except ε τ} (h : Later known a b)
    (hstep : ∀ more, known ≤ more → ∀ x y, alike more x y → Later more (f x) (g y)) :
    Later known (a >>= f) (b >>= g) := by
  refine h.andThen fun more hmore halike => ?_
  cases halike with
  | error e => exact now (.error e)
  | ok hxy => exact hstep more hmore _ _ hxy

/-- A fold with the same list. -/
theorem foldl {f g : σ → β → σ} (hstep : ∀ more, known ≤ more → ∀ x y b, alike more x y →
    Later more (f x b) (g y b)) (l : List β) (h : alike known x y) :
    Later known (l.foldl f x) (l.foldl g y) := by
  induction l generalizing known x y with
  | nil => exact now h
  | cons b l ih =>
    refine (hstep known le_rfl x y b h).andThen fun more hmore halike => ?_
    exact ih (fun most hmost => hstep most (hmore.trans hmost)) halike

/-- A fold whose steps may fail. -/
theorem foldlM {f g : σ → β → Except ε σ} (hstep : ∀ more, known ≤ more → ∀ x y b, alike more x y →
    Later more (f x b) (g y b)) (l : List β) (h : alike known x y) :
    Later known (l.foldlM f x) (l.foldlM g y) := by
  induction l generalizing known x y with
  | nil => exact now (.ok h)
  | cons b l ih =>
    rw [List.foldlM_cons, List.foldlM_cons]
    refine (hstep known le_rfl x y b h).bind fun more hmore x y halike => ?_
    exact ih (fun most hmost => hstep most (hmore.trans hmost)) halike

end Later

/-! ## §B Pools -/

variable {α : Type} [Scalar α] {known : View}

namespace ContactPool

/-- Whoever knows some contacts cannot tell the pools apart. -/
structure Alike (known : View) (p q : ContactPool α) : Prop where
  /-- The first pool has as many contacts as there are. -/
  left : p.capacity = known.capacity
  /-- So has the second one. -/
  right : q.capacity = known.capacity
  /-- The free ones are the same, in their order. -/
  free : p.free = q.free
  /-- A known contact holds the same. -/
  slot : ∀ id ∈ known.ids, p.slot id = q.slot id
  /-- It leads to a known one. -/
  next : ∀ id ∈ known.ids, ∀ other ∈ (p.slot id).next, other ∈ known.ids

instance : Likeness (ContactPool α) := ⟨Alike⟩

theorem slot_of_le {p : ContactPool α} {id : ContactId} (h : p.capacity ≤ id.index) :
    p.slot id = default := by
  unfold slot
  rw [Array.getD_eq_getD_getElem?, Array.getElem?_eq_none h]
  rfl

namespace Alike

variable {p q : ContactPool α} {id : ContactId} {head : Option ContactId}

theorem capacity (h : Alike known p q) : p.capacity = q.capacity := h.left.trans h.right.symm

/-- All of a pool is the same in itself. -/
theorem refl (p : ContactPool α) : Alike ⟨p.capacity, Set.univ⟩ p p :=
  ⟨rfl, rfl, rfl, fun _ _ => rfl, fun _ _ _ _ => trivial⟩

/-- A slot is changed in the same way, and becomes known. -/
theorem modifySlot (h : Alike known p q) (id : ContactId) {f : ContactSlot α → ContactSlot α}
    (hsame : f (p.slot id) = f (q.slot id))
    (hnext : ∀ other ∈ (f (p.slot id)).next, other ∈ (known.learn id).ids) :
    Alike (known.learn id) (p.modifySlot id f) (q.modifySlot id f) := by
  by_cases hrange : id.index < p.capacity
  · refine ⟨capacity_modifySlot.trans h.left, capacity_modifySlot.trans h.right, h.free, ?_, ?_⟩
    · intro other hother
      by_cases heq : other = id
      · subst heq
        rw [slot_modifySlot_self hrange, slot_modifySlot_self (h.capacity ▸ hrange), hsame]
      · rw [slot_modifySlot_of_ne heq, slot_modifySlot_of_ne heq]
        exact h.slot other (hother.resolve_left heq)
    · intro other hother
      by_cases heq : other = id
      · subst heq
        rw [slot_modifySlot_self hrange]
        exact hnext
      · rw [slot_modifySlot_of_ne heq]
        exact fun last hlast => .inr (h.next other (hother.resolve_left heq) last hlast)
  · -- past the end there is nothing to change, and nothing to see
    have hpast := Nat.le_of_not_lt hrange
    rw [modifySlot_of_le hpast, modifySlot_of_le (h.capacity ▸ hpast)]
    refine ⟨h.left, h.right, h.free, ?_, ?_⟩
    · rintro other (rfl | hother)
      · rw [slot_of_le hpast, slot_of_le (h.capacity ▸ hpast)]
      · exact h.slot other hother
    · rintro other (rfl | hother)
      · rw [slot_of_le hpast]
        exact fun last hlast => nomatch hlast
      · exact fun last hlast => .inr (h.next other hother last hlast)

/-- A slot that is known already is changed in the same way. -/
theorem modifyKnown (h : Alike known p q) (hid : id ∈ known.ids) {f : ContactSlot α → ContactSlot α}
    (hnext : ∀ other ∈ (f (q.slot id)).next, other ∈ known.ids) :
    Alike known (p.modifySlot id f) (q.modifySlot id f) := by
  have hslot := h.slot id hid
  have hmodified := h.modifySlot id (congrArg f hslot)
    (by rwa [View.learn_of_mem hid, hslot])
  rwa [View.learn_of_mem hid] at hmodified

/-! ## §C Operations -/

/-- Either none is free in both, or the same contact is taken in both and becomes known. -/
theorem allocate? (h : Alike known p q) (contact : Contact α) :
    (p.allocate? contact = none ∧ q.allocate? contact = none) ∨
      ∃ p' q' id, p.allocate? contact = some (p', id) ∧ q.allocate? contact = some (q', id) ∧
        Alike (known.learn id) p' q' := by
  unfold ContactPool.allocate?
  rw [← h.free]
  cases p.free with
  | nil => exact .inl ⟨rfl, rfl⟩
  | cons id free =>
    have hfree : Alike known { p with free } { q with free } := ⟨h.left, h.right, rfl, h.slot, h.next⟩
    exact .inr ⟨_, _, id, rfl, rfl, hfree.modifySlot id rfl fun other hother => nomatch hother⟩

theorem linkFront (h : Alike known p q) (hhead : ∀ other ∈ head, other ∈ known.ids) (hid : id ∈ known.ids) :
    Alike known (p.linkFront head id) (q.linkFront head id) :=
  h.modifyKnown hid hhead

theorem pushFront? (h : Alike known p q) (hhead : ∀ other ∈ head, other ∈ known.ids)
    (contact : Contact α) :
    (p.pushFront? head contact = none ∧ q.pushFront? head contact = none) ∨
      ∃ p' q' id, p.pushFront? head contact = some (p', id) ∧
        q.pushFront? head contact = some (q', id) ∧ Alike (known.learn id) p' q' := by
  unfold ContactPool.pushFront?
  rcases h.allocate? contact with ⟨hp, hq⟩ | ⟨p', q', id, hp, hq, htaken⟩
  · rw [hp, hq]
    exact .inl ⟨rfl, rfl⟩
  · rw [hp, hq]
    refine .inr ⟨_, _, id, rfl, rfl, htaken.linkFront ?_ (known.mem_learn id)⟩
    exact fun other hother => Set.mem_insert_of_mem id (hhead other hother)

theorem set (h : Alike known p q) (hid : id ∈ known.ids) (contact : Contact α) :
    Alike known (p.set id contact) (q.set id contact) := by
  refine h.modifyKnown hid ?_
  rw [← h.slot id hid]
  exact h.next id hid

theorem release (h : Alike known p q) (hid : id ∈ known.ids) :
    Alike known (p.release id) (q.release id) := by
  unfold ContactPool.release
  rw [h.slot id hid]
  split
  · have hfreed : Alike known (p.modifySlot id fun s => { s with next := none, inUse := false })
        (q.modifySlot id fun s => { s with next := none, inUse := false }) :=
      h.modifyKnown hid fun other hother => nomatch hother
    exact ⟨hfreed.left, hfreed.right, congrArg (id :: ·) h.free, hfreed.slot, hfreed.next⟩
  · exact h

theorem releaseChain (h : Alike known p q) (links : Nat) (hhead : ∀ id ∈ head, id ∈ known.ids) :
    Alike known (p.releaseChain links head) (q.releaseChain links head) := by
  induction links generalizing head p q with
  | zero => exact h
  | succ links ih =>
    cases head with
    | none => exact h
    | some id =>
      have hid := hhead id rfl
      unfold ContactPool.releaseChain
      rw [← h.slot id hid]
      exact ih (h.release hid) (h.next id hid)

theorem returnContacts (h : Alike known p q) (hhead : ∀ id ∈ head, id ∈ known.ids) :
    Alike known (p.returnContacts head) (q.returnContacts head) := by
  unfold ContactPool.returnContacts
  rw [h.capacity]
  exact h.releaseChain _ hhead

/-- What is left behind by clearing is the same where it is known. -/
theorem clear (h : Alike known p q) : Alike known p.clear q.clear := by
  have hslot (p : ContactPool α) (id : ContactId) :
      p.clear.slot id = { p.slot id with inUse := false } := by
    unfold ContactPool.clear ContactPool.slot
    simp only [Array.getD_eq_getD_getElem?, Array.getElem?_map]
    cases p.slots[id.index]? <;> rfl
  have hcapacity (p : ContactPool α) : p.clear.capacity = p.capacity := by
    simp [ContactPool.capacity, ContactPool.clear]
  refine ⟨(hcapacity p).trans h.left, (hcapacity q).trans h.right, ?_, ?_, ?_⟩
  · show allIds p.capacity = allIds q.capacity
    rw [h.capacity]
  · intro id hid
    rw [hslot, hslot, h.slot id hid]
  · intro id hid
    rw [hslot]
    exact h.next id hid

/-- A pool that was cleared and a new one, of which nothing is known. -/
theorem of_clear (p : ContactPool α) :
    Alike ⟨p.capacity, ∅⟩ p.clear (ofCapacity p.capacity) := by
  refine ⟨?_, ?_, rfl, fun _ hid => hid.elim, fun _ hid => hid.elim⟩
  · simp [ContactPool.capacity, ContactPool.clear]
  · simp [ContactPool.capacity, ofCapacity]

/-! ## §D Looking -/

theorem get (h : Alike known p q) (hid : id ∈ known.ids) : p.get id = q.get id :=
  congrArg ContactSlot.contact (h.slot id hid)

/-- A list that starts with a known contact is the same, and all of it is known. -/
theorem chain (h : Alike known p q) (limit : Nat) (hhead : ∀ id ∈ head, id ∈ known.ids) :
    p.chain limit head = q.chain limit head ∧ ∀ id ∈ p.chain limit head, id ∈ known.ids := by
  induction limit generalizing head with
  | zero => exact ⟨rfl, fun id hid => nomatch hid⟩
  | succ limit ih =>
    cases head with
    | none => exact ⟨rfl, fun id hid => nomatch hid⟩
    | some id =>
      have hid := hhead id rfl
      obtain ⟨hsame, hknown⟩ := ih (h.next id hid)
      unfold ContactPool.chain
      rw [← h.slot id hid, ← hsame]
      exact ⟨rfl, List.forall_mem_cons.mpr ⟨hid, hknown⟩⟩

theorem toList (h : Alike known p q) (hhead : ∀ id ∈ head, id ∈ known.ids) :
    p.toList head = q.toList head ∧ ∀ id ∈ p.toList head, id ∈ known.ids := by
  unfold ContactPool.toList
  rw [← h.capacity]
  exact h.chain p.capacity hhead

theorem nearest? (h : Alike known p q) (hhead : ∀ id ∈ head, id ∈ known.ids) (position : Vec3 α) :
    p.nearest? head position = q.nearest? head position := by
  obtain ⟨hsame, hknown⟩ := h.toList hhead
  unfold ContactPool.nearest?
  rw [← hsame]
  refine congrArg (Option.map _) (List.foldl_ext _ _ none fun best id hid => ?_)
  rw [h.get (hknown id hid)]

theorem freeCount (h : Alike known p q) : p.freeCount = q.freeCount := congrArg List.length h.free

theorem activeCount (h : Alike known p q) : p.activeCount = q.activeCount := by
  unfold ContactPool.activeCount
  rw [h.capacity, h.freeCount]

end Alike

end ContactPool

/-! ## §E Ledgers -/

/-- Ledgers are alike when the pools are, and the same was reported. -/
instance : Likeness (Ledger α) := ⟨fun known l m => l.journal = m.journal ∧ l.pool.Alike known m.pool⟩

namespace Ledger

variable {l m : Ledger α} {head : Option ContactId}

theorem alike_report (h : alike known l m) (e : Event α) :
    alike known (l.report e) (m.report e) :=
  ⟨congrArg (Array.push · e) h.1, h.2⟩

theorem alike_withPool {p q : ContactPool α} (h : alike known l m) (hpools : p.Alike known q) :
    alike known { l with pool := p } { m with pool := q } :=
  ⟨h.1, hpools⟩

theorem allocate_later (h : alike known l m) (contact : Contact α) :
    Later known (l.allocate contact) (m.allocate contact) := by
  unfold allocate
  rcases h.2.allocate? contact with ⟨hl, hm⟩ | ⟨p, q, id, hl, hm, htaken⟩
  · rw [hl, hm]
    exact .now (Likeness.pair (alike_report h _) .none)
  · rw [hl, hm]
    refine ⟨known.learn id, known.le_learn id, Likeness.pair ⟨h.1, htaken⟩ ?_⟩
    exact .some ⟨rfl, known.mem_learn id⟩

theorem pushFront_later (h : alike known l m) (hhead : ∀ id ∈ head, id ∈ known.ids) (contact : Contact α) :
    Later known (l.pushFront head contact) (m.pushFront head contact) := by
  unfold pushFront
  rcases h.2.pushFront? hhead contact with ⟨hl, hm⟩ | ⟨p, q, id, hl, hm, htaken⟩
  · rw [hl, hm]
    exact .now (Likeness.pair (alike_report h _) (Likeness.alike_head_iff.mpr ⟨rfl, hhead⟩))
  · rw [hl, hm]
    refine ⟨known.learn id, known.le_learn id, Likeness.pair ⟨h.1, htaken⟩ ?_⟩
    exact .some ⟨rfl, known.mem_learn id⟩

/-- A step that does not look at contacts comes to the same in both. -/
theorem guarding_eq {β : Type} (h : alike known l m) (step : Except Fault β) :
    l.guarding step = m.guarding step :=
  congrArg (Halt.after · step) h.1

theorem guarding_ended {β : Type} {R : β → β → Prop} {step step' : Except Fault β} (h : alike known l m)
    (hstep : Ended R step step') : Ended R (l.guarding step) (m.guarding step') := by
  rw [guarding_eq h]
  cases hstep with
  | error fault => exact .error _
  | ok hab => exact .ok hab

end Ledger

end ConvexCollision
