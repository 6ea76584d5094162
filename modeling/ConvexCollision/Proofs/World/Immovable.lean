import ConvexCollision.Proofs.Approach.Times
import ConvexCollision.Proofs.Pair.Shares
import ConvexCollision.Proofs.Single.Positive
import ConvexCollision.Proofs.World.Despawn

/-!
# ConvexCollision.Proofs.World.Immovable -- what is fixed, and every trigger, stays where it is

No step of a tick looks for what is not to be moved. Free motion leaves out what is fixed and what is a
trigger, and so does settling; between them two objects may meet. There an object without a share in the
separation is neither pushed nor stopped, and a fixed one or a trigger has none (`share_left`). Two objects
that met on their way are both put back, and what puts a fixed one back is a part of its own motion, which is
zero (`Vec3.Agrees.rewind`). It may change the sign of a coordinate that is zero, but no value.

`Held` says that the fixed objects still agree with their places before the tick. One pair keeps it up, and so
does any number of them, in any order.
-/

namespace ConvexCollision

variable {α : Type} [Scalar α]

/-! ## §A One object -/

namespace DynamicObject

variable {o o' o'' a b : DynamicObject α}

/-- The object is the same one after some steps of a tick. If it is fixed or a trigger, it stands where it
stood and has the velocity that it had. -/
structure Stands (o o' : DynamicObject α) : Prop where
  /-- It is the same in everything that a tick does not write to. -/
  kept : o'.kept = o.kept
  /-- A trigger is in its place. -/
  trigger : o.isTrigger = true → o'.position = o.position
  /-- A fixed object is where it was, by the values of the coordinates. -/
  fixed : o.isFixed = true → o'.position.Agrees o.position
  /-- Both have their velocity. -/
  velocity : (o.isFixed || o.isTrigger) = true → o'.velocity = o.velocity

namespace Stands

/-- Writing to neither the position nor the velocity. -/
theorem of_eq (hkept : o'.kept = o.kept) (hposition : o'.position = o.position)
    (hvelocity : (o.isFixed || o.isTrigger) = true → o'.velocity = o.velocity) : o.Stands o' :=
  ⟨hkept, fun _ => hposition, fun _ => .inl hposition, hvelocity⟩

theorem refl (o : DynamicObject α) : o.Stands o := of_eq rfl rfl fun _ => rfl

/-- Of an object that moves there is nothing more to know. -/
theorem of_movable (hkept : o'.kept = o.kept) (h : (o.isFixed || o.isTrigger) = false) :
    o.Stands o' := by
  obtain ⟨hfixed, htrigger⟩ := Bool.or_eq_false_iff.mp h
  refine ⟨hkept, ?_, ?_, ?_⟩
  · intro htrue
    exact absurd (htrue.symm.trans htrigger) Bool.noConfusion
  · intro htrue
    exact absurd (htrue.symm.trans hfixed) Bool.noConfusion
  · intro htrue
    exact absurd (htrue.symm.trans h) Bool.noConfusion

theorem trans [Scalar.Ordered α] (h : o.Stands o') (g : o'.Stands o'') : o.Stands o'' := by
  have hfixed := isFixed_of_kept h.kept
  have htrigger := isTrigger_of_kept h.kept
  refine ⟨g.kept.trans h.kept, ?_, ?_, ?_⟩
  · intro ho
    exact (g.trigger (htrigger.trans ho)).trans (h.trigger ho)
  · intro ho
    exact (g.fixed (hfixed.trans ho)).trans (h.fixed ho)
  · intro ho
    refine (g.velocity ?_).trans (h.velocity ho)
    rw [hfixed, htrigger]
    exact ho

theorem activeContacts (o : DynamicObject α) (head : Option ContactId) :
    o.Stands { o with activeContacts := head } :=
  of_eq rfl rfl fun _ => rfl

end Stands

/-- At the start of a tick what is fixed, and every trigger, stays where it is. -/
theorem integrate_stands (o : DynamicObject α) (dt gravity : α) : o.Stands (o.integrate dt gravity) := by
  cases hstays : o.isFixed || o.isTrigger with
  | false => exact .of_movable (World.kept_integrate o dt gravity) hstays
  | true =>
    unfold integrate
    rw [hstays]
    exact .refl o

/-! ## §B Shares -/

variable [Scalar.Ordered α]

theorem share_left (h : (a.isFixed || a.isTrigger) = true) : ¬ 0 < (a.pushShares b).1 := by
  rw [pushShares_fst h]
  exact Scalar.lt_irrefl 0

theorem share_right (h : (b.isFixed || b.isTrigger) = true) : ¬ 0 < (a.pushShares b).2 := by
  rw [pushShares_snd h]
  exact Scalar.lt_irrefl 0

end DynamicObject

/-! ## §C Two objects -/

namespace Resolve

open DynamicObject (Stands share_left share_right)

theorem pushOut_stands {o : DynamicObject α} {share : α}
    (hshare : (o.isFixed || o.isTrigger) = true → ¬ 0 < share) (normal : Vec3 α) (depth : α) :
    o.Stands (pushOut o normal depth share) := by
  cases hstays : o.isFixed || o.isTrigger with
  | false => exact .of_movable (pushOut_carried o normal depth share).kept hstays
  | true =>
    unfold pushOut
    rw [if_neg (hshare hstays)]
    exact .refl o

section Ordered

variable [Scalar.Ordered α]

theorem objects_stands (a b : DynamicObject α) (l : Ledger α) :
    a.Stands (objects a b l).1 ∧ b.Stands (objects a b l).2.1 := by
  unfold objects
  split
  · exact ⟨.refl a, .refl b⟩
  split
  · exact ⟨.activeContacts a _, .activeContacts b _⟩
  split
  · exact ⟨.refl a, .refl b⟩
  · exact ⟨(pushOut_stands share_left _ _).trans (.activeContacts _ _),
      (pushOut_stands share_right _ _).trans (.activeContacts _ _)⟩

/-- Stopping changes velocities only, and none of an object that has no share. -/
theorem stopPair_stands (a b : DynamicObject α) (normal : Vec3 α) :
    a.Stands (stopPair a b normal).1 ∧ b.Stands (stopPair a b normal).2 := by
  obtain ⟨hcarriedA, hcarriedB⟩ := stopPair_carried a b normal
  have hleft : (a.isFixed || a.isTrigger) = true → ¬ 0 < (a.pushShares b).1 := share_left
  have hright : (b.isFixed || b.isTrigger) = true → ¬ 0 < (a.pushShares b).2 := share_right
  unfold stopPair at hcarriedA hcarriedB ⊢
  simp only at hcarriedA hcarriedB ⊢
  by_cases hA : 0 < (a.pushShares b).1 <;> by_cases hB : 0 < (a.pushShares b).2 <;>
    simp only [hA, hB, and_self, and_true, and_false, if_true, if_false] at hcarriedA hcarriedB ⊢
  · exact ⟨.of_eq hcarriedA.kept rfl fun h => absurd hA (hleft h),
      .of_eq hcarriedB.kept rfl fun h => absurd hB (hright h)⟩
  · exact ⟨.of_eq hcarriedA.kept rfl fun h => absurd hA (hleft h), .refl b⟩
  · exact ⟨.refl a, .of_eq hcarriedB.kept rfl fun h => absurd hB (hright h)⟩
  · exact ⟨.refl a, .refl b⟩

end Ordered

variable [Scalar.Signed α]

/-- An object that is not a trigger is put back by a finite part of its motion, and if it is fixed it did not
move. -/
theorem move_stands {o : DynamicObject α} {previous : Vec3 α} {s : α}
    (hheld : o.isFixed = true → previous.IsFinite ∧ o.position.Agrees previous)
    (htrigger : o.isTrigger = false) (hs : Scalar.isFinite s = true) :
    o.Stands (o.move (-(o.position - previous) * s)) := by
  refine ⟨rfl, ?_, ?_, fun _ => rfl⟩
  · intro h
    exact absurd (h.symm.trans htrigger) Bool.noConfusion
  · intro h
    obtain ⟨hfinite, hagrees⟩ := hheld h
    exact hagrees.rewind hfinite hs

theorem objectsSwept_stands [Approach.Tuned α] {a b a' b' : DynamicObject α}
    {aPrevious bPrevious : Vec3 α} {l l' : Ledger α}
    (ha : a.isFixed = true → aPrevious.IsFinite ∧ a.position.Agrees aPrevious)
    (hb : b.isFixed = true → bPrevious.IsFinite ∧ b.position.Agrees bPrevious)
    (htriggerA : a.isTrigger = false) (htriggerB : b.isTrigger = false)
    (h : objectsSwept a aPrevious b bPrevious l = (true, a', b', l')) : a.Stands a' ∧ b.Stands b' := by
  rcases objectsSwept_cases h with ⟨hmet, -⟩ | ⟨-, hit, hseen, hrecorded⟩
  · cases hmet
  have honWay := Approach.sweep_onWay hseen
  have hrewind := Scalar.Signed.isFinite_one_sub honWay.start_le honWay.le_end
  have hmovedA := move_stands ha htriggerA hrewind
  have hmovedB := move_stands hb htriggerB hrewind
  obtain ⟨hA, hB⟩ := stopPair_stands
    (a.move (-(a.position - aPrevious) * (1 - hit.time)))
    (b.move (-(b.position - bPrevious) * (1 - hit.time))) hit.normal
  cases hrecorded
  exact ⟨(hmovedA.trans hA).trans (.activeContacts _ _), (hmovedB.trans hB).trans (.activeContacts _ _)⟩

end Resolve

/-! ## §D Elements -/

namespace Element

/-- Where the element is. -/
def position : Element α → Vec3 α
  | object o => o.position
  | trigger t => t.position

/-- The element is the same one after some steps of a tick, and if it is fixed or a trigger it stands: an
object has its place and its velocity, and of a spatial trigger only the box and the contacts are new. -/
inductive Stands : Element α → Element α → Prop
  /-- An object. -/
  | object {o o' : DynamicObject α} (stands : o.Stands o') : Stands (.object o) (.object o')
  /-- A trigger. -/
  | trigger (t : SpatialTrigger α) (box : Bounds α) (head : Option ContactId) :
    Stands (.trigger t) (.trigger { t with box, activeContacts := head })

variable {e e' e'' : Element α}

theorem Stands.refl (e : Element α) : e.Stands e := by
  cases e with
  | object o => exact .object (.refl o)
  | trigger t => exact .trigger t t.box t.activeContacts

theorem Stands.trans [Scalar.Ordered α] (h : e.Stands e') (g : e'.Stands e'') : e.Stands e'' := by
  cases h with
  | object h =>
    cases g with
    | object g => exact .object (h.trans g)
  | trigger t box head =>
    cases g with
    | trigger _ box' head' => exact .trigger t box' head'

/-- Element by element, in two stretches of a tick. -/
theorem Stands.all_trans [Scalar.Ordered α] {es es' es'' : List (Element α)}
    (h : List.Forall₂ Element.Stands es es') (g : List.Forall₂ Element.Stands es' es'') :
    List.Forall₂ Element.Stands es es'' :=
  forall₂_trans (T := Element.Stands) (fun _ _ _ hfirst hsecond => hfirst.trans hsecond) h g

theorem Stands.persists (h : e.Stands e') : e.Persists e' := by
  cases h with
  | object h => exact .object h.kept
  | trigger t box head => exact .trigger t box head

end Element

namespace World

theorem startElement_stands [Scalar.Ordered α] (config : Config α) (e : Element α)
    (pool : ContactPool α) : e.Stands (startElement config e pool).1 := by
  cases e with
  | object o =>
    have hbare : o.Stands { o with activeContacts := none, shadowContact := none }.tickCounters :=
      .of_eq rfl rfl fun _ => rfl
    have hmoved := DynamicObject.integrate_stands
      { o with activeContacts := none, shadowContact := none }.tickCounters config.fixedTimeStep
      config.gravity
    exact .object ((hbare.trans hmoved).trans (.of_eq rfl rfl fun _ => rfl))
  | trigger t => exact .trigger t _ none

/-- At the start of a tick every element stands, and its place is put down. -/
theorem start_stands [Scalar.Ordered α] (w : World α) :
    List.Forall₂ Element.Stands w.elements.toList w.start.1.elements.toList ∧
      w.start.2.toList.map Before.position = w.elements.toList.map Element.position := by
  have hbefore (config : Config α) (e : Element α) (pool : ContactPool α) :
      (startElement config e pool).2.1.position = e.position := by
    cases e <;> rfl
  constructor
  · refine (start_elements w).imp ?_
    rintro e _ ⟨pool, rfl⟩
    exact startElement_stands w.config e pool
  · unfold start
    simp only [← Array.foldl_toList]
    refine inv_foldl_passed (fun passed (s : Array (Element α) × Array (Before α) × ContactPool α) =>
      s.2.1.toList.map Before.position = passed.map Element.position) ?_ rfl
    intro passed e rest s _ hplaces
    simp only [Array.toList_push, List.map_append, hplaces, List.map_singleton, hbefore]

/-! ## §E Pairs -/

variable {befores : Array (Before α)}

/-- The fixed objects agree with their places before the tick, which are finite. -/
def Held (befores : Array (Before α)) (elements : List (Element α)) : Prop :=
  ∀ i o, elements[i]? = some (.object o) → o.isFixed = true →
    (befores.getD i default).position.IsFinite ∧ o.position.Agrees (befores.getD i default).position

theorem Held.of_stands [Scalar.Ordered α] {es es' : List (Element α)} (h : Held befores es)
    (hstands : List.Forall₂ Element.Stands es es') : Held befores es' := by
  intro i o' ho' hfixed
  obtain ⟨hi', hget'⟩ := List.getElem?_eq_some_iff.mp ho'
  have hi : i < es.length := hstands.length_eq ▸ hi'
  have he := (List.forall₂_iff_get.mp hstands).2 i hi hi'
  simp only [List.get_eq_getElem, hget'] at he
  generalize hget : es[i] = e at he
  cases he with
  | @object o _ ho =>
    obtain ⟨hfinite, hagrees⟩ := h i o (List.getElem?_eq_some_iff.mpr ⟨hi, hget⟩)
      ((DynamicObject.isFixed_of_kept ho.kept).symm.trans hfixed)
    exact ⟨hfinite, (ho.fixed ((DynamicObject.isFixed_of_kept ho.kept).symm.trans hfixed)).trans hagrees⟩

/-- When the fixed objects are at finite places, they are held at the start of a tick. -/
theorem start_held [Scalar.Ordered α] {w : World α}
    (hfinite : ∀ o, .object o ∈ w.elements → o.isFixed = true → o.position.IsFinite) :
    Held w.start.2 w.start.1.elements.toList := by
  obtain ⟨hstands, hplaces⟩ := start_stands w
  refine Held.of_stands ?_ hstands
  intro i o ho hfixed
  have hplace := congrArg (fun places => places[i]?) hplaces
  simp only [List.getElem?_map, ho, Option.map_some, Array.getElem?_toList] at hplace
  obtain ⟨before, hbefore, hposition⟩ := Option.map_eq_some_iff.mp hplace
  rw [Array.getD_eq_getD_getElem?, hbefore, Option.getD_some, hposition]
  exact ⟨hfinite o (Array.mem_toList_iff.mp (List.mem_of_getElem? ho)) hfixed, .refl _⟩

/-- Settling leaves out what is fixed, and every trigger. -/
theorem settleAt_stands {w : World α} {i : Nat}
    {s s' : Array (Element α) × Ledger α × List EntityId} (hs : settleAt w befores s i = .ok s') :
    List.Forall₂ Element.Stands s.1.toList s'.1.toList :=
  settleAt_forall₂ .refl (fun _ _ hmovable hcarried => .object (.of_movable hcarried.kept hmovable)) hs

/-- Taking elements out leaves some of them, each as it was. -/
theorem subperm_removeAll {w w' : World α} {ids : List EntityId} (h : w.removeAll ids = .ok w') :
    w'.elements.toList.Subperm w.elements.toList := by
  refine rel_of_foldlM_eq_ok (R := fun w w' : World α => w'.elements.toList.Subperm w.elements.toList)
    (fun w => List.Subperm.refl _) (fun _ _ _ h₁₂ h₂₃ => h₂₃.trans h₁₂) ?_ h
  intro w id w' hdrop
  obtain ⟨taken?, hremove⟩ := exists_of_dropElement hdrop
  rcases removeElement_cases hremove with ⟨-, -, rfl⟩ | ⟨i, taken, registry, -, htaken, -, rfl⟩
  · exact List.Subperm.refl _
  · rw [toList_swapRemoveAt]
    exact (swapRemove_perm (Array.getElem?_eq_some_iff.mp htaken).1).subperm.trans (List.eraseIdx_sublist _ i).subperm

variable [Scalar.Signed α] [Approach.Tuned α]

/-- Two objects of which the fixed ones are where they were before the tick. -/
theorem resolveObjects_stands {a b : DynamicObject α} {aBefore bBefore : Before α} (l : Ledger α)
    (ha : a.isFixed = true → aBefore.position.IsFinite ∧ a.position.Agrees aBefore.position)
    (hb : b.isFixed = true → bBefore.position.IsFinite ∧ b.position.Agrees bBefore.position) :
    a.Stands (resolveObjects a aBefore b bBefore l).1 ∧
      b.Stands (resolveObjects a aBefore b bBefore l).2.1 := by
  rcases resolveObjects_cases a aBefore b bBefore l with
    hsame | ⟨htriggerA, htriggerB, hswept⟩ | ⟨l', -, htested⟩
  · rw [hsame]
    exact ⟨.refl a, .refl b⟩
  · exact Resolve.objectsSwept_stands ha hb htriggerA htriggerB hswept
  · rw [htested]
    exact Resolve.objects_stands a b l'

theorem resolvePair_stands {s : Array (Element α) × Ledger α} (hheld : Held befores s.1.toList)
    (p : BroadPhase.Pair) :
    List.Forall₂ Element.Stands s.1.toList (resolvePair befores s p).1.toList := by
  refine resolvePair_forall₂ .refl (fun _ _ _ => .trans) befores s p ?_ fun t head => .trigger t t.box head
  rintro a b ha hb r rfl
  rw [← Array.getElem?_toList] at ha hb
  obtain ⟨hA, hB⟩ := resolveObjects_stands s.2 (hheld p.a a ha) (hheld p.b b hb)
  exact ⟨.object hA, .object hB⟩

/-- Any pairs, in any order and any number of times. -/
theorem foldl_resolvePair_stands (pairs : List BroadPhase.Pair) {s : Array (Element α) × Ledger α}
    (hheld : Held befores s.1.toList) :
    List.Forall₂ Element.Stands s.1.toList (pairs.foldl (resolvePair befores) s).1.toList := by
  induction pairs generalizing s with
  | nil => exact List.forall₂_same.mpr fun e _ => .refl e
  | cons p pairs ih =>
    have hpair := resolvePair_stands hheld p
    rw [List.foldl_cons]
    exact Element.Stands.all_trans hpair (ih (hheld.of_stands hpair))

/-! ## §F A tick -/

/-- What a tick settles stands, whichever pairs it resolved before and in whatever order. -/
theorem settled_stands {w : World α}
    (hfinite : ∀ o, .object o ∈ w.elements → o.isFixed = true → o.position.IsFinite)
    (pairs : List BroadPhase.Pair) {paired : Array (Element α) × Ledger α}
    (hpaired : pairs.foldl (resolvePair w.start.2) (w.start.1.elements, ⟨w.start.1.pool, #[]⟩) = paired)
    {elements : Array (Element α)} {l : Ledger α} {fallen : List EntityId}
    (h : (List.range paired.1.size).foldlM (settleAt w.start.1 w.start.2) (paired.1, paired.2, []) =
      .ok (elements, l, fallen)) :
    List.Forall₂ Element.Stands w.elements.toList elements.toList := by
  have hresolved := foldl_resolvePair_stands pairs
    (s := (w.start.1.elements, ⟨w.start.1.pool, #[]⟩)) (start_held hfinite)
  rw [hpaired] at hresolved
  have hsettled := rel_of_foldlM_eq_ok
    (R := fun s s' : Array (Element α) × Ledger α × List EntityId =>
      List.Forall₂ Element.Stands s.1.toList s'.1.toList)
    (fun _ => List.forall₂_same.mpr fun e _ => .refl e) (fun _ _ _ => Element.Stands.all_trans)
    (fun _ _ _ => settleAt_stands) h
  exact Element.Stands.all_trans (start_stands w).1 (Element.Stands.all_trans hresolved hsettled)

/-- **What is fixed, and every trigger, stays where it is.** When the fixed objects of a world are at finite
places, what a tick leaves behind are elements that stand for the ones before it: fixed objects and objects
that are triggers keep their positions and velocities, spatial triggers all but their boxes and contacts. In a
run none of them is taken out. The same holds of what is settled after any list of pairs was resolved, in
whatever order. -/
theorem immovable_stand {w : World α}
    (hfinite : ∀ o, .object o ∈ w.elements → o.isFixed = true → o.position.IsFinite)
    {outcome : Outcome α} (h : w.collide = .ok outcome) :
    (∃ settled, List.Forall₂ Element.Stands w.elements.toList settled ∧
      outcome.world.elements.toList.Subperm settled) ∧
    (Run w → ∀ id e, w.find? id = some e → e.isMovable = false →
      ∃ e', outcome.world.find? id = some e' ∧ e.Stands e') ∧
    ∀ (pairs : List BroadPhase.Pair) (paired : Array (Element α) × Ledger α)
      (elements : Array (Element α)) (l : Ledger α) (fallen : List EntityId),
      pairs.foldl (resolvePair w.start.2) (w.start.1.elements, ⟨w.start.1.pool, #[]⟩) = paired →
      (List.range paired.1.size).foldlM (settleAt w.start.1 w.start.2) (paired.1, paired.2, []) =
        .ok (elements, l, fallen) →
      List.Forall₂ Element.Stands w.elements.toList elements.toList := by
  obtain ⟨elements, l, hsettle, hremove⟩ := exists_settled_of_collide h
  have hstands : List.Forall₂ Element.Stands w.elements.toList elements.toList :=
    settled_stands hfinite _ rfl hsettle
  refine ⟨⟨elements.toList, hstands, subperm_removeAll hremove⟩, ?_, ?_⟩
  · intro hrun id e hfind himmovable
    have hregistered := hrun.registered
    have hsettled : ({ w.start.1 with elements, pool := l.pool } : World α).Registered :=
      hregistered.congr (start_ids w).2 (collide_ids hsettle)
    obtain ⟨hmem, rfl⟩ := hregistered.find?_eq_some_iff.mp hfind
    have hback : List.Forall₂ (flip Element.Stands) elements.toList w.elements.toList := hstands.flip
    obtain ⟨e', hmem', hstand⟩ := exists_of_forall₂_of_mem hback (Array.mem_toList_iff.mpr hmem)
    have hstand : e.Stands e' := hstand
    refine ⟨e', ?_, hstand⟩
    -- whoever is taken out is movable, and is found under its own identity only
    have hkept : e.id ∉ outcome.despawned := by
      intro hid
      have hpersists := hstands.imp fun _ _ hstand => hstand.persists
      obtain ⟨o, ho, hfixed, htrigger⟩ :=
        (hregistered.fallen_movable hpersists (settled_tested hsettle)).2 e.id hid
      obtain ⟨e₁, hfind₁, hobject⟩ := Option.bind_eq_some_iff.mp ho
      cases hfind.symm.trans hfind₁
      cases e with
      | trigger t => cases hobject
      | object o₁ =>
        cases hobject
        have hmovable : (!(o.isFixed || o.isTrigger)) = false := himmovable
        rw [hfixed, htrigger] at hmovable
        exact absurd hmovable Bool.noConfusion
    have hid := hstand.persists.id_eq
    rw [← hid] at hkept ⊢
    exact (hregistered.collide h).find?_eq_some_iff.mpr
      ⟨(hsettled.mem_removeAll hremove e').mpr ⟨Array.mem_toList_iff.mp hmem', hkept⟩, rfl⟩
  · intro pairs paired elements' l' fallen' hpaired hsettle'
    exact settled_stands hfinite pairs hpaired hsettle'

/-- A fast box is about to run into a fixed one. -/
def pillar : World Float32 :=
  let box (id : UInt32) (x : Float32) : DynamicObject Float32 :=
    .create ⟨id⟩ ⟨.box ⟨1, 1, 1⟩, 0, 0, 0⟩ Layers.all ⟨x, 0, 0⟩ none
  ((World.new { Config.standard with contactPoolCapacity := 3 }).after
    (.addObject { box 1 0 with flags := ObjectFlags.fixed })).after
    (.addObject { box 2 (-6) with velocity := ⟨300, 0, 0⟩ })

theorem pillar_run : Run pillar := by
  unfold pillar
  exact ((Run.new _).step (.addObject _) trivial).step (.addObject _) trivial

theorem pillar_pairs : BroadPhase.pairs
    ((pillar.start.1.elements.zip pillar.start.2).map fun x => sweptBox x.1 x.2) = [⟨1, 0⟩] := by
  unfold BroadPhase.pairs
  rw [BroadPhase.sortedEdges_eq [⟨-56, false, 1⟩, ⟨-8, false, 0⟩, ⟨8, true, 0⟩, ⟨41, true, 1⟩]
    (by decide +kernel) (by decide +kernel) (by decide +kernel)]
  decide +kernel

/-- In a tick the fast box is stopped. -/
theorem pillar_collide : ∃ outcome, pillar.collide = .ok outcome ∧
    (outcome.world.findObject? ⟨2⟩).map (·.isPushed) = some DynamicObject.oneTick := by
  have hpushed : (pillar.collide.toOption.map fun outcome =>
      (outcome.world.findObject? ⟨2⟩).map (·.isPushed)) = some (some DynamicObject.oneTick) := by
    rw [collide_of_pairs pillar_pairs]
    decide +kernel
  exact exists_eq_ok_of_map hpushed

/-- The fixed box, which met it, is where it was and at rest. -/
theorem pillar_stands : ∃ outcome, pillar.collide = .ok outcome ∧
    (outcome.world.findObject? ⟨2⟩).map (·.isPushed) = some DynamicObject.oneTick ∧
    ∃ o, outcome.world.find? ⟨1⟩ = some (.object o) ∧ o.position.Agrees Vec3.zero ∧
      o.velocity = Vec3.zero := by
  obtain ⟨outcome, hcollide, hstopped⟩ := pillar_collide
  have hfinite : ∀ e ∈ pillar.elements, Scalar.isFinite e.position.x = true ∧
      Scalar.isFinite e.position.y = true ∧ Scalar.isFinite e.position.z = true := by
    decide +kernel
  have hplaces (o : DynamicObject Float32) (ho : .object o ∈ pillar.elements)
      (_ : o.isFixed = true) : o.position.IsFinite := by
    obtain ⟨hx, hy, hz⟩ := hfinite _ ho
    intro axis
    cases axis
    · exact hx
    · exact hy
    · exact hz
  obtain ⟨-, hfound, -⟩ := immovable_stand hplaces hcollide
  obtain ⟨o, hfind, hfixed, hposition, hvelocity⟩ : ∃ o, pillar.find? ⟨1⟩ = some (.object o) ∧
      o.isFixed = true ∧ o.position = Vec3.zero ∧ o.velocity = Vec3.zero :=
    ⟨_, rfl, rfl, rfl, rfl⟩
  have himmovable : (Element.object o).isMovable = false := by
    show (!(o.isFixed || o.isTrigger)) = false
    rw [hfixed]
    rfl
  obtain ⟨e', hfind', hstand⟩ := hfound pillar_run ⟨1⟩ _ hfind himmovable
  cases hstand with
  | @object _ o' hstand =>
    refine ⟨outcome, hcollide, hstopped, o', hfind', ?_, ?_⟩
    · rw [← hposition]
      exact hstand.fixed hfixed
    · rw [← hvelocity]
      apply hstand.velocity
      rw [hfixed]
      rfl

end World

end ConvexCollision
