import ConvexCollision.Proofs.Contact.Booked
import ConvexCollision.Proofs.Except
import ConvexCollision.Proofs.Sweep.Route
import ConvexCollision.Water

/-!
# ConvexCollision.Proofs.Contact.Records -- what a tick writes on the list of an object

Whatever the geometry answers, a step of a tick only puts contacts in front of the lists of the objects
that it is about. Against static geometry these contacts name nobody (`Adds`). Two objects that meet
get one contact each, with opposite normals and each other's identity (`AddsPair`), and a trigger gets
one that names the object (`objectInTrigger_adds`). The one thing that can go wrong is a pool without a
free contact, and that is on the journal (`Ledger.Exhausted`).

All is said for any other holders of contacts, so that steps compose and nothing has to be known of the
rest of the world.
-/

namespace ConvexCollision

open ContactPool (Booked)

variable {α : Type} [Scalar α]

/-! ## §A The ledger -/

namespace Ledger

variable {n : Nat} {l l' l'' : Ledger α} {books : List (Option ContactId × List (Contact α))}
  {loose : List ContactId}

/-- A contact was dropped since none was free. -/
def Exhausted (l : Ledger α) : Prop := ∃ other, Event.poolExhausted other ∈ l.journal

/-- Nothing happens to the contacts, and what is on the journal stays there. -/
structure Reports (l l' : Ledger α) : Prop where
  /-- The contacts stay what they were. -/
  pool : l'.pool = l.pool
  /-- A dropped contact stays on the journal. -/
  exhausted : l.Exhausted → l'.Exhausted

omit [Scalar α] in
theorem Exhausted.report (h : l.Exhausted) (e : Event α) : (l.report e).Exhausted := by
  obtain ⟨other, hother⟩ := h
  exact ⟨other, Array.mem_push_of_mem _ hother⟩

omit [Scalar α] in
theorem exhausted_report (l : Ledger α) (other : EntityId) :
    (l.report (.poolExhausted other)).Exhausted :=
  ⟨other, Array.mem_push_self⟩

omit [Scalar α] in
theorem Reports.refl (l : Ledger α) : l.Reports l := ⟨rfl, id⟩

omit [Scalar α] in
theorem Reports.trans (h : l.Reports l') (g : l'.Reports l'') : l.Reports l'' :=
  ⟨g.pool.trans h.pool, g.exhausted ∘ h.exhausted⟩

omit [Scalar α] in
theorem reports_report (l : Ledger α) (e : Event α) : l.Reports (l.report e) :=
  ⟨rfl, fun h => h.report e⟩

omit [Scalar α] in
theorem Exhausted.pushFront (h : l.Exhausted) (head : Option ContactId) (contact : Contact α) :
    (l.pushFront head contact).1.Exhausted := by
  unfold Ledger.pushFront
  split
  · exact h
  · exact h.report _

omit [Scalar α] in
theorem Exhausted.allocate (h : l.Exhausted) (contact : Contact α) :
    (l.allocate contact).1.Exhausted := by
  unfold Ledger.allocate
  split
  · exact h
  · exact h.report _

omit [Scalar α] in
/-- A contact that goes in front of a list takes one, if any. -/
theorem freeCount_pushFront (l : Ledger α) (head : Option ContactId) (contact : Contact α) :
    (l.pushFront head contact).1.pool.freeCount = l.pool.freeCount - 1 := by
  unfold Ledger.pushFront ContactPool.pushFront? ContactPool.allocate? ContactPool.freeCount
  cases hfree : l.pool.free with
  | nil => exact congrArg List.length hfree
  | cons => rfl

omit [Scalar α] in
theorem freeCount_pushFront_le (l : Ledger α) (head : Option ContactId) (contact : Contact α) :
    l.pool.freeCount ≤ (l.pushFront head contact).1.pool.freeCount + 1 := by
  rw [freeCount_pushFront]
  exact Nat.sub_le_iff_le_add.mp (le_refl _)

/-- A contact goes in front of a list, or is dropped. -/
theorem booked_pushFront {head : Option ContactId} {cs : List (Contact α)}
    (h : l.pool.Booked n ((head, cs) :: books) loose) (contact : Contact α) :
    ∃ added, (l.pushFront head contact).1.pool.Booked n
        (((l.pushFront head contact).2, added ++ cs) :: books) loose ∧
      (added = [contact] ∨ added = [] ∧ (l.pushFront head contact).1.Exhausted) := by
  unfold pushFront
  split
  · next hpush => exact ⟨[contact], h.pushFront hpush, .inl rfl⟩
  · exact ⟨[], h, .inr ⟨rfl, exhausted_report l _⟩⟩

/-- A contact goes in front of a list when one is free. -/
theorem booked_pushFront_take {head : Option ContactId} {cs : List (Contact α)}
    (h : l.pool.Booked n ((head, cs) :: books) loose) (contact : Contact α) :
    (l.pushFront head contact).1.pool.Booked n
      (((l.pushFront head contact).2, [contact].take l.pool.freeCount ++ cs) :: books) loose := by
  unfold pushFront ContactPool.freeCount
  cases hfree : l.pool.free with
  | nil =>
    have hnone : l.pool.pushFront? head contact = none := by
      rw [ContactPool.pushFront?, ContactPool.allocate?, hfree]
      rfl
    rw [hnone]
    exact h
  | cons =>
    have hsome : ∃ r, l.pool.pushFront? head contact = some r := by
      rw [ContactPool.pushFront?, ContactPool.allocate?, hfree]
      exact ⟨_, rfl⟩
    obtain ⟨r, hpush⟩ := hsome
    rw [hpush, List.length_cons, List.take_succ_cons, List.take_nil]
    exact h.pushFront hpush

theorem booked_allocate (h : l.pool.Booked n books loose) (contact : Contact α) :
    (l.allocate contact).1.pool.Booked n books ((l.allocate contact).2.toList ++ loose) := by
  unfold allocate
  split
  · next htake => exact (h.take htake).1
  · exact h

omit [Scalar α] in
/-- A step that was taken in the middle of a tick met no fault. -/
theorem eq_ok_of_guarding {β : Type} {step : Except Fault β} {result : β}
    (h : l.guarding step = .ok result) : step = .ok result := by
  cases step with
  | error fault => cases h
  | ok b =>
    cases h
    rfl

end Ledger

open Ledger (Reports)

/-! ## §B Motion -/

namespace DynamicObject

/-- What a step must not change by the way: who the object is, and which contacts it holds. -/
def tag (o : DynamicObject α) : EntityId × Option ContactId × Option ContactId :=
  (o.id, o.activeContacts, o.shadowContact)

theorem tag_recalcBox (o : DynamicObject α) : o.recalcBox.tag = o.tag := rfl

theorem tag_integrate (o : DynamicObject α) (dt gravity : α) :
    (o.integrate dt gravity).tag = o.tag := by
  unfold integrate
  split
  · rfl
  · simp only
    split <;> rfl

end DynamicObject

/-! ## §C One object -/

omit [Scalar α] in
/-- Contacts that name nobody, put in front of a list in two steps. -/
theorem exists_added_trans {cs : List (Contact α)} {P Q : List (Contact α) → Prop}
    (hfirst : ∃ added : List (Contact α), (∀ c ∈ added, c.other = EntityId.none) ∧ P (added ++ cs))
    (hsecond : ∀ ds, P ds →
      ∃ added : List (Contact α), (∀ c ∈ added, c.other = EntityId.none) ∧ Q (added ++ ds)) :
    ∃ added : List (Contact α), (∀ c ∈ added, c.other = EntityId.none) ∧ Q (added ++ cs) := by
  obtain ⟨first, hnobody, hmiddle⟩ := hfirst
  obtain ⟨second, hnobody', hend⟩ := hsecond _ hmiddle
  refine ⟨second ++ first, ?_, ?_⟩
  · intro c hc
    rcases List.mem_append.mp hc with hc | hc
    · exact hnobody' c hc
    · exact hnobody c hc
  · rw [List.append_assoc]
    exact hend

/-- A step with an object puts contacts that name nobody in front of its list. -/
structure Adds (o : DynamicObject α) (l : Ledger α) (o' : DynamicObject α) (l' : Ledger α) :
    Prop where
  /-- The object stays who it is. -/
  id : o'.id = o.id
  /-- The shadow stays. -/
  shadow : o'.shadowContact = o.shadowContact
  /-- A dropped contact stays on the journal. -/
  exhausted : l.Exhausted → l'.Exhausted
  /-- The list grows at its front. -/
  booked : ∀ {n cs books loose}, l.pool.Booked n ((o.activeContacts, cs) :: books) loose →
    ∃ added : List (Contact α), (∀ c ∈ added, c.other = EntityId.none) ∧
      l'.pool.Booked n ((o'.activeContacts, added ++ cs) :: books) loose

namespace Adds

variable {o o' o'' : DynamicObject α} {l l' l'' : Ledger α}

/-- Nothing changes that has to do with contacts. -/
theorem of_tag (ho : o'.tag = o.tag) (hl : l.Reports l') : Adds o l o' l' := by
  obtain ⟨hid, hhandles⟩ := Prod.mk.inj ho
  obtain ⟨hactive, hshadow⟩ := Prod.mk.inj hhandles
  refine ⟨hid, hshadow, hl.exhausted, ?_⟩
  intro n cs books loose h
  refine ⟨[], by simp, ?_⟩
  rw [hl.pool, hactive]
  exact h

theorem refl (o : DynamicObject α) (l : Ledger α) : Adds o l o l := of_tag rfl (Reports.refl l)

theorem trans (h : Adds o l o' l') (g : Adds o' l' o'' l'') : Adds o l o'' l'' := by
  refine ⟨g.id.trans h.id, g.shadow.trans h.shadow, g.exhausted ∘ h.exhausted, ?_⟩
  intro n cs books loose hbooked
  exact exists_added_trans (Q := fun ds => l''.pool.Booked n ((o''.activeContacts, ds) :: books) loose)
    (h.booked hbooked) fun _ => g.booked

/-- A contact that names nobody is recorded in front of the object's list. -/
theorem record (ho : o'.tag = o.tag) {c : Contact α} (hother : c.other = EntityId.none) :
    Adds o l { o' with activeContacts := (l.pushFront o'.activeContacts c).2 }
      (l.pushFront o'.activeContacts c).1 := by
  obtain ⟨hid, hhandles⟩ := Prod.mk.inj ho
  obtain ⟨hactive, hshadow⟩ := Prod.mk.inj hhandles
  refine ⟨hid, hshadow, fun h => h.pushFront _ _, ?_⟩
  intro n cs books loose h
  rw [hactive]
  obtain ⟨added, hbooked, hadded⟩ := Ledger.booked_pushFront h c
  refine ⟨added, ?_, hbooked⟩
  rcases hadded with rfl | ⟨rfl, -⟩ <;> simp [hother]

/-- Steps along a list, any of which may meet a fault. -/
theorem foldlM {ε β : Type}
    {step : DynamicObject α × Ledger α → β → Except ε (DynamicObject α × Ledger α)}
    (hstep : ∀ s x s', step s x = .ok s' → Adds s.1 s.2 s'.1 s'.2) {xs : List β}
    {s s' : DynamicObject α × Ledger α} (h : xs.foldlM step s = .ok s') :
    Adds s.1 s.2 s'.1 s'.2 :=
  rel_of_foldlM_eq_ok (R := fun s s' => Adds s.1 s.2 s'.1 s'.2) (fun s => refl s.1 s.2)
    (fun _ _ _ => Adds.trans) hstep h

end Adds

namespace Resolve

omit [Scalar α] in
theorem reports_failure (l : Ledger α) (failure : PenetrationFailure) :
    l.Reports (reportFailure l failure) := by
  cases failure with
  | noFace => exact Reports.refl l
  | _ => exact Ledger.reports_report l _

omit [Scalar α] in
theorem reports_approach (l : Ledger α) (approach : Approach α) :
    l.Reports (reportApproach l approach) := by
  cases approach with
  | unfinished => exact Ledger.reports_report l _
  | _ => exact Reports.refl l

/-- An object pushed out of a triangle records the contact. -/
theorem triangle_adds (m : Mesh α) (o : DynamicObject α) (i : Nat) (l : Ledger α) :
    Adds o l (triangle m o i l).1 (triangle m o i l).2 := by
  unfold triangle
  simp only
  split
  · exact Adds.refl o l
  split
  · exact Adds.of_tag rfl (reports_failure l _)
  next hit _ =>
  split
  · have hpushed : ((o.move (hit.normal * hit.penetration)).respond hit.normal).tag = o.tag := rfl
    exact Adds.record hpushed rfl
  · exact Adds.refl o l

/-- A pass over a mesh goes from triangle to triangle, so that what each of them keeps up holds at its
end. -/
theorem inv_mesh {m : Mesh α} {o o' : DynamicObject α} {l l' : Ledger α}
    (inv : DynamicObject α × Ledger α → Prop) (hstep : ∀ s i, inv s → inv (triangle m s.1 i s.2))
    (h : mesh m o l = .ok (o', l')) (hstart : inv (o, l)) : inv (o', l') := by
  unfold mesh at h
  obtain ⟨found, -, h⟩ := bind_eq_ok_iff.mp h
  have hfold : found.foldl (fun s i => triangle m s.1 i s.2) (o, l) = (o', l') := Except.ok.inj h
  rw [← hfold, ← Array.foldl_toList]
  exact inv_foldl (fun _ => inv) (fun i _ s => hstep s i) hstart

theorem mesh_adds {m : Mesh α} {o o' : DynamicObject α} {l l' : Ledger α}
    (h : mesh m o l = .ok (o', l')) : Adds o l o' l' :=
  inv_mesh (fun s => Adds o l s.1 s.2) (fun s i hs => hs.trans (triangle_adds m s.1 i s.2)) h
    (Adds.refl o l)

/-- Looking for hits takes no contact. -/
theorem triangleHit_reports (m : Mesh α) (o : DynamicObject α) (motion : Vec3 α) (i : Nat)
    (l : Ledger α) : l.Reports (triangleHit m o motion i l).2 := by
  unfold triangleHit
  simp only
  split
  · split
    · exact reports_approach l _
    · -- whichever way the tests go, the ledger is the same
      simp only [apply_ite Prod.snd, ite_self]
      exact reports_approach l _
  · exact Reports.refl l

theorem earliestOn_reports (m : Mesh α) (o : DynamicObject α) (motion : Vec3 α)
    (triangles : Array Nat) (state : Option (SurfaceHit α) × Ledger α) :
    state.2.Reports (earliestOn m o motion triangles state).2 := by
  unfold earliestOn
  rw [← Array.foldl_toList]
  induction triangles.toList generalizing state with
  | nil => exact Reports.refl _
  | cons i rest ih =>
    obtain ⟨best, l⟩ := state
    exact (triangleHit_reports m o motion i l).trans
      (ih (earlier best (triangleHit m o motion i l).1, (triangleHit m o motion i l).2))

theorem earliestHit_reports {meshes : List (Mesh α)} {o : DynamicObject α} {motion : Vec3 α}
    {l l' : Ledger α} {hit : Option (SurfaceHit α)}
    (h : earliestHit meshes o motion l = .ok (hit, l')) : l.Reports l' := by
  unfold earliestHit at h
  refine rel_of_foldlM_eq_ok (R := fun s s' : Option (SurfaceHit α) × Ledger α => s.2.Reports s'.2)
    (fun _ => Reports.refl _) (fun _ _ _ => Reports.trans) ?_ h
  intro s m s' hm
  split at hm
  · cases hm
    exact earliestOn_reports m o motion _ s
  · cases hm

/-- An object walked along its motion records the contacts at which it was stopped. -/
theorem walk_adds {meshes : List (Mesh α)} {limit left : Nat} {safe : Vec3 α}
    {o o' : DynamicObject α} {l l' : Ledger α} (h : walk meshes limit left safe o l = .ok (o', l')) :
    Adds o l o' l' := by
  obtain ⟨legs, hroute⟩ := walk_eq_ok_iff.mp h
  clear h
  -- on the legs of its route, each of which but the last one records a contact
  induction hroute with
  | remainder _ => exact Adds.refl _ _
  | arrived _ hfree => exact Adds.of_tag rfl (earliestHit_reports hfree)
  | putBack _ hhit =>
    exact Adds.of_tag rfl ((earliestHit_reports hhit).trans (Ledger.reports_report _ _))
  | @hit left safe o o' l l₁ l' hit legs _ hhit _ ih =>
    -- sliding on touches no contact, and recording the hit adds one
    have hslide : (slide o (o.position - safe) hit.1).1.tag = o.tag := rfl
    have hrecord : Adds o l₁ _ _ := Adds.record hslide
      (c := ⟨hit.1.normal, hit.1.contactA, hit.2, EntityId.none⟩) rfl
    exact ((Adds.of_tag rfl (earliestHit_reports hhit)).trans hrecord).trans ih

theorem meshesSwept_adds {meshes : List (Mesh α)} {limit : Nat} {previous : Vec3 α}
    {o o' : DynamicObject α} {l l' : Ledger α}
    (h : meshesSwept meshes limit previous o l = .ok (o', l')) : Adds o l o' l' := walk_adds h

end Resolve

/-! ## §D Two objects -/

/-- What two parties record of each other in one step: nothing, or one contact each, which name each
other and whose normals are opposite. -/
inductive Exchange (a b : EntityId) : List (Contact α) → List (Contact α) → Prop
  /-- They do not meet. -/
  | nothing : Exchange a b [] []
  /-- They meet. -/
  | contact {c d : Contact α} (names : c.other = b) (isNamed : d.other = a)
      (opposite : c.normal = -d.normal) : Exchange a b [c] [d]

/-- A step with two objects puts at most one contact in front of the list of each. -/
structure AddsPair (a b : DynamicObject α) (l : Ledger α) (a' b' : DynamicObject α) (l' : Ledger α) :
    Prop where
  /-- The first object stays who it is. -/
  idA : a'.id = a.id
  /-- The second object stays who it is. -/
  idB : b'.id = b.id
  /-- The shadow of the first object stays. -/
  shadowA : a'.shadowContact = a.shadowContact
  /-- The shadow of the second object stays. -/
  shadowB : b'.shadowContact = b.shadowContact
  /-- A dropped contact stays on the journal. -/
  exhausted : l.Exhausted → l'.Exhausted
  /-- The lists grow together, unless a contact is dropped. -/
  booked : ∀ {n cs ds books loose},
    l.pool.Booked n ((a.activeContacts, cs) :: (b.activeContacts, ds) :: books) loose →
    ∃ addedA addedB : List (Contact α),
      l'.pool.Booked n
        ((a'.activeContacts, addedA ++ cs) :: (b'.activeContacts, addedB ++ ds) :: books) loose ∧
      (Exchange a.id b.id addedA addedB ∨ l'.Exhausted)

namespace AddsPair

variable {a a' a'' b b' b'' : DynamicObject α} {l l' l'' : Ledger α}

/-- A step after one that changes nothing that has to do with contacts. -/
theorem of_tag (ha : a'.tag = a.tag) (hb : b'.tag = b.tag) (hl : l.Reports l')
    (h : AddsPair a' b' l' a'' b'' l'') : AddsPair a b l a'' b'' l'' := by
  obtain ⟨hidA, hhandlesA⟩ := Prod.mk.inj ha
  obtain ⟨hidB, hhandlesB⟩ := Prod.mk.inj hb
  obtain ⟨hactiveA, hshadowA⟩ := Prod.mk.inj hhandlesA
  obtain ⟨hactiveB, hshadowB⟩ := Prod.mk.inj hhandlesB
  refine ⟨h.idA.trans hidA, h.idB.trans hidB, h.shadowA.trans hshadowA, h.shadowB.trans hshadowB,
    h.exhausted ∘ hl.exhausted, ?_⟩
  intro n cs ds books loose hbooked
  rw [← hidA, ← hidB]
  rw [← hactiveA, ← hactiveB, ← hl.pool] at hbooked
  exact h.booked hbooked

theorem refl (a b : DynamicObject α) (l : Ledger α) : AddsPair a b l a b l :=
  ⟨rfl, rfl, rfl, rfl, id, fun h => ⟨[], [], h, .inl .nothing⟩⟩

/-- A contact is recorded on both objects. -/
theorem recordPair (a b : DynamicObject α) (hit : Hit α) (l : Ledger α) :
    AddsPair a b l (Resolve.recordPair a b hit l).1 (Resolve.recordPair a b hit l).2.1
      (Resolve.recordPair a b hit l).2.2 := by
  refine ⟨rfl, rfl, rfl, rfl, fun h => (h.pushFront _ _).pushFront _ _, ?_⟩
  intro n cs ds books loose h
  -- the first list grows, then the second one, which is brought to the front for it
  obtain ⟨addedA, hA, hcaseA⟩ :=
    Ledger.booked_pushFront h ⟨-hit.normal, hit.contactB, .default, b.id⟩
  obtain ⟨addedB, hB, hcaseB⟩ := Ledger.booked_pushFront
    (hA.perm (List.Perm.swap _ _ _) (List.Perm.refl _)) ⟨hit.normal, hit.contactA, .default, a.id⟩
  refine ⟨addedA, addedB, hB.perm (List.Perm.swap _ _ _) (List.Perm.refl _), ?_⟩
  rcases hcaseA with rfl | ⟨-, hdropped⟩
  · rcases hcaseB with rfl | ⟨-, hdropped⟩
    · exact .inl (.contact rfl rfl rfl)
    · exact .inr hdropped
  · exact .inr (hdropped.pushFront _ _)

end AddsPair

namespace Resolve

theorem tag_pushOut (o : DynamicObject α) (normal : Vec3 α) (depth share : α) :
    (pushOut o normal depth share).tag = o.tag := by
  unfold pushOut
  split <;> rfl

theorem tag_stopPair (a b : DynamicObject α) (normal : Vec3 α) :
    (stopPair a b normal).1.tag = a.tag ∧ (stopPair a b normal).2.tag = b.tag := by
  have hmarked (push : Prop) [Decidable push] (o : DynamicObject α) :
      (if push then o.markPushed else o).tag = o.tag := by
    split <;> rfl
  unfold stopPair
  simp only [hmarked]
  split
  · exact ⟨rfl, rfl⟩
  split
  · exact ⟨rfl, rfl⟩
  split
  · exact ⟨rfl, rfl⟩
  · exact ⟨rfl, rfl⟩

/-- Two objects that are tested where they are. -/
theorem objects_adds (a b : DynamicObject α) (l : Ledger α) :
    AddsPair a b l (objects a b l).1 (objects a b l).2.1 (objects a b l).2.2 := by
  unfold objects
  split
  · exact AddsPair.refl a b l
  split
  · exact AddsPair.recordPair a b _ l
  split
  · exact AddsPair.of_tag rfl rfl (reports_failure l _) (AddsPair.refl a b _)
  next hit _ =>
  exact AddsPair.of_tag (tag_pushOut _ _ _ _) (tag_pushOut _ _ _ _) (Reports.refl l)
    (AddsPair.recordPair _ _ hit l)

/-- Two objects that did not meet on the way are left as they are, and leave nothing but a report. Two that met
are put back by what their ways had still to go, stop, and record the hit. -/
theorem objectsSwept_cases {a b a' b' : DynamicObject α} {aPrevious bPrevious : Vec3 α} {met : Bool}
    {l l' : Ledger α} (h : objectsSwept a aPrevious b bPrevious l = (met, a', b', l')) :
    let aMotion := a.position - aPrevious
    let bMotion := b.position - bPrevious
    let approach := Approach.sweep a.support b.support (bMotion - aMotion)
    (met = false ∧ a' = a ∧ b' = b ∧ l.Reports l') ∨
    met = true ∧ ∃ hit, approach.hit? = some hit ∧
      let stopped := stopPair (a.move (-aMotion * (1 - hit.time))) (b.move (-bMotion * (1 - hit.time)))
        hit.normal
      recordPair stopped.1 stopped.2
        { hit with
          contactA := hit.contactA - aMotion * (1 - hit.time)
          contactB := hit.contactB - aMotion * (1 - hit.time) } (reportApproach l approach) =
        (a', b', l') := by
  unfold objectsSwept at h
  simp only at h ⊢
  split at h
  · cases h
    exact .inl ⟨rfl, rfl, rfl, Reports.refl l⟩
  split at h
  · cases h
    exact .inl ⟨rfl, rfl, rfl, reports_approach l _⟩
  next hit hseen =>
  obtain ⟨rfl, hrecorded⟩ := Prod.mk.inj h
  exact .inr ⟨rfl, hit, hseen, hrecorded⟩

/-- Two objects that met on the way. -/
theorem objectsSwept_adds {a b a' b' : DynamicObject α} {aPrevious bPrevious : Vec3 α}
    {l l' : Ledger α} (h : objectsSwept a aPrevious b bPrevious l = (true, a', b', l')) :
    AddsPair a b l a' b' l' := by
  rcases objectsSwept_cases h with ⟨hmet, -⟩ | ⟨-, hit, -, hrecorded⟩
  · cases hmet
  obtain ⟨hA, hB⟩ := tag_stopPair
    (a.move (-(a.position - aPrevious) * (1 - hit.time)))
    (b.move (-(b.position - bPrevious) * (1 - hit.time))) hit.normal
  cases hrecorded
  exact AddsPair.of_tag hA hB (reports_approach l _) (AddsPair.recordPair _ _ _ _)

/-- What a hit leaves on the lists of two objects: each gets a contact that names the other one, with the
point on the other one and the normal that leads away from it. The first object is served first, and when
the free contacts run out there is none. -/
def RecordsPair (a b : DynamicObject α) (l : Ledger α) (hit : Hit α) (a' b' : DynamicObject α)
    (l' : Ledger α) : Prop :=
  ∀ {n cs ds books loose},
    l.pool.Booked n ((a.activeContacts, cs) :: (b.activeContacts, ds) :: books) loose →
    l'.pool.Booked n
      ((a'.activeContacts, [⟨-hit.normal, hit.contactB, .default, b.id⟩].take l.pool.freeCount ++ cs) ::
        (b'.activeContacts,
          [⟨hit.normal, hit.contactA, .default, a.id⟩].take (l.pool.freeCount - 1) ++ ds) :: books) loose

theorem recordPair_records (a b : DynamicObject α) (hit : Hit α) (l : Ledger α) :
    RecordsPair a b l hit (recordPair a b hit l).1 (recordPair a b hit l).2.1
      (recordPair a b hit l).2.2 := by
  intro n cs ds books loose h
  have hA := Ledger.booked_pushFront_take h ⟨-hit.normal, hit.contactB, .default, b.id⟩
  -- the second list grows after the first one, out of what is left
  have hB := Ledger.booked_pushFront_take (hA.perm (List.Perm.swap _ _ _) (List.Perm.refl _))
    ⟨hit.normal, hit.contactA, .default, a.id⟩
  rw [Ledger.freeCount_pushFront] at hB
  exact hB.perm (List.Perm.swap _ _ _) (List.Perm.refl _)

/-- It does not matter what else a step before has done to the objects. -/
theorem RecordsPair.of_tag {a a' a'' b b' b'' : DynamicObject α} {l l' l'' : Ledger α} {hit : Hit α}
    (ha : a'.tag = a.tag) (hb : b'.tag = b.tag) (hl : l'.pool = l.pool)
    (h : RecordsPair a' b' l' hit a'' b'' l'') : RecordsPair a b l hit a'' b'' l'' := by
  obtain ⟨hidA, hhandlesA⟩ := Prod.mk.inj ha
  obtain ⟨hidB, hhandlesB⟩ := Prod.mk.inj hb
  intro n cs ds books loose hbooked
  rw [← (Prod.mk.inj hhandlesA).1, ← (Prod.mk.inj hhandlesB).1, ← hl] at hbooked
  rw [← hidA, ← hidB, ← hl]
  exact h hbooked

/-! ## §E An object and a trigger -/

/-- A trigger puts at most one contact in front of its list, and that one names the object. -/
theorem objectInTrigger_adds (o : DynamicObject α) (t : SpatialTrigger α) (l : Ledger α) :
    (objectInTrigger o t l).1.id = t.id ∧
    (l.Exhausted → (objectInTrigger o t l).2.Exhausted) ∧
    ∀ {n cs books loose}, l.pool.Booked n ((t.activeContacts, cs) :: books) loose →
      ∃ added : List (Contact α), added.length ≤ 1 ∧ (∀ c ∈ added, c.other = o.id) ∧
        (objectInTrigger o t l).2.pool.Booked n
          (((objectInTrigger o t l).1.activeContacts, added ++ cs) :: books) loose := by
  unfold objectInTrigger
  split
  · exact ⟨rfl, id, fun h => ⟨[], by simp, by simp, h⟩⟩
  split
  · refine ⟨rfl, fun h => h.pushFront _ _, ?_⟩
    intro n cs books loose h
    obtain ⟨added, hbooked, hadded⟩ :=
      Ledger.booked_pushFront h ⟨Vec3.unitY, o.position, .default, o.id⟩
    refine ⟨added, ?_, ?_, hbooked⟩ <;> rcases hadded with rfl | ⟨rfl, -⟩ <;> simp
  · exact ⟨rfl, id, fun h => ⟨[], by simp, by simp, h⟩⟩

end Resolve

end ConvexCollision
