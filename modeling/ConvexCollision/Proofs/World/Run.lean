import ConvexCollision.Proofs.World.Elements

/-!
# ConvexCollision.Proofs.World.Run -- the registry in every run

A run puts requests to a world, one after another, whatever they are. Between them, whoever holds the world
may write to the fields of an element, its contacts included, as long as its identity stays. `answer` is
whether a request is granted, next to the world that it leaves, and `after` is that world. `Granted` says what
a request that is granted comes down to. One that is not granted leaves the world as it was, whichever
operation it came to (`answer_cases`).

Every request that is granted keeps the registry right (`Registered.granted`), so that it is right in every
run. With it, whether a request is refused depends on the elements and meshes alone (`Registered.answer_spec`).
-/

namespace ConvexCollision.World

variable {α : Type} [Scalar α]

/-! ## §A Requests -/

/-- What may be asked of a world that changes it. -/
inductive Request (α : Type) [Scalar α] where
  /-- To add an object. -/
  | addObject (o : DynamicObject α)
  /-- To take an object out. -/
  | removeObject (id : EntityId)
  /-- To add a trigger. -/
  | addTrigger (t : SpatialTrigger α)
  /-- To take a trigger out. -/
  | removeTrigger (id : EntityId)
  /-- To add a static mesh. -/
  | addMesh (m : Mesh α)
  /-- To take a static mesh out. -/
  | removeMesh (handle : MeshHandle)
  /-- To take everything out. -/
  | reset
  /-- To go on by one tick. -/
  | collide
  /-- To write to the fields of an object. -/
  | modifyObject (id : EntityId) (f : DynamicObject α → DynamicObject α)
  /-- To write to the fields of a trigger. -/
  | modifyTrigger (id : EntityId) (f : SpatialTrigger α → SpatialTrigger α)

/-- What comes of a request that meets no fault: whether it is granted, and the world that it leaves. -/
def answer (w : World α) : Request α → Except Fault (Bool × World α)
  | .addObject o => .ok ((w.addObject o).1.toBool, (w.addObject o).2)
  | .removeObject id => (w.removeObject id).map fun (o, w) => (o.isSome, w)
  | .addTrigger t => .ok ((w.addTrigger t).1.toBool, (w.addTrigger t).2)
  | .removeTrigger id => (w.removeTrigger id).map fun (t, w) => (t.isSome, w)
  | .addMesh m => (w.addMesh m).map fun (w, _) => (true, w)
  | .removeMesh handle => .ok ((w.removeMesh handle).1.isSome, (w.removeMesh handle).2)
  | .reset => .ok (true, w.reset)
  | .collide => (w.collide.mapError (·.fault)).map fun outcome => (true, outcome.world)
  | .modifyObject id f => .ok ((w.modifyObject id f).1.isSome, (w.modifyObject id f).2)
  | .modifyTrigger id f => .ok ((w.modifyTrigger id f).1.isSome, (w.modifyTrigger id f).2)

/-- The world after a request, granted or not. A fault leaves no world behind: what is said of the worlds
after it is said of the one before it. -/
def after (w : World α) (r : Request α) : World α :=
  match w.answer r with
  | .ok (_, w) => w
  | .error _ => w

/-- Whoever writes to an element leaves its identity alone. -/
def Request.KeepsIdentity (w : World α) : Request α → Prop
  | modifyObject id f => ∀ o, w.findObject? id = some o → (f o).id = o.id
  | modifyTrigger id f => ∀ t, w.findTrigger? id = some t → (f t).id = t.id
  | _ => True

/-- The world comes about in a run. -/
inductive Run : World α → Prop
  /-- An empty world. -/
  | new (config : Config α) : Run (World.new config)
  /-- A request, refused or not. -/
  | step {w : World α} (before : Run w) (r : Request α) (keeps : r.KeepsIdentity w) : Run (w.after r)

/-- Why a request is refused, told by the elements and meshes. -/
def Refuses (w : World α) : Request α → Prop
  | .addObject o => o.id = EntityId.none ∨ ∃ e ∈ w.elements, e.id = o.id
  | .removeObject id => ∀ o, .object o ∈ w.elements → o.id ≠ id
  | .addTrigger t => t.id = EntityId.none ∨ ∃ e ∈ w.elements, e.id = t.id
  | .removeTrigger id => ∀ t, .trigger t ∈ w.elements → t.id ≠ id
  | .removeMesh handle => ∀ entry ∈ w.meshes, entry.1 ≠ handle
  | .modifyObject id _ => ∀ o, .object o ∈ w.elements → o.id ≠ id
  | .modifyTrigger id _ => ∀ t, .trigger t ∈ w.elements → t.id ≠ id
  | .addMesh _ | .reset | .collide => False

/-- Where a request meets a fault: all places for meshes are taken, or a tick comes to a tree that cannot be
walked. -/
def Faults (w : World α) : Request α → Prop
  | .addMesh _ => maxStaticMeshes ≤ w.meshes.length
  | .collide => ∃ interruption, w.collide = .error interruption
  | _ => False

/-- What a request that is granted comes down to. -/
inductive Granted (w : World α) : Request α → World α → Prop
  /-- An object is added, as it is taken in. -/
  | addObject {o : DynamicObject α}
    (added : w.addElement (.object o.entered) = (.ok (), w.withElement (.object o.entered))) :
    Granted w (.addObject o) (w.withElement (.object o.entered))
  /-- An element is taken out. -/
  | removeObject {id : EntityId} {taken? : Option (Element α)} {w' : World α}
    (removed : w.removeElement id = .ok (taken?, w')) : Granted w (.removeObject id) w'
  /-- A trigger is added, as it is taken in. -/
  | addTrigger {t : SpatialTrigger α}
    (added : w.addElement (.trigger t.entered) = (.ok (), w.withElement (.trigger t.entered))) :
    Granted w (.addTrigger t) (w.withElement (.trigger t.entered))
  /-- An element is taken out. -/
  | removeTrigger {id : EntityId} {taken? : Option (Element α)} {w' : World α}
    (removed : w.removeElement id = .ok (taken?, w')) : Granted w (.removeTrigger id) w'
  /-- The mesh is the last one, under the next number. -/
  | addMesh {m : Mesh α} : Granted w (.addMesh m)
    ({ w with meshes := w.meshes ++ [(⟨w.nextHandle⟩, m)], nextHandle := w.nextHandle + 1 } :
      World α).updateKillPlane
  /-- The first entry of the handle is gone. -/
  | removeMesh {handle : MeshHandle} : Granted w (.removeMesh handle)
    ({ w with meshes := w.meshes.eraseP fun e => e.1 == handle } : World α).updateKillPlane
  /-- The world is emptied. -/
  | reset : Granted w .reset w.reset
  /-- The tick ends. -/
  | collide {outcome : Outcome α} (ends : w.collide = .ok outcome) : Granted w .collide outcome.world
  /-- An object is overwritten in its place. -/
  | modifyObject {id : EntityId} {f : DynamicObject α → DynamicObject α} {i : Nat} {o : DynamicObject α}
    (here : w.registry.find? id = some i) (found : w.findObject? id = some o) :
    Granted w (.modifyObject id f) { w with elements := w.elements.setIfInBounds i (.object (f o)) }
  /-- A trigger is overwritten in its place. -/
  | modifyTrigger {id : EntityId} {f : SpatialTrigger α → SpatialTrigger α} {i : Nat} {t : SpatialTrigger α}
    (here : w.registry.find? id = some i) (found : w.findTrigger? id = some t) :
    Granted w (.modifyTrigger id f) { w with elements := w.elements.setIfInBounds i (.trigger (f t)) }

section Answers

variable {w w' : World α} {granted : Bool}

/-- To add an element is granted, or leaves the world as it is. -/
theorem answer_addElement {e : Element α}
    (h : ((w.addElement e).1.toBool, (w.addElement e).2) = (granted, w')) :
    (granted = true ∧ w.addElement e = (.ok (), w') ∧ w' = w.withElement e) ∨ granted = false ∧ w' = w := by
  rcases w.addElement_cases e with hadd | ⟨error, hadd⟩
  · rw [hadd] at h
    cases h
    exact .inl ⟨rfl, hadd, rfl⟩
  · rw [hadd] at h
    cases h
    exact .inr ⟨rfl, rfl⟩

/-- To take out an element of a kind is granted, or leaves the world as it is. -/
theorem answer_removeOf {τ : Type} {kind : Element α → Option τ}
    (hkind : ∀ e pool, (kind (e.returnContacts pool).1).isSome = (kind e).isSome) {id : EntityId}
    (h : (removeOf kind w id).map (fun (x, w) => (x.isSome, w)) = .ok (granted, w')) :
    (granted = true ∧ ∃ taken?, w.removeElement id = .ok (taken?, w')) ∨ granted = false ∧ w' = w := by
  rcases removeOf_cases hkind w id with ⟨-, hof⟩ | ⟨-, e, x, w₁, hremove, -, hof⟩
  · rw [hof] at h
    cases h
    exact .inr ⟨rfl, rfl⟩
  · rw [hof] at h
    cases h
    exact .inl ⟨rfl, some e, hremove⟩

end Answers

/-- **A request is granted, or it leaves the world as it is.** -/
theorem answer_cases {w w' : World α} {r : Request α} {granted : Bool}
    (h : w.answer r = .ok (granted, w')) :
    granted = true ∧ w.Granted r w' ∨ granted = false ∧ w' = w := by
  cases r with
  | addObject o =>
    refine (answer_addElement (Except.ok.inj h)).imp_left ?_
    rintro ⟨hgranted, hadd, rfl⟩
    exact ⟨hgranted, .addObject hadd⟩
  | addTrigger t =>
    refine (answer_addElement (Except.ok.inj h)).imp_left ?_
    rintro ⟨hgranted, hadd, rfl⟩
    exact ⟨hgranted, .addTrigger hadd⟩
  | removeObject id =>
    refine (answer_removeOf isSome_object?_returnContacts h).imp_left ?_
    rintro ⟨hgranted, taken?, hremove⟩
    exact ⟨hgranted, .removeObject hremove⟩
  | removeTrigger id =>
    refine (answer_removeOf isSome_trigger?_returnContacts h).imp_left ?_
    rintro ⟨hgranted, taken?, hremove⟩
    exact ⟨hgranted, .removeTrigger hremove⟩
  | addMesh m =>
    obtain ⟨⟨w₁, handle⟩, hadd, heq⟩ := map_eq_ok_iff.mp h
    cases heq
    rw [addMesh_eq_ok hadd]
    exact .inl ⟨rfl, .addMesh⟩
  | removeMesh handle =>
    rcases w.removeMesh_cases handle with ⟨-, hremove⟩ | ⟨m, -, hremove⟩
    · rw [answer, hremove] at h
      cases h
      exact .inr ⟨rfl, rfl⟩
    · rw [answer, hremove] at h
      cases h
      exact .inl ⟨rfl, .removeMesh⟩
  | reset =>
    cases h
    exact .inl ⟨rfl, .reset⟩
  | collide =>
    cases hcollide : w.collide with
    | error interruption =>
      rw [answer, hcollide] at h
      cases h
    | ok outcome =>
      rw [answer, hcollide] at h
      cases h
      exact .inl ⟨rfl, .collide hcollide⟩
  | modifyObject id f =>
    rcases w.modifyObject_cases id f with ⟨-, hmodify⟩ | ⟨-, i, o, hi, ho, hmodify⟩
    · rw [answer, hmodify] at h
      cases h
      exact .inr ⟨rfl, rfl⟩
    · rw [answer, hmodify] at h
      cases h
      exact .inl ⟨rfl, .modifyObject hi ho⟩
  | modifyTrigger id f =>
    rcases w.modifyTrigger_cases id f with ⟨-, hmodify⟩ | ⟨-, i, t, hi, ht, hmodify⟩
    · rw [answer, hmodify] at h
      cases h
      exact .inr ⟨rfl, rfl⟩
    · rw [answer, hmodify] at h
      cases h
      exact .inl ⟨rfl, .modifyTrigger hi ht⟩

/-- After a request the world is what it came down to, or what it was. -/
theorem after_cases (w : World α) (r : Request α) : w.Granted r (w.after r) ∨ w.after r = w := by
  unfold after
  cases hanswer : w.answer r with
  | error fault => exact .inr rfl
  | ok answered => exact (answer_cases hanswer).imp And.right And.right

/-- After a tick that ends the world is what the tick leaves. -/
theorem after_collide {w : World α} {outcome : Outcome α} (ends : w.collide = .ok outcome) :
    w.after .collide = outcome.world := by
  unfold after answer
  rw [ends]
  rfl

/-! ## §B Refusing -/

namespace Registered

variable {w : World α}

theorem findObject?_eq_none_iff (h : w.Registered) {id : EntityId} :
    w.findObject? id = none ↔ ∀ o, .object o ∈ w.elements → o.id ≠ id := by
  rw [Option.eq_none_iff_forall_ne_some]
  refine forall_congr' fun o => ?_
  rw [ne_eq, h.findObject?_eq_some_iff, not_and]

theorem findTrigger?_eq_none_iff (h : w.Registered) {id : EntityId} :
    w.findTrigger? id = none ↔ ∀ t, .trigger t ∈ w.elements → t.id ≠ id := by
  rw [Option.eq_none_iff_forall_ne_some]
  refine forall_congr' fun t => ?_
  rw [ne_eq, h.findTrigger?_eq_some_iff, not_and]

/-- An element is refused for its identity, or added. -/
theorem addElement_spec (h : w.Registered) (e : Element α) :
    ((e.id = EntityId.none ∨ ∃ e' ∈ w.elements, e'.id = e.id) ∧
      ∃ error, w.addElement e = (.error error, w)) ∨
    (¬(e.id = EntityId.none ∨ ∃ e' ∈ w.elements, e'.id = e.id) ∧
      w.addElement e = (.ok (), w.withElement e)) := by
  rw [← h.addElement_eq_error_iff]
  rcases w.addElement_cases e with hadd | hadd
  · exact .inr ⟨by simp [hadd], hadd⟩
  · exact .inl ⟨hadd, hadd⟩

/-- What is asked of a world with a right registry is refused for the reasons given, meets a fault where it
is said to, and is granted otherwise. -/
theorem answer_spec (h : w.Registered) (r : Request α) :
    (w.Refuses r ∧ ∃ w', w.answer r = .ok (false, w')) ∨
    (w.Faults r ∧ ∃ fault, w.answer r = .error fault) ∨
    (¬w.Refuses r ∧ ¬w.Faults r ∧ ∃ w', w.answer r = .ok (true, w')) := by
  cases r with
  | addObject o =>
    rcases h.addElement_spec (.object o.entered) with ⟨hrefuses, error, hadd⟩ | ⟨hnew, hadd⟩
    · exact .inl ⟨hrefuses, w, by simp [answer, addObject, hadd, Except.toBool]⟩
    · exact .inr (.inr ⟨hnew, not_false, _, by simp [answer, addObject, hadd, Except.toBool]; rfl⟩)
  | addTrigger t =>
    rcases h.addElement_spec (.trigger t.entered) with ⟨hrefuses, error, hadd⟩ | ⟨hnew, hadd⟩
    · exact .inl ⟨hrefuses, w, by simp [answer, addTrigger, hadd, Except.toBool]⟩
    · exact .inr (.inr ⟨hnew, not_false, _, by simp [answer, addTrigger, hadd, Except.toBool]; rfl⟩)
  | removeObject id =>
    rcases removeOf_cases isSome_object?_returnContacts w id with ⟨hnone, hof⟩ | ⟨hsome, -, o, w', -, -, hof⟩
    · exact .inl ⟨h.findObject?_eq_none_iff.mp hnone, w, by simp [answer, removeObject, hof, Except.map]⟩
    · exact .inr (.inr ⟨mt h.findObject?_eq_none_iff.mpr hsome, not_false, w',
        by simp [answer, removeObject, hof, Except.map]⟩)
  | removeTrigger id =>
    rcases removeOf_cases isSome_trigger?_returnContacts w id with
      ⟨hnone, hof⟩ | ⟨hsome, -, t, w', -, -, hof⟩
    · exact .inl ⟨h.findTrigger?_eq_none_iff.mp hnone, w, by simp [answer, removeTrigger, hof, Except.map]⟩
    · exact .inr (.inr ⟨mt h.findTrigger?_eq_none_iff.mpr hsome, not_false, w',
        by simp [answer, removeTrigger, hof, Except.map]⟩)
  | addMesh m =>
    by_cases hroom : w.meshes.length < maxStaticMeshes
    · exact .inr (.inr ⟨not_false, Nat.not_le_of_lt hroom, _, by simp [answer, addMesh, hroom, Except.map]; rfl⟩)
    · exact .inr (.inl ⟨Nat.le_of_not_lt hroom, .meshTableFull, by simp [answer, addMesh, hroom, Except.map]⟩)
  | removeMesh handle =>
    rcases w.removeMesh_cases handle with ⟨hstale, hremove⟩ | ⟨m, hloaded, hremove⟩
    · exact .inl ⟨hstale, w, by simp [answer, hremove]⟩
    · exact .inr (.inr ⟨fun hstale => hstale _ hloaded rfl, not_false, _, by simp [answer, hremove]; rfl⟩)
  | reset => exact .inr (.inr ⟨not_false, not_false, _, rfl⟩)
  | collide =>
    cases hcollide : w.collide with
    | error interruption =>
      exact .inr (.inl ⟨⟨interruption, hcollide⟩, interruption.fault,
        by simp [answer, hcollide, Except.mapError, Except.map]⟩)
    | ok outcome =>
      exact .inr (.inr ⟨not_false, by simp [Faults, hcollide], outcome.world,
        by simp [answer, hcollide, Except.mapError, Except.map]⟩)
  | modifyObject id f =>
    rcases w.modifyObject_cases id f with ⟨hnone, hmodify⟩ | ⟨hsome, i, o, -, -, hmodify⟩
    · exact .inl ⟨h.findObject?_eq_none_iff.mp hnone, w, by simp [answer, hmodify]⟩
    · exact .inr (.inr ⟨mt h.findObject?_eq_none_iff.mpr hsome, not_false, _, by simp [answer, hmodify]; rfl⟩)
  | modifyTrigger id f =>
    rcases w.modifyTrigger_cases id f with ⟨hnone, hmodify⟩ | ⟨hsome, i, t, -, -, hmodify⟩
    · exact .inl ⟨h.findTrigger?_eq_none_iff.mp hnone, w, by simp [answer, hmodify]⟩
    · exact .inr (.inr ⟨mt h.findTrigger?_eq_none_iff.mpr hsome, not_false, _, by simp [answer, hmodify]; rfl⟩)

/-! ## §C Granting -/

/-- Every request that is granted keeps the registry right. -/
theorem granted (h : w.Registered) {w' : World α} {r : Request α} (keeps : r.KeepsIdentity w)
    (hgranted : w.Granted r w') : w'.Registered := by
  cases hgranted with
  | addObject added => exact h.withElement added
  | addTrigger added => exact h.withElement added
  | removeObject removed => exact h.removeElement removed
  | removeTrigger removed => exact h.removeElement removed
  | addMesh => exact h.congr rfl rfl
  | removeMesh => exact h.congr rfl rfl
  | reset => exact reset_registered w
  | collide ends => exact h.collide ends
  | modifyObject here found => exact h.setElement (getElem?_of_findObject? here found) (keeps _ found)
  | modifyTrigger here found => exact h.setElement (getElem?_of_findTrigger? here found) (keeps _ found)

end Registered

/-! ## §D Whole runs -/

theorem Run.registered {w : World α} (h : Run w) : w.Registered := by
  induction h with
  | new config => exact new_registered config
  | @step w _ r keeps ih =>
    rcases w.after_cases r with hgranted | hsame
    · exact ih.granted keeps hgranted
    · exact hsame.symm ▸ ih

/-- **The registry is exact.** In every state that a run comes to, an identity is found at a place
exactly when the element there has it, no two elements have the same identity, and none has the
reserved one. A request that is refused leaves the world exactly as it was. It is refused for the reasons
that `Refuses` gives, meets a fault where `Faults` says so, and is granted otherwise. -/
theorem Run.registry_exact {w : World α} (h : Run w) :
    (∀ id i, w.registry.find? id = some i ↔ w.elements[i]?.map Element.id = some id) ∧
    (w.elements.toList.map Element.id).Nodup ∧
    (∀ e ∈ w.elements, e.id ≠ EntityId.none) ∧
    ∀ r, (w.Refuses r ∧ w.answer r = .ok (false, w)) ∨
      (w.Faults r ∧ ∃ fault, w.answer r = .error fault) ∨
      (¬w.Refuses r ∧ ¬w.Faults r ∧ ∃ w', w.answer r = .ok (true, w')) := by
  have hregistered := h.registered
  refine ⟨?_, hregistered.indexes.nodup, ?_, ?_⟩
  · intro id i
    rw [hregistered.indexes id i, getElem?_ids]
  · intro e he hnone
    exact hregistered.named (mem_ids.mpr ⟨e, he, hnone⟩)
  · intro r
    refine (hregistered.answer_spec r).imp_left ?_
    rintro ⟨hrefuses, w', hanswer⟩
    -- what was not granted has changed nothing
    rcases answer_cases hanswer with ⟨hfalse, -⟩ | ⟨-, rfl⟩
    · cases hfalse
    · exact ⟨hrefuses, hanswer⟩

/-- Two balls and a trigger are added, and the first ball is taken out again. -/
def withoutFirst : World Float32 :=
  let ball (id : UInt32) : DynamicObject Float32 :=
    .create ⟨id⟩ ⟨.sphere 1, 0, 0, 0⟩ Layers.all Vec3.zero none
  let zone : SpatialTrigger Float32 := .create ⟨3⟩ (.sphere 1) Layers.all Vec3.zero none
  ((((World.new { Config.standard with contactPoolCapacity := 3 }).after (.addObject (ball 1))).after
    (.addObject (ball 2))).after (.addTrigger zone)).after (.removeObject ⟨1⟩)

theorem withoutFirst_run : Run withoutFirst := by
  unfold withoutFirst
  exact ((((Run.new _).step (.addObject _) trivial).step (.addObject _) trivial).step (.addTrigger _)
    trivial).step (.removeObject _) trivial

/-- The trigger has taken the place of the ball. To take it out as an object is refused, and changes
nothing. -/
theorem withoutFirst_registry : withoutFirst.registry.find? ⟨3⟩ = some 0 ∧
    withoutFirst.registry.find? ⟨1⟩ = none ∧
    withoutFirst.answer (.removeObject ⟨3⟩) = .ok (false, withoutFirst) := by
  obtain ⟨hfind, -, -, hanswers⟩ := Run.registry_exact withoutFirst_run
  refine ⟨(hfind ⟨3⟩ 0).mpr (by decide +kernel), by decide +kernel, ?_⟩
  have hgranted : ((withoutFirst.answer (.removeObject ⟨3⟩)).toOption.map (·.1)) = some false := by
    decide +kernel
  rcases hanswers (.removeObject ⟨3⟩) with ⟨-, hrefused⟩ | ⟨hfaults, -⟩ | ⟨-, -, w', hanswer⟩
  · exact hrefused
  · exact hfaults.elim
  · rw [hanswer] at hgranted
    cases hgranted

/-- A floor of one triangle, to be added in a run. -/
def floorMesh : Mesh Float32 where
  data := {
    vertices := #[⟨-4, 0, -4⟩, ⟨-4, 0, 8⟩, ⟨8, 0, -4⟩]
    triangles := #[{ indices := (0, 1, 2) }]
    tree := {
      grid := { bounds := ⟨⟨-4, 0, -4⟩, ⟨8, 0, 8⟩⟩, sizeInv := ⟨5461.25, 0, 5461.25⟩ }
      nodes := #[.leaf 0 1] } }
  isValid := by
    show KdTree.checkAll #[.leaf 0 1] 1 [(0, 0)] = .ok ()
    simp [KdTree.checkAll, KdTree.checkNode, KdTree.maxDepth]

end ConvexCollision.World
