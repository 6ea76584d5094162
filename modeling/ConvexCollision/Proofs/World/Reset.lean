import ConvexCollision.Proofs.World.Lockstep
import ConvexCollision.Proofs.World.Run

/-!
# ConvexCollision.Proofs.World.Reset -- a world that was reset is as good as a new one

A reset leaves two things behind: what the contacts of the pool held and which lists they stood in, and the
number of the next mesh handle. `Twin` compares two worlds of which one has them and the other one has not:
the pools are alike as far as contacts are known, handles are shifted by a constant, and all else is the
same. Every request takes twins to twins and gets the same reply from both, if whoever writes to an element
puts only known contacts into it (`Twin.answer`, `Twin.reply`).

A contact becomes known no later than it is shown (`Twin.shown_subset`), so that the premise is met by
whoever puts only shown contacts into an element. A reset world and a new one are twins, and what follows is
an induction on the requests: `Reached.reset_as_new`.
-/

namespace ConvexCollision

variable {α : Type} [Scalar α]

/-! ## §A Requests and replies -/

/-- The handle as it is numbered where so many handles had been given before. -/
def MeshHandle.shift (k : Nat) (handle : MeshHandle) : MeshHandle := ⟨handle.number + k⟩

namespace World

/-- What comes back from a request. -/
inductive Reply (α : Type) [Scalar α] where
  /-- An element was added, or why not. -/
  | added (result : Except CollisionError Unit)
  /-- The object that was taken out, or that is written to. -/
  | object (result : Except Fault (Option (DynamicObject α)))
  /-- The trigger that was taken out, or that is written to. -/
  | trigger (result : Except Fault (Option (SpatialTrigger α)))
  /-- The handle of a mesh that was added, or why it was not. -/
  | handle (result : Except Fault MeshHandle)
  /-- The mesh that was taken out. -/
  | mesh (m : Option (Mesh α))
  /-- Nothing. -/
  | done
  /-- The objects that a tick took out and what it reported, or where it was interrupted. -/
  | tick (result : Except (Interruption α) (List EntityId × Array (Event α)))

/-- The reply to a request. -/
def reply (w : World α) : Request α → Reply α
  | .addObject o => .added (w.addObject o).1
  | .removeObject id => .object ((w.removeObject id).map (·.1))
  | .addTrigger t => .added (w.addTrigger t).1
  | .removeTrigger id => .trigger ((w.removeTrigger id).map (·.1))
  | .addMesh m => .handle ((w.addMesh m).map (·.2))
  | .removeMesh handle => .mesh (w.removeMesh handle).1
  | .reset => .done
  | .collide => .tick (w.collide.map fun outcome => (outcome.despawned, outcome.journal))
  | .modifyObject id _ => .object (.ok (w.findObject? id))
  | .modifyTrigger id _ => .trigger (.ok (w.findTrigger? id))

/-- The request as it is put where so many handles had been given before. -/
def Request.shift (k : Nat) : Request α → Request α
  | removeMesh handle => removeMesh (handle.shift k)
  | r => r

/-- The reply as it comes where so many handles had been given before. -/
def Reply.shift (k : Nat) : Reply α → Reply α
  | handle result => handle (result.map (MeshHandle.shift k))
  | r => r

/-- The world after some requests, one after another. -/
def afterAll (w : World α) (rs : List (Request α)) : World α := rs.foldl after w

/-- The world comes about by some requests, whatever is written to its elements. -/
def Reached (w : World α) : Prop := ∃ config past, w = (World.new config).afterAll past

/-- The contacts that a world shows: those that its elements hold, and those that these lead to. -/
def shown (w : World α) : Set ContactId :=
  {id | ∃ e ∈ w.elements, ∃ head ∈ [e.activeContacts, e.shadowContact],
    id ∈ head ∨ id ∈ w.pool.toList head}

/-- The contacts that were shown at some point, when a world went through some requests. -/
def obtained (w : World α) (rs : List (Request α)) : Set ContactId :=
  {id | ∃ passed, passed <+: rs ∧ id ∈ (w.afterAll passed).shown}

/-- Whoever writes to an element puts only these contacts into it. -/
def Request.Uses (ids : Set ContactId) (w : World α) : Request α → Prop
  | modifyObject id f => ∀ o, w.findObject? id = some o → (f o).Within ids
  | modifyTrigger id f =>
    ∀ t, w.findTrigger? id = some t → ∀ contact ∈ (f t).activeContacts, contact ∈ ids
  | _ => True

/-- Two worlds give the same answer to every question that asks for no other contacts than these. -/
structure Indistinguishable (ids : Set ContactId) (w v : World α) : Prop where
  /-- The tunables. -/
  config : w.config = v.config
  /-- The objects, with all their state, in their order. -/
  objects : w.objects = v.objects
  /-- The triggers, with all their state, in their order. -/
  triggers : w.triggers = v.triggers
  /-- The element with an identity. -/
  find : ∀ id, w.find? id = v.find? id
  /-- The meshes, in their order. -/
  staticMeshes : w.staticMeshes = v.staticMeshes
  /-- The kill plane. -/
  killPlane : w.killPlane = v.killPlane
  /-- The contacts of an element, by their numbers. -/
  contactsOf : ∀ id, w.contactsOf id = v.contactsOf id
  /-- What a contact holds. -/
  contact : ∀ id ∈ ids, w.pool.get id = v.pool.get id
  /-- The contacts that it leads to. -/
  list : ∀ id ∈ ids, w.pool.toList (some id) = v.pool.toList (some id)
  /-- How many contacts there are. -/
  capacity : w.pool.capacity = v.pool.capacity
  /-- How many of them are free. -/
  freeCount : w.pool.freeCount = v.pool.freeCount
  /-- How many of them are in use. -/
  activeCount : w.pool.activeCount = v.pool.activeCount
  /-- Whether something carries the object with an identity. -/
  isGrounded : ∀ id, w.isGrounded id = v.isGrounded id
  /-- The surface below a point. -/
  shadowCast : ∀ point, w.shadowCast point = v.shadowCast point
  /-- The objects that overlap a shape. -/
  query : ∀ shape center layers, w.query shape center layers = v.query shape center layers
  /-- The triggers that contain a point. -/
  queryTrigger : ∀ point layers, w.queryTrigger point layers = v.queryTrigger point layers
  /-- The contact that carries an object. -/
  ground : ∀ o : DynamicObject α, o.Within ids → ∀ tolerance,
    o.ground? w.pool tolerance = o.ground? v.pool tolerance
  /-- The first contact of an object with an entity. -/
  findContact : ∀ o : DynamicObject α, o.Within ids → ∀ other,
    o.findContact? w.pool other = o.findContact? v.pool other
  /-- The contact of an object nearest a position. -/
  nearestContact : ∀ o : DynamicObject α, o.Within ids → ∀ position,
    o.nearestContact? w.pool position = o.nearestContact? v.pool position

/-! ## §B Twins -/

/-- Two worlds that differ in what was left behind by a reset: in handles, by a constant, and in contacts
that are not known. -/
structure Twin (config : Config α) (k : Nat) (known : View) (w v : World α) : Prop where
  /-- The tunables of the first world. -/
  left : w.config = config
  /-- The tunables of the second world. -/
  right : v.config = config
  /-- There are as many contacts as the tunables ask for. -/
  capacity : known.capacity = config.contactPoolCapacity
  /-- The elements are the same, and name known contacts only. -/
  elements : alike known w.elements v.elements
  /-- They are registered in the same places. -/
  registry : w.registry = v.registry
  /-- The meshes are the same, under shifted handles. -/
  meshes : w.meshes = v.meshes.map fun entry => (entry.1.shift k, entry.2)
  /-- The next handle is shifted. -/
  nextHandle : w.nextHandle = v.nextHandle + k
  /-- The kill plane is the same. -/
  killPlane : w.killPlane = v.killPlane
  /-- The pools are alike. -/
  pool : w.pool.Alike known v.pool

namespace Twin

variable {config : Config α} {k : Nat} {known : View} {w v : World α} {id : EntityId}

/-- Every world is its own twin, when it has as many contacts as its tunables ask for. -/
theorem refl (w : World α) (hcapacity : w.pool.capacity = w.config.contactPoolCapacity) :
    Twin w.config 0 ⟨w.pool.capacity, Set.univ⟩ w w := by
  refine ⟨rfl, rfl, hcapacity, ⟨rfl, ?_⟩, rfl, ?_, rfl, rfl, .refl w.pool⟩
  · intro e _
    cases e with
    | object o => exact ⟨fun _ _ => trivial, fun _ _ => trivial⟩
    | trigger t => exact fun _ _ => trivial
  · exact (List.map_id' w.meshes).symm

/-- **A reset leaves a twin of a new world.** -/
theorem reset_new (w : World α) (hcapacity : w.pool.capacity = w.config.contactPoolCapacity) :
    Twin w.config w.nextHandle ⟨w.pool.capacity, ∅⟩ w.reset (World.new w.config) := by
  have hpools := ContactPool.Alike.of_clear w.pool
  refine ⟨rfl, rfl, hcapacity, ⟨rfl, fun e he => absurd he (Array.not_mem_empty e)⟩, rfl, rfl,
    (Nat.zero_add _).symm, rfl, ?_⟩
  show w.pool.clear.Alike _ (ContactPool.ofCapacity w.config.contactPoolCapacity)
  rw [← hcapacity]
  exact hpools

/-! ## §C Looking -/

theorem config_eq (h : Twin config k known w v) : w.config = v.config := h.left.trans h.right.symm

theorem staticMeshes (h : Twin config k known w v) : w.staticMeshes = v.staticMeshes := by
  unfold World.staticMeshes
  rw [h.meshes, List.map_map]
  rfl

theorem find? (h : Twin config k known w v) (id : EntityId) : w.find? id = v.find? id := by
  unfold World.find?
  rw [h.registry, h.elements.1]

theorem findObject? (h : Twin config k known w v) (id : EntityId) :
    w.findObject? id = v.findObject? id :=
  congrArg (Option.bind · Element.object?) (h.find? id)

theorem findTrigger? (h : Twin config k known w v) (id : EntityId) :
    w.findTrigger? id = v.findTrigger? id :=
  congrArg (Option.bind · Element.trigger?) (h.find? id)

/-- What is registered names known contacts only. -/
theorem within_of_find? (h : Twin config k known w v) {e : Element α} (hfind : w.find? id = some e) :
    e.Within known.ids := by
  obtain ⟨i, -, he⟩ := Option.bind_eq_some_iff.mp hfind
  exact h.elements.2 e (Array.mem_of_getElem? he)

theorem within_of_findObject? (h : Twin config k known w v) {o : DynamicObject α}
    (hfind : w.findObject? id = some o) : o.Within known.ids := by
  obtain ⟨e, he, ho⟩ := Option.bind_eq_some_iff.mp hfind
  cases e with
  | trigger t => cases ho
  | object o' =>
    cases ho
    exact h.within_of_find? he

/-- What a world shows is known. -/
theorem shown_subset (h : Twin config k known w v) : v.shown ⊆ known.ids := by
  rintro id ⟨e, he, head, hhead, hid⟩
  have hwithin : e.Within known.ids := h.elements.2 e (h.elements.1 ▸ he)
  have hheld : ∀ held ∈ head, held ∈ known.ids := by
    cases e with
    | object o =>
      rcases List.mem_pair.mp hhead with rfl | rfl
      · exact hwithin.active
      · exact hwithin.shadow
    | trigger t =>
      rcases List.mem_pair.mp hhead with rfl | rfl
      · exact hwithin
      · exact fun held hnone => nomatch hnone
  rcases hid with hid | hid
  · exact hheld id hid
  · obtain ⟨hsame, hlist⟩ := h.pool.toList hheld
    exact hlist id (hsame ▸ hid)

theorem objects (h : Twin config k known w v) : w.objects = v.objects :=
  congrArg (fun es => es.toList.filterMap Element.object?) h.elements.1

theorem triggers (h : Twin config k known w v) : w.triggers = v.triggers :=
  congrArg (fun es => es.toList.filterMap Element.trigger?) h.elements.1

theorem contactsOf (h : Twin config k known w v) (id : EntityId) : w.contactsOf id = v.contactsOf id := by
  unfold World.contactsOf
  rw [← h.find? id]
  refine (h.pool.toList ?_).1
  intro contact hcontact
  obtain ⟨e, hfind, hactive⟩ := Option.bind_eq_some_iff.mp hcontact
  have hknown := h.within_of_find? hfind
  cases e with
  | object o => exact hknown.active contact hactive
  | trigger t => exact hknown contact hactive

theorem isGrounded (h : Twin config k known w v) (id : EntityId) : w.isGrounded id = v.isGrounded id := by
  unfold World.isGrounded
  rw [← h.findObject? id, h.config_eq]
  cases hfind : w.findObject? id with
  | none => rfl
  | some o => exact DynamicObject.isGrounded_eq (h.within_of_findObject? hfind) h.pool _

/-- Twins give the same answers. -/
theorem indistinguishable (h : Twin config k known w v) {ids : Set ContactId} (hids : ids ⊆ known.ids) :
    Indistinguishable ids w v := by
  have hwithin {o : DynamicObject α} (ho : o.Within ids) : o.Within known.ids :=
    ⟨fun id hid => hids (ho.active id hid), fun id hid => hids (ho.shadow id hid)⟩
  have hlist : ∀ id ∈ ids, w.pool.toList (some id) = v.pool.toList (some id) := by
    intro id hid
    refine (h.pool.toList ?_).1
    intro other hother
    exact Option.mem_some_iff.mp hother ▸ hids hid
  exact
    { config := h.config_eq
      objects := h.objects
      triggers := h.triggers
      find := h.find?
      staticMeshes := h.staticMeshes
      killPlane := h.killPlane
      contactsOf := h.contactsOf
      contact := fun id hid => h.pool.get (hids hid)
      list := hlist
      capacity := h.pool.capacity
      freeCount := h.pool.freeCount
      activeCount := h.pool.activeCount
      isGrounded := h.isGrounded
      shadowCast := fun point => congrArg (shadowCastOn · point) h.staticMeshes
      query := fun _ _ _ => congrArg (List.filter _) h.objects
      queryTrigger := fun _ _ => congrArg (List.filter _) h.triggers
      ground := fun o ho => DynamicObject.ground?_eq (hwithin ho) h.pool
      findContact := fun o ho => DynamicObject.findContact?_eq (hwithin ho) h.pool
      nearestContact := fun o ho => h.pool.nearest? (hwithin ho).active }

/-! ## §D Requests -/

/-- The same result of an operation in two worlds, which leaves twins. -/
def Results (config : Config α) (k : Nat) (known : View) {τ : Type} (x y : τ × World α) : Prop :=
  x.1 = y.1 ∧ Twin config k known x.2 y.2

/-- An element that names known contacts is added to both worlds, or to neither. -/
theorem addElement (h : Twin config k known w v) {e : Element α} (he : e.Within known.ids) :
    Results config k known (w.addElement e) (v.addElement e) := by
  unfold World.addElement
  rw [h.registry]
  split
  · exact ⟨rfl, h⟩
  split
  · exact ⟨rfl, h⟩
  · have hsize : w.elements.size = v.elements.size := congrArg Array.size h.elements.1
    refine ⟨rfl, { h with elements := ⟨congrArg (Array.push · e) h.elements.1, ?_⟩, registry := ?_ }⟩
    · intro e' he'
      rcases Array.mem_push.mp he' with hmem | rfl
      · exact h.elements.2 e' hmem
      · exact he
    · show w.registry.insert e.id w.elements.size = v.registry.insert e.id v.elements.size
      rw [h.registry, hsize]

/-- The element in a place is taken out of both worlds. -/
theorem takeElement (h : Twin config k known w v) (id : EntityId) {i : Nat} {e : Element α}
    (he : v.elements[i]? = some e) :
    Results config k known (w.takeElement id i e) (v.takeElement id i e) := by
  have hmem : e ∈ w.elements := h.elements.1 ▸ Array.mem_of_getElem? he
  have hreturned := Element.alike_returnContacts (h.elements.2 e hmem) h.pool
  have hleft : ∀ e' ∈ swapRemoveAt v.elements i, e'.Within known.ids := by
    intro e' he'
    obtain ⟨j, -, hj⟩ := (mem_swapRemoveAt (Array.getElem?_eq_some_iff.mp he).1).mp he'
    exact h.elements.2 e' (h.elements.1 ▸ Array.mem_of_getElem? hj)
  unfold World.takeElement
  rw [h.registry, h.elements.1]
  simp only
  generalize e.returnContacts w.pool = r, e.returnContacts v.pool = r' at hreturned ⊢
  obtain ⟨bare, p⟩ := r
  obtain ⟨bare', q⟩ := r'
  obtain ⟨⟨rfl, -⟩, hpools⟩ := hreturned
  exact ⟨rfl, { h with elements := ⟨rfl, hleft⟩, registry := rfl, pool := hpools }⟩

/-- The same element is taken out of both worlds, or none. -/
theorem removeElement (h : Twin config k known w v) (id : EntityId) :
    Ended (Results config k known) (w.removeElement id) (v.removeElement id) := by
  unfold World.removeElement
  rw [h.registry, h.elements.1]
  cases v.registry.find? id with
  | none => exact .ok ⟨rfl, h⟩
  | some i =>
    simp only
    cases he : v.elements[i]? with
    | none => exact .error _
    | some e =>
      obtain ⟨hsame, htwin⟩ := h.takeElement id he
      exact .ok ⟨congrArg some hsame, htwin⟩

/-- So is an element of one kind. -/
theorem removeOf (h : Twin config k known w v) {τ : Type} (kind : Element α → Option τ) (id : EntityId) :
    Ended (Results config k known) (World.removeOf kind w id) (World.removeOf kind v id) := by
  unfold World.removeOf
  rw [h.find? id]
  cases (v.find? id).bind kind with
  | none => exact .ok ⟨rfl, h⟩
  | some part =>
    exact (h.removeElement id).map fun _ _ hxy => ⟨congrArg (Option.bind · kind) hxy.1, hxy.2⟩

theorem dropElement (h : Twin config k known w v) (id : EntityId) :
    Ended (Twin config k known) (w.dropElement id) (v.dropElement id) :=
  (h.removeElement id).map fun _ _ hxy => hxy.2

theorem removeAll (h : Twin config k known w v) (ids : List EntityId) :
    Ended (Twin config k known) (w.removeAll ids) (v.removeAll ids) := by
  unfold World.removeAll
  induction ids generalizing w v with
  | nil => exact .ok h
  | cons id ids ih =>
    rw [List.foldlM_cons, List.foldlM_cons]
    exact (h.dropElement id).bind fun w' v' htwin => ih htwin

theorem updateKillPlane (h : Twin config k known w v) :
    Twin config k known w.updateKillPlane v.updateKillPlane := by
  have hplane : w.updateKillPlane.killPlane = v.updateKillPlane.killPlane := by
    unfold World.updateKillPlane
    rw [h.staticMeshes, h.config_eq]
  exact { h with killPlane := hplane }

theorem addMesh (h : Twin config k known w v) (m : Mesh α) :
    Ended (fun x y => Twin config k known x.1 y.1 ∧ x.2 = y.2.shift k) (w.addMesh m) (v.addMesh m) := by
  unfold World.addMesh
  have hlength : w.meshes.length = v.meshes.length := by rw [h.meshes, List.length_map]
  rw [hlength]
  split
  · have hhandle : (⟨w.nextHandle⟩ : MeshHandle) = (⟨v.nextHandle⟩ : MeshHandle).shift k :=
      congrArg MeshHandle.mk h.nextHandle
    have hadded : Twin config k known
        { w with meshes := w.meshes ++ [(⟨w.nextHandle⟩, m)], nextHandle := w.nextHandle + 1 }
        { v with meshes := v.meshes ++ [(⟨v.nextHandle⟩, m)], nextHandle := v.nextHandle + 1 } := by
      refine { h with meshes := ?_, nextHandle := ?_ }
      · rw [hhandle, h.meshes, List.map_append]
        rfl
      · show w.nextHandle + 1 = v.nextHandle + 1 + k
        rw [h.nextHandle, Nat.add_right_comm]
    exact .ok ⟨hadded.updateKillPlane, hhandle⟩
  · exact .error _

theorem removeMesh (h : Twin config k known w v) (handle : MeshHandle) :
    Results config k known (w.removeMesh (handle.shift k)) (v.removeMesh handle) := by
  have hshift (entry : MeshHandle × Mesh α) :
      (entry.1.shift k == handle.shift k) = (entry.1 == handle) := by
    rw [Bool.eq_iff_iff, beq_iff_eq, beq_iff_eq]
    unfold MeshHandle.shift
    cases entry.1
    cases handle
    simp
  unfold World.removeMesh
  rw [h.meshes, List.find?_map, List.eraseP_map]
  simp only [Function.comp_def, hshift]
  cases v.meshes.find? fun entry => entry.1 == handle with
  | none => exact ⟨rfl, h⟩
  | some entry =>
    have hremoved : Twin config k known
        { w with meshes := (v.meshes.eraseP fun entry => entry.1 == handle).map fun entry =>
            (entry.1.shift k, entry.2) }
        { v with meshes := v.meshes.eraseP fun entry => entry.1 == handle } := { h with meshes := rfl }
    exact ⟨rfl, hremoved.updateKillPlane⟩

theorem reset (h : Twin config k known w v) : Twin config k known w.reset v.reset :=
  { h with
    elements := ⟨rfl, fun e he => absurd he (Array.not_mem_empty e)⟩
    registry := rfl
    meshes := rfl
    killPlane := rfl
    pool := h.pool.clear }

/-- **Twins go through a tick together.** They are interrupted for the same reason and with the same
reports, or take out the same objects, report the same and are twins again. -/
theorem collide (h : Twin config k known w v) : ∃ more, known ≤ more ∧
    Ended (fun x y => Twin config k more x.world y.world ∧ x.despawned = y.despawned ∧
      x.journal = y.journal) w.collide v.collide := by
  let _ : Likeness (Outcome α) := ⟨fun known x y => Twin config k known x.world y.world ∧
    x.despawned = y.despawned ∧ x.journal = y.journal⟩
  obtain ⟨hes, hbefores, hpool⟩ := alike_start h.elements h.pool h.config_eq
  have hledger : alike known (⟨w.start.1.pool, #[]⟩ : Ledger α) ⟨v.start.1.pool, #[]⟩ := ⟨rfl, hpool⟩
  show Later known w.collide v.collide
  unfold World.collide
  simp only
  rw [show w.start.2 = v.start.2 from hbefores]
  refine (resolvePairs_later hes hledger v.start.2).andThen fun more hmore hpaired => ?_
  generalize resolvePairs v.start.2 w.start.1.elements _ = r,
    resolvePairs v.start.2 v.start.1.elements _ = r' at hpaired ⊢
  obtain ⟨es, l⟩ := r
  obtain ⟨es', m⟩ := r'
  obtain ⟨⟨rfl, hwithin⟩, hl⟩ := hpaired
  have hbegin : alike more (es, l, ([] : List EntityId)) (es, m, []) :=
    Likeness.pair ⟨rfl, hwithin⟩ (Likeness.pair hl rfl)
  refine (Later.foldlM (fun most _ x y i hxy =>
    settleAt_later hxy h.config_eq h.staticMeshes h.killPlane i) _ hbegin).bind
      fun most hmost x y hsettled => ?_
  obtain ⟨es, l, fallen⟩ := x
  obtain ⟨es', m, fallen'⟩ := y
  obtain ⟨⟨rfl, hwithin⟩, hl, rfl⟩ := hsettled
  have hcapacity : most.capacity = config.contactPoolCapacity := by
    rw [← hmost.1, ← hmore.1]
    exact h.capacity
  have hsettled : Twin config k most { w.start.1 with elements := es, pool := l.pool }
      { v.start.1 with elements := es, pool := m.pool } :=
    { h with capacity := hcapacity, elements := ⟨rfl, hwithin⟩, pool := hl.2 }
  refine .now ((Ledger.guarding_ended hl (hsettled.removeAll fallen)).bind fun w' v' htwin => ?_)
  exact .ok ⟨htwin, rfl, hl.1⟩

/-- The same is written to an element of both worlds. -/
theorem setElement (h : Twin config k known w v) (i : Nat) {e : Element α} (he : e.Within known.ids) :
    Twin config k known { w with elements := w.elements.setIfInBounds i e }
      { v with elements := v.elements.setIfInBounds i e } :=
  { h with elements := alike_setIfInBounds h.elements i he }

theorem modifyObject (h : Twin config k known w v) {id : EntityId} {f : DynamicObject α → DynamicObject α}
    (huses : (Request.modifyObject id f).Uses known.ids v) :
    Results config k known (w.modifyObject id f) (v.modifyObject id f) := by
  unfold World.modifyObject
  rw [h.findObject? id, congrArg (·.find? id) h.registry]
  cases v.registry.find? id with
  | none => exact ⟨rfl, h⟩
  | some i =>
    cases hfind : v.findObject? id with
    | none => exact ⟨rfl, h⟩
    | some o => exact ⟨rfl, h.setElement i (e := .object (f o)) (huses o hfind)⟩

theorem modifyTrigger (h : Twin config k known w v) {id : EntityId}
    {f : SpatialTrigger α → SpatialTrigger α} (huses : (Request.modifyTrigger id f).Uses known.ids v) :
    Results config k known (w.modifyTrigger id f) (v.modifyTrigger id f) := by
  unfold World.modifyTrigger
  rw [h.findTrigger? id, congrArg (·.find? id) h.registry]
  cases v.registry.find? id with
  | none => exact ⟨rfl, h⟩
  | some i =>
    cases hfind : v.findTrigger? id with
    | none => exact ⟨rfl, h⟩
    | some t => exact ⟨rfl, h.setElement i (e := .trigger (f t)) (huses t hfind)⟩

/-- **Twins answer together.** A request that uses known contacts only meets the same fault in both worlds, or
is granted by both or refused by both, and leaves twins. -/
theorem answer (h : Twin config k known w v) {r : Request α} (huses : r.Uses known.ids v) :
    ∃ more, known ≤ more ∧ Ended (Results config k more) (w.answer (r.shift k)) (v.answer r) := by
  have hnow {x y : Except Fault (Bool × World α)} (hxy : Ended (Results config k known) x y) :
      ∃ more, known ≤ more ∧ Ended (Results config k more) x y := ⟨known, le_rfl, hxy⟩
  cases r with
  | addObject o =>
    obtain ⟨hsame, htwin⟩ := h.addElement (e := .object o.entered) (DynamicObject.Within.bare o.recalcBox)
    exact hnow (.ok ⟨congrArg Except.toBool hsame, htwin⟩)
  | addTrigger t =>
    obtain ⟨hsame, htwin⟩ := h.addElement (e := .trigger t.entered) fun _ hid => nomatch hid
    exact hnow (.ok ⟨congrArg Except.toBool hsame, htwin⟩)
  | removeObject id =>
    exact hnow ((h.removeOf Element.object? id).map fun _ _ hxy => ⟨congrArg Option.isSome hxy.1, hxy.2⟩)
  | removeTrigger id =>
    exact hnow ((h.removeOf Element.trigger? id).map fun _ _ hxy => ⟨congrArg Option.isSome hxy.1, hxy.2⟩)
  | addMesh m => exact hnow ((h.addMesh m).map fun _ _ hxy => ⟨rfl, hxy.1⟩)
  | removeMesh handle =>
    obtain ⟨hsame, htwin⟩ := h.removeMesh handle
    exact hnow (.ok ⟨congrArg Option.isSome hsame, htwin⟩)
  | reset => exact hnow (.ok ⟨rfl, h.reset⟩)
  | collide =>
    obtain ⟨more, hmore, hended⟩ := h.collide
    exact ⟨more, hmore, (hended.mapError (·.fault)).map fun _ _ hxy => ⟨rfl, hxy.1⟩⟩
  | modifyObject id f =>
    obtain ⟨hsame, htwin⟩ := h.modifyObject huses
    exact hnow (.ok ⟨congrArg Option.isSome hsame, htwin⟩)
  | modifyTrigger id f =>
    obtain ⟨hsame, htwin⟩ := h.modifyTrigger huses
    exact hnow (.ok ⟨congrArg Option.isSome hsame, htwin⟩)

theorem after (h : Twin config k known w v) {r : Request α} (huses : r.Uses known.ids v) :
    ∃ more, known ≤ more ∧ Twin config k more (w.after (r.shift k)) (v.after r) := by
  obtain ⟨more, hmore, hanswer⟩ := h.answer huses
  unfold World.after
  generalize w.answer (r.shift k) = x, v.answer r = y at hanswer ⊢
  cases hanswer with
  | error fault => exact ⟨known, le_rfl, h⟩
  | ok hxy => exact ⟨more, hmore, hxy.2⟩

/-- Both worlds give the same reply. -/
theorem reply (h : Twin config k known w v) (r : Request α) :
    w.reply (r.shift k) = (v.reply r).shift k := by
  cases r with
  | addObject o =>
    exact congrArg Reply.added (h.addElement (e := .object o.entered)
      (DynamicObject.Within.bare o.recalcBox)).1
  | addTrigger t =>
    exact congrArg Reply.added (h.addElement (e := .trigger t.entered) fun _ hid => nomatch hid).1
  | removeObject id =>
    exact congrArg Reply.object ((h.removeOf Element.object? id).map_eq fun _ _ hxy => hxy.1)
  | removeTrigger id =>
    exact congrArg Reply.trigger ((h.removeOf Element.trigger? id).map_eq fun _ _ hxy => hxy.1)
  | addMesh m =>
    have hhandles : (w.addMesh m).map (·.2) = (v.addMesh m).map fun y => y.2.shift k :=
      (h.addMesh m).map_eq fun _ _ hxy => hxy.2
    refine congrArg Reply.handle (hhandles.trans ?_)
    cases v.addMesh m with
    | error fault => rfl
    | ok y => rfl
  | removeMesh handle => exact congrArg Reply.mesh (h.removeMesh handle).1
  | reset => rfl
  | collide =>
    obtain ⟨more, -, hended⟩ := h.collide
    exact congrArg Reply.tick (hended.map_eq fun _ _ hxy => Prod.ext hxy.2.1 hxy.2.2)
  | modifyObject id f => exact congrArg (Reply.object ∘ Except.ok) (h.findObject? id)
  | modifyTrigger id f => exact congrArg (Reply.trigger ∘ Except.ok) (h.findTrigger? id)

end Twin

/-! ## §E A reset and what follows -/

variable {w : World α} {ids more : Set ContactId}

theorem Request.shift_zero (r : Request α) : r.shift 0 = r := by
  cases r with
  | removeMesh handle => rfl
  | _ => rfl

theorem Request.Uses.mono {r : Request α} (h : r.Uses ids w) (hsub : ids ⊆ more) : r.Uses more w := by
  cases r with
  | modifyObject id f =>
    intro o hfind
    exact ⟨fun contact hc => hsub ((h o hfind).active contact hc),
      fun contact hc => hsub ((h o hfind).shadow contact hc)⟩
  | modifyTrigger id f => exact fun t hfind contact hc => hsub (h t hfind contact hc)
  | _ => trivial

/-- Nobody puts other contacts into an element than all there are. -/
theorem Request.uses_univ (r : Request α) (w : World α) : r.Uses Set.univ w := by
  cases r with
  | modifyObject id f => exact fun o _ => ⟨fun _ _ => trivial, fun _ _ => trivial⟩
  | modifyTrigger id f => exact fun t _ _ _ => trivial
  | _ => trivial

theorem afterAll_append_singleton (w : World α) (rs : List (Request α)) (r : Request α) :
    w.afterAll (rs ++ [r]) = (w.afterAll rs).after r := by
  unfold afterAll
  rw [List.foldl_append, List.foldl_cons, List.foldl_nil]

/-- What was shown on the way through one more request was shown before it or is shown after it. -/
theorem obtained_append_singleton (w : World α) (rs : List (Request α)) (r : Request α) :
    w.obtained (rs ++ [r]) ⊆ w.obtained rs ∪ (w.afterAll (rs ++ [r])).shown := by
  rintro id ⟨passed, hpassed, hid⟩
  rcases List.prefix_concat_iff.mp hpassed with rfl | hearlier
  · exact .inr hid
  · exact .inl ⟨passed, hearlier, hid⟩

/-- Whoever writes to an object and leaves its contacts alone puts shown contacts into it only. -/
theorem Request.uses_modifyObject (w : World α) (rs : List (Request α)) (id : EntityId)
    {f : DynamicObject α → DynamicObject α} (hactive : ∀ o, (f o).activeContacts = o.activeContacts)
    (hshadow : ∀ o, (f o).shadowContact = o.shadowContact) :
    (Request.modifyObject id f).Uses (w.obtained rs) (w.afterAll rs) := by
  intro o hfind
  obtain ⟨e, he, ho⟩ := Option.bind_eq_some_iff.mp hfind
  obtain ⟨i, -, hi⟩ := Option.bind_eq_some_iff.mp he
  cases e with
  | trigger t => cases ho
  | object o' =>
    cases ho
    have hmem : Element.object o ∈ (w.afterAll rs).elements := Array.mem_of_getElem? hi
    constructor
    · intro contact hcontact
      rw [hactive] at hcontact
      exact ⟨rs, List.prefix_rfl, _, hmem, o.activeContacts, List.mem_pair.mpr (.inl rfl), .inl hcontact⟩
    · intro contact hcontact
      rw [hshadow] at hcontact
      exact ⟨rs, List.prefix_rfl, _, hmem, o.shadowContact, List.mem_pair.mpr (.inr rfl), .inl hcontact⟩

/-- A world that comes about is its own twin. -/
theorem Twin.self (config : Config α) (past : List (Request α)) :
    Twin config 0 ⟨config.contactPoolCapacity, Set.univ⟩ ((World.new config).afterAll past)
      ((World.new config).afterAll past) := by
  induction past using List.reverseRecOn with
  | nil =>
    have hnew : (World.new config).pool.capacity = config.contactPoolCapacity := Array.size_replicate
    exact hnew ▸ Twin.refl (World.new config) hnew
  | append_singleton past r ih =>
    rw [afterAll_append_singleton]
    obtain ⟨known, hknown, htwin⟩ := ih.after (r.uses_univ _)
    rw [r.shift_zero] at htwin
    have hall : known = ⟨config.contactPoolCapacity, Set.univ⟩ := by
      obtain ⟨capacity, ids⟩ := known
      obtain ⟨rfl, hids⟩ := hknown
      exact congrArg _ (Set.univ_subset_iff.mp hids)
    exact hall ▸ htwin

/-- **There are as many contacts as the tunables ask for**, in every world that comes about. -/
theorem Reached.capacity_eq (h : Reached w) : w.pool.capacity = w.config.contactPoolCapacity := by
  obtain ⟨config, past, rfl⟩ := h
  have htwin := Twin.self config past
  rw [htwin.left]
  exact htwin.pool.left

/-- **Twins stay twins** whatever is asked of them, as long as whoever writes to an element puts only contacts
into it that the second world has shown. -/
theorem Twin.afterAll {config : Config α} {k : Nat} {known : View} {w v : World α}
    (h : Twin config k known w v) (rs : List (Request α))
    (huses : ∀ passed r, passed ++ [r] <+: rs → r.Uses (v.obtained passed) (v.afterAll passed)) :
    ∃ more, v.obtained rs ⊆ more.ids ∧ Twin config k more (w.afterAll (rs.map (Request.shift k)))
      (v.afterAll rs) := by
  induction rs using List.reverseRecOn with
  | nil =>
    refine ⟨known, ?_, h⟩
    rintro id ⟨passed, hpassed, hid⟩
    obtain rfl := List.prefix_nil.mp hpassed
    exact h.shown_subset hid
  | append_singleton rs r ih =>
    obtain ⟨seen, hseen, htwin⟩ := ih fun passed r' hpassed =>
      huses passed r' (hpassed.trans (List.prefix_append rs [r]))
    have hr : r.Uses seen.ids (v.afterAll rs) := (huses rs r List.prefix_rfl).mono hseen
    obtain ⟨more, hmore, hafter⟩ := htwin.after hr
    rw [List.map_append, List.map_cons, List.map_nil, afterAll_append_singleton]
    refine ⟨more, ?_, afterAll_append_singleton v rs r ▸ hafter⟩
    refine (obtained_append_singleton v rs r).trans (Set.union_subset (hseen.trans hmore.2) ?_)
    rw [afterAll_append_singleton]
    exact hafter.shown_subset

/-- **A reset is as good as new.** Take any world that comes about, and any requests after its reset that put
no other contacts into an element than those that were shown since. At every point, the world that was reset
and a new one with the same tunables cannot be told apart, and they give the same reply to whatever is asked
next; only the handles of meshes are shifted, by the number of handles given before the reset. -/
theorem Reached.reset_as_new (h : Reached w) (rs : List (Request α))
    (huses : ∀ passed r, passed ++ [r] <+: rs →
      r.Uses ((World.new w.config).obtained passed) ((World.new w.config).afterAll passed)) :
    ∀ passed, passed <+: rs →
      let reused := w.reset.afterAll (passed.map (Request.shift w.nextHandle))
      let fresh := (World.new w.config).afterAll passed
      Indistinguishable ((World.new w.config).obtained passed) reused fresh ∧
        ∀ r, reused.reply (r.shift w.nextHandle) = (fresh.reply r).shift w.nextHandle := by
  intro passed hpassed reused fresh
  obtain ⟨known, hknown, htwin⟩ := (Twin.reset_new w h.capacity_eq).afterAll passed fun before r hbefore =>
    huses before r (hbefore.trans hpassed)
  exact ⟨htwin.indistinguishable hknown, htwin.reply⟩

/-- Tunables for three contacts. -/
def threeContacts : Config Float32 := { Config.standard with contactPoolCapacity := 3 }

/-- A floor is added, and a ball high above it. -/
def overFloor : List (Request Float32) :=
  [.addMesh floorMesh, .addObject (.create ⟨1⟩ ⟨.sphere 1, 0, 0, 0⟩ Layers.all ⟨0, 5, 0⟩ none)]

/-- The ball is put below the floor. -/
def sunk : List (Request Float32) :=
  overFloor ++ [.modifyObject ⟨1⟩ fun o => { o with position := ⟨0, -20, 0⟩ }]

/-- The world after a tick in which the ball takes a contact for its shadow. -/
def shadowed : World Float32 :=
  (World.new threeContacts).afterAll (overFloor ++ [.collide])

theorem shadowed_left_behind : shadowed.nextHandle = 1 ∧ shadowed.pool.free.length = 2 := by
  let w : World Float32 := (World.new threeContacts).afterAll overFloor
  have hleft : (w.collide.toOption.map fun outcome =>
      (outcome.world.nextHandle, outcome.world.pool.free.length)) = some (1, 2) := by
    rw [collide_of_single (by decide +kernel)]
    decide +kernel
  obtain ⟨outcome, hcollide, houtcome⟩ := exists_eq_ok_of_map hleft
  have hworld : shadowed = outcome.world := by
    unfold shadowed
    rw [afterAll_append_singleton]
    show w.after .collide = outcome.world
    exact after_collide hcollide
  rw [hworld]
  exact Prod.mk.inj houtcome

/-- A new world takes the ball out that is below the floor. -/
theorem sunk_collide : ∃ outcome,
    ((World.new threeContacts).afterAll sunk).collide = .ok outcome ∧
      outcome.despawned = [⟨1⟩] := by
  let w : World Float32 := (World.new threeContacts).afterAll sunk
  have hdespawned : (w.collide.toOption.map (·.despawned)) = some [⟨1⟩] := by
    rw [collide_of_single (by decide +kernel)]
    decide +kernel
  exact exists_eq_ok_of_map hdespawned

/-- The world with a contact in use and a handle given is reset. It takes that ball out as well, and numbers
the floor from one on. -/
theorem shadowed_reset : shadowed.pool.free.length = 2 ∧
    shadowed.reset.reply (.addMesh floorMesh) = .handle (.ok ⟨1⟩) ∧
    ∃ outcome, (shadowed.reset.afterAll sunk).collide = .ok outcome ∧ outcome.despawned = [⟨1⟩] := by
  have hreached : Reached shadowed := ⟨_, overFloor ++ [.collide], rfl⟩
  have hconfig : shadowed.config = threeContacts :=
    (Twin.self threeContacts (overFloor ++ [Request.collide])).left
  obtain ⟨hhandle, hfree⟩ := shadowed_left_behind
  have huses : ∀ passed r, passed ++ [r] <+: sunk →
      r.Uses ((World.new shadowed.config).obtained passed) ((World.new shadowed.config).afterAll passed) := by
    intro passed r hpassed
    have hmem : r ∈ sunk := hpassed.subset (List.mem_append_right passed (List.mem_singleton_self r))
    unfold sunk overFloor at hmem
    fin_cases hmem
    · trivial
    · trivial
    · exact Request.uses_modifyObject _ passed ⟨1⟩ (fun _ => rfl) fun _ => rfl
  have hsame := Reached.reset_as_new hreached sunk huses
  rw [hconfig, hhandle] at hsame
  refine ⟨hfree, ?_, ?_⟩
  · obtain ⟨-, hreply⟩ := hsame [] List.nil_prefix
    exact hreply (.addMesh floorMesh)
  · obtain ⟨-, hreply⟩ := hsame sunk List.prefix_rfl
    -- no request of these names a mesh
    rw [show sunk.map (Request.shift 1) = sunk from rfl] at hreply
    obtain ⟨outcome, hcollide, hids⟩ := sunk_collide
    have htick := Reply.tick.inj (hreply .collide)
    rw [hcollide] at htick
    cases hreused : (shadowed.reset.afterAll sunk).collide with
    | error interruption =>
      rw [hreused] at htick
      cases htick
    | ok reused =>
      rw [hreused] at htick
      exact ⟨reused, rfl, (Prod.mk.inj (Except.ok.inj htick)).1.trans hids⟩

end World

end ConvexCollision
