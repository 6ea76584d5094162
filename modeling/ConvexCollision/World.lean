import ConvexCollision.Config
import ConvexCollision.Journal
import ConvexCollision.Mesh
import ConvexCollision.Object
import ConvexCollision.Overlap
import ConvexCollision.Removal
import ConvexCollision.Trigger
import ConvexCollision.World.Registry

/-!
# ConvexCollision.World -- objects, triggers and static meshes together

The elements of a world, objects and triggers, stand in one array; a registry finds them by
identity. Contacts come from one pool. The kill plane lies a margin below the lowest point of the
static meshes; without a mesh there is none.

The registry is kept by the identity under which an element was added. An object whose identity is
overwritten afterwards is still found under the old one, as long as the place on record has an
element. Queries of the static meshes return a fault when a tree cannot be walked.

An operation that may be refused returns what came of it next to the world, also when it was refused.
One that meets a fault leaves no world behind.
-/

namespace ConvexCollision

/-- The most static meshes that a world holds. -/
def maxStaticMeshes : Nat := 8

/-- Names a static mesh for as long as it is loaded. -/
structure MeshHandle where
  /-- The number. -/
  number : Nat
deriving DecidableEq

/-- An object or a trigger. -/
inductive Element (α : Type) where
  /-- A dynamic object. -/
  | object (o : DynamicObject α)
  /-- A spatial trigger. -/
  | trigger (t : SpatialTrigger α)
deriving DecidableEq

/-- A world. -/
structure World (α : Type) [Scalar α] where
  /-- The tunables. -/
  config : Config α
  /-- Objects and triggers. -/
  elements : Array (Element α)
  /-- Where each entity stands among the elements. -/
  registry : Registry
  /-- The static meshes in the order in which they were added. -/
  meshes : List (MeshHandle × Mesh α)
  /-- The number of the next handle. It is the number of meshes that were ever added, so that 32 bits
  hold it for as long as they hold that number. -/
  nextHandle : Nat
  /-- The contacts. -/
  pool : ContactPool α
  /-- Objects below this height are taken out; none without a mesh. -/
  killPlane : Option α

variable {α : Type} [Scalar α]

/-- The object as a world takes it in: its box is up to date, and it has no contacts. -/
def DynamicObject.entered (o : DynamicObject α) : DynamicObject α :=
  { o.recalcBox with activeContacts := none, shadowContact := none }

/-- The trigger as a world takes it in: its box is up to date, and it has no contacts. -/
def SpatialTrigger.entered (t : SpatialTrigger α) : SpatialTrigger α :=
  { t.recalcBox with activeContacts := none }

namespace Element

/-- Box of the element. -/
def box : Element α → Bounds α
  | object o => o.box
  | trigger t => t.box

/-- Identity of the element. -/
def id : Element α → EntityId
  | object o => o.id
  | trigger t => t.id

/-- The object, if it is one. -/
def object? : Element α → Option (DynamicObject α)
  | object o => some o
  | trigger _ => none

/-- The trigger, if it is one. -/
def trigger? : Element α → Option (SpatialTrigger α)
  | object _ => none
  | trigger t => some t

/-- The element as a world takes it in. -/
def entered : Element α → Element α
  | object o => object o.entered
  | trigger t => trigger t.entered

/-- The contacts of the element. -/
def activeContacts : Element α → Option ContactId
  | object o => o.activeContacts
  | trigger t => t.activeContacts

/-- The element without contacts, and the pool that has them back. -/
def returnContacts (pool : ContactPool α) : Element α → Element α × ContactPool α
  | object o =>
    let pool := pool.returnContacts o.activeContacts
    let pool := match o.shadowContact with
      | some id => pool.release id
      | none => pool
    (object { o with activeContacts := none, shadowContact := none }, pool)
  | trigger t => (trigger { t with activeContacts := none }, pool.returnContacts t.activeContacts)

end Element

namespace World

/-- A world with nothing in it. -/
def new (config : Config α) : World α where
  config
  elements := #[]
  registry := Registry.empty
  meshes := []
  nextHandle := 0
  pool := ContactPool.ofCapacity config.contactPoolCapacity
  killPlane := none

instance : Inhabited (World α) := ⟨new Config.standard⟩

/-- The world with everything taken out. Handles go on where they were. -/
def reset (w : World α) : World α :=
  { w with
    elements := #[]
    registry := Registry.empty
    meshes := []
    pool := w.pool.clear
    killPlane := none }

/-! ## Elements -/

/-- The world with one more element, in the last place and on record there. -/
def withElement (w : World α) (e : Element α) : World α :=
  { w with
    registry := w.registry.insert e.id w.elements.size
    elements := w.elements.push e }

/-- Adds an element, unless its identity is reserved or taken. -/
def addElement (w : World α) (e : Element α) : Except CollisionError Unit × World α :=
  if e.id.isNone then (.error .nullEntity, w)
  else if w.registry.contains e.id then (.error (.duplicateEntity e.id), w)
  else (.ok (), w.withElement e)

/-- Adds an object, with its box up to date and without contacts. -/
def addObject (w : World α) (o : DynamicObject α) : Except CollisionError Unit × World α :=
  w.addElement (.object o.entered)

/-- Adds a trigger, with its box up to date and without contacts. -/
def addTrigger (w : World α) (t : SpatialTrigger α) : Except CollisionError Unit × World α :=
  w.addElement (.trigger t.entered)

/-- The element in a place, and the world without it: its identity is off the record, the last element
takes its place, and its contacts go back to the pool. -/
def takeElement (w : World α) (id : EntityId) (i : Nat) (e : Element α) : Element α × World α :=
  let elements := swapRemoveAt w.elements i
  let registry := w.registry.erase id
  let registry := match elements[i]? with
    | some moved => registry.insert moved.id i
    | none => registry
  let (e, pool) := e.returnContacts w.pool
  (e, { w with elements, registry, pool })

/-- Takes the element that is registered under an identity out, if one is. It is a fault when the place
on record lies past the last element, as it may once identities have been overwritten. -/
def removeElement (w : World α) (id : EntityId) : Except Fault (Option (Element α) × World α) :=
  match w.registry.find? id with
  | none => .ok (none, w)
  | some i =>
    match w.elements[i]? with
    | none => .error .indexOutOfRange
    | some e =>
      let (e, w) := w.takeElement id i e
      .ok (some e, w)

/-- The world without the element that is registered under an identity, or as it was when none is. -/
def dropElement (w : World α) (id : EntityId) : Except Fault (World α) := (w.removeElement id).map (·.2)

/-- The element that is registered under an identity. -/
def find? (w : World α) (id : EntityId) : Option (Element α) :=
  (w.registry.find? id).bind fun i => w.elements[i]?

/-- The object that is registered under an identity. -/
def findObject? (w : World α) (id : EntityId) : Option (DynamicObject α) :=
  (w.find? id).bind Element.object?

/-- The trigger that is registered under an identity. -/
def findTrigger? (w : World α) (id : EntityId) : Option (SpatialTrigger α) :=
  (w.find? id).bind Element.trigger?

/-- Takes the element that is registered under an identity out, if it is of a kind. -/
def removeOf {τ : Type} (kind : Element α → Option τ) (w : World α) (id : EntityId) :
    Except Fault (Option τ × World α) :=
  match (w.find? id).bind kind with
  | none => .ok (none, w)
  | some _ => (w.removeElement id).map fun (e, w) => (e.bind kind, w)

/-- Takes an object out. Nothing when the identity is unknown or that of a trigger. -/
def removeObject (w : World α) (id : EntityId) : Except Fault (Option (DynamicObject α) × World α) :=
  removeOf Element.object? w id

/-- Takes a trigger out. Nothing when the identity is unknown or that of an object. -/
def removeTrigger (w : World α) (id : EntityId) : Except Fault (Option (SpatialTrigger α) × World α) :=
  removeOf Element.trigger? w id

/-- Changes the object that is registered under an identity, and returns it as it was. -/
def modifyObject (w : World α) (id : EntityId) (f : DynamicObject α → DynamicObject α) :
    Option (DynamicObject α) × World α :=
  match w.registry.find? id, w.findObject? id with
  | some i, some o => (some o, { w with elements := w.elements.setIfInBounds i (.object (f o)) })
  | _, _ => (none, w)

/-- Changes the trigger that is registered under an identity, and returns it as it was. -/
def modifyTrigger (w : World α) (id : EntityId) (f : SpatialTrigger α → SpatialTrigger α) :
    Option (SpatialTrigger α) × World α :=
  match w.registry.find? id, w.findTrigger? id with
  | some i, some t => (some t, { w with elements := w.elements.setIfInBounds i (.trigger (f t)) })
  | _, _ => (none, w)

/-- The objects, in element order. -/
def objects (w : World α) : List (DynamicObject α) := w.elements.toList.filterMap Element.object?

/-- The triggers, in element order. -/
def triggers (w : World α) : List (SpatialTrigger α) := w.elements.toList.filterMap Element.trigger?

/-! ## Static meshes -/

/-- The static meshes in the order in which they were added. -/
def staticMeshes (w : World α) : List (Mesh α) := w.meshes.map (·.2)

/-- The lowest point of any of the meshes. -/
def lowestPoint? : List (Mesh α) → Option α
  | [] => none
  | m :: rest => some (rest.foldl (fun low m => Scalar.minNum low m.lowestPoint) m.lowestPoint)

/-- The world with its kill plane up to date. -/
def updateKillPlane (w : World α) : World α :=
  { w with killPlane := (lowestPoint? w.staticMeshes).map (· - w.config.killPlaneMargin) }

/-- Adds a static mesh. It is a fault when all slots are taken. -/
def addMesh (w : World α) (m : Mesh α) : Except Fault (World α × MeshHandle) :=
  if w.meshes.length < maxStaticMeshes then
    let handle : MeshHandle := ⟨w.nextHandle⟩
    let w := { w with meshes := w.meshes ++ [(handle, m)], nextHandle := w.nextHandle + 1 }
    .ok (w.updateKillPlane, handle)
  else .error .meshTableFull

/-- Takes a static mesh out. Nothing when the handle is not loaded. -/
def removeMesh (w : World α) (handle : MeshHandle) : Option (Mesh α) × World α :=
  match w.meshes.find? fun e => e.1 == handle with
  | none => (none, w)
  | some (_, m) => (some m, { w with meshes := w.meshes.eraseP fun e => e.1 == handle }.updateKillPlane)

/-! ## Queries -/

/-- The higher of two hits, the first one on a tie, the second one when they cannot be compared. -/
def highest (best : Option (GroundHit α)) (hit : GroundHit α) : Option (GroundHit α) :=
  match best with
  | some best => if hit.y ≤ best.y then some best else some hit
  | none => some hit

/-- The highest upward facing surface strictly below a point, over some meshes. -/
def shadowCastOn (meshes : List (Mesh α)) (point : Vec3 α) : Except Fault (Option (GroundHit α)) :=
  return ((← meshes.mapM fun m => m.shadowCast point).filterMap id).foldl highest none

/-- The highest upward facing surface strictly below a point. -/
def shadowCast (w : World α) (point : Vec3 α) : Except Fault (Option (GroundHit α)) :=
  shadowCastOn w.staticMeshes point

/-- The contacts of the element that is registered under an identity, as of the last tick. -/
def contactsOf (w : World α) (id : EntityId) : List ContactId :=
  w.pool.toList ((w.find? id).bind Element.activeContacts)

/-- Something carries the object that is registered under an identity. -/
def isGrounded (w : World α) (id : EntityId) : Bool :=
  match w.findObject? id with
  | some o => o.isGrounded w.pool w.config.shadowGroundTolerance
  | none => false

/-- The objects on a shared layer that overlap a shape placed at a point. -/
def query (w : World α) (shape : Shape α) (center : Vec3 α) (layers : Layers) :
    List (DynamicObject α) :=
  let placed : Placed α := ⟨shape, center, none⟩
  let box := placed.boundingBox
  w.objects.filter fun o =>
    !o.id.isNone && o.layers.intersects layers && o.box.intersects box &&
      Overlap.holds placed.support o.support (o.position - center)

/-- The triggers on a shared layer that contain a point. -/
def queryTrigger (w : World α) (point : Vec3 α) (layers : Layers) : List (SpatialTrigger α) :=
  w.triggers.filter fun t => t.layers.intersects layers && t.contains point

end World

end ConvexCollision
