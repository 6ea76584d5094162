import ConvexCollision.World

/-!
# ConvexCollision.Scene -- descriptions from which worlds are built

A scene lists what a world starts with. Building it validates the meshes, puts everything in place
in the order meshes, objects, triggers, and stops at the first thing that cannot be taken in.
-/

namespace ConvexCollision

/-- What a scene says about an object. -/
structure ObjectPlan (α : Type) where
  /-- Its identity. -/
  id : EntityId
  /-- What it has in common with others. -/
  type : ObjectType α
  /-- Where it starts. -/
  position : Vec3 α
  /-- Its first velocity. -/
  velocity : Vec3 α
  /-- Its yaw in degrees. -/
  yaw : α
  /-- The layers on which it is met. -/
  layers : Layers
  /-- It never moves. -/
  isFixed : Bool
  /-- How it takes part in collisions. -/
  triggerType : TriggerType
  /-- Whom it pushes. -/
  weight : Weight
  /-- How strongly water lifts it. -/
  density : Density
deriving DecidableEq

/-- What a scene says about a trigger. -/
structure TriggerPlan (α : Type) where
  /-- Its identity. -/
  id : EntityId
  /-- Its volume. -/
  shape : TriggerShape α
  /-- Where it is. -/
  position : Vec3 α
  /-- Its yaw in degrees. -/
  yaw : α
  /-- The layers that it looks at. -/
  layers : Layers
deriving DecidableEq

/-- What a world starts with. -/
structure Scene (α : Type) where
  /-- The tunables. -/
  config : Config α
  /-- The static meshes. -/
  meshes : List (MeshData α)
  /-- The objects. -/
  objects : List (ObjectPlan α)
  /-- The triggers. -/
  triggers : List (TriggerPlan α)
deriving DecidableEq

/-- Why no world came about. -/
inductive BuildFailure where
  /-- A mesh or a registration was refused. -/
  | refused (error : CollisionError)
  /-- Something was asked for that cannot be done. -/
  | faulty (fault : Fault)
deriving DecidableEq

variable {α : Type} [Scalar α]

/-- A step that may be refused, as a part of a build. -/
def BuildFailure.ofRefusal {β : Type} : Except CollisionError β → Except BuildFailure β
  | .ok b => .ok b
  | .error e => .error (.refused e)

/-- A step that may be faulty, as a part of a build. -/
def BuildFailure.ofFault {β : Type} : Except Fault β → Except BuildFailure β
  | .ok b => .ok b
  | .error f => .error (.faulty f)

/-- A registration, as a part of a build: it goes on with the world that it leaves, unless refused. -/
def BuildFailure.ofRegistration : Except CollisionError Unit × World α → Except BuildFailure (World α)
  | (result, w) => (BuildFailure.ofRefusal result).map fun _ => w

/-- The planned object, at the start. It is faulty when its shape cannot be used. -/
def ObjectPlan.create (p : ObjectPlan α) : Except Fault (DynamicObject α) := do
  let shape ← p.type.shape.checked
  let o := DynamicObject.create p.id { p.type with shape } p.layers p.position
    (Rotation.ofYawDegrees p.yaw)
  return { o with
    velocity := p.velocity
    triggerType := p.triggerType
    weight := p.weight
    density := p.density
    flags := if p.isFixed then o.flags.insert ObjectFlags.fixed else o.flags }

/-- The planned trigger, at the start. -/
def TriggerPlan.create (p : TriggerPlan α) : SpatialTrigger α :=
  SpatialTrigger.create p.id p.shape p.layers p.position (Rotation.ofYawDegrees p.yaw)

namespace World

/-- The world with some static meshes added, in order. -/
def addMeshes (w : World α) (meshes : List (Mesh α)) : Except BuildFailure (World α) :=
  meshes.foldlM (fun w m => BuildFailure.ofFault ((w.addMesh m).map (·.1))) w

/-- The world with some objects added, in order. -/
def addObjects (w : World α) (objects : List (DynamicObject α)) : Except BuildFailure (World α) :=
  objects.foldlM (fun w o => BuildFailure.ofRegistration (w.addObject o)) w

/-- The world with some triggers added, in order. -/
def addTriggers (w : World α) (triggers : List (SpatialTrigger α)) : Except BuildFailure (World α) :=
  triggers.foldlM (fun w t => BuildFailure.ofRegistration (w.addTrigger t)) w

/-- A world with other tunables and the meshes, objects and triggers of this one as they are now. -/
def withConfig (w : World α) (config : Config α) : Except BuildFailure (World α) := do
  let withMeshes ← (new config).addMeshes w.staticMeshes
  let withObjects ← withMeshes.addObjects w.objects
  withObjects.addTriggers w.triggers

end World

namespace Scene

/-- Adds a mesh after validating it. -/
def addMesh (w : World α) (m : MeshData α) : Except BuildFailure (World α) := do
  let m ← BuildFailure.ofRefusal (Mesh.ofData m)
  w.addMeshes [m]

/-- Adds a planned object. -/
def addObject (w : World α) (p : ObjectPlan α) : Except BuildFailure (World α) := do
  let o ← BuildFailure.ofFault p.create
  w.addObjects [o]

/-- The world that starts as described. -/
def build (s : Scene α) : Except BuildFailure (World α) := do
  let w ← s.meshes.foldlM addMesh (World.new s.config)
  let w ← s.objects.foldlM addObject w
  w.addTriggers (s.triggers.map TriggerPlan.create)

end Scene

end ConvexCollision
