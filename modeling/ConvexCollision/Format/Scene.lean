import ConvexCollision.Format.Config
import ConvexCollision.Format.Mesh
import ConvexCollision.Format.Shape
import ConvexCollision.Scene

/-!
# ConvexCollision.Format.Scene -- documents of scenes

Most of what can be said about an object has a value that need not be written. The meshes have to be
there, if only as an empty list.
-/

namespace ConvexCollision

variable {α : Type} [Scalar α]

namespace ObjectPlan

/-- The document of a planned object. -/
def toJson (p : ObjectPlan α) : Json α :=
  .obj
    [("entity_id", p.id.toJson), ("object_type", p.type.toJson), ("position", p.position.toJson),
     ("velocity", p.velocity.toJson), ("yaw", .ofScalar p.yaw), ("collision_layers", p.layers.toJson),
     ("fixed", .bool p.isFixed), ("trigger_type", p.triggerType.toJson),
     ("weight_class", p.weight.toJson), ("density_class", p.density.toJson)]

/-- The names of the fields in order. -/
def fieldNames : List String :=
  ["entity_id", "object_type", "position", "velocity", "yaw", "collision_layers", "fixed",
   "trigger_type", "weight_class", "density_class"]

/-- A planned object from its document. -/
def ofJson? (j : Json α) : Option (ObjectPlan α) := do
  let r ← Record.ofJson? fieldNames j
  return {
    id := ← r.field "entity_id" EntityId.ofJson?
    type := ← r.field "object_type" ObjectType.ofJson?
    position := ← r.field "position" Vec3.ofJson?
    velocity := ← r.fieldD "velocity" Vec3.ofJson? Vec3.zero
    yaw := ← r.fieldD "yaw" Json.scalar? 0
    layers := ← r.fieldD "collision_layers" Layers.ofJson? Layers.all
    isFixed := ← r.fieldD "fixed" Json.bool? false
    triggerType := ← r.fieldD "trigger_type" TriggerType.ofJson? .none
    weight := ← r.fieldD "weight_class" Weight.ofJson? .medium
    density := ← r.fieldD "density_class" Density.ofJson? .neutral }

end ObjectPlan

namespace TriggerPlan

/-- The document of a planned trigger. -/
def toJson (p : TriggerPlan α) : Json α :=
  .obj
    [("entity_id", p.id.toJson), ("shape", p.shape.toJson), ("position", p.position.toJson),
     ("yaw", .ofScalar p.yaw), ("collision_layers", p.layers.toJson)]

/-- A planned trigger from its document. -/
def ofJson? (j : Json α) : Option (TriggerPlan α) := do
  let r ← Record.ofJson? ["entity_id", "shape", "position", "yaw", "collision_layers"] j
  return {
    id := ← r.field "entity_id" EntityId.ofJson?
    shape := ← r.field "shape" TriggerShape.ofJson?
    position := ← r.field "position" Vec3.ofJson?
    yaw := ← r.fieldD "yaw" Json.scalar? 0
    layers := ← r.fieldD "collision_layers" Layers.ofJson? Layers.all }

end TriggerPlan

namespace Scene

/-- The document of a scene. -/
def toJson (s : Scene α) : Json α :=
  .obj
    [("config", s.config.toJson), ("meshes", .ofList MeshData.toJson s.meshes),
     ("objects", .ofList ObjectPlan.toJson s.objects),
     ("triggers", .ofList TriggerPlan.toJson s.triggers)]

/-- A scene from its document. -/
def ofJson? (j : Json α) : Option (Scene α) := do
  let r ← Record.ofJson? ["config", "meshes", "objects", "triggers"] j
  return {
    config := ← r.fieldD "config" Config.ofJson? Config.standard
    meshes := ← r.field "meshes" (Json.listOf? MeshData.ofJson?)
    objects := ← r.fieldD "objects" (Json.listOf? ObjectPlan.ofJson?) []
    triggers := ← r.fieldD "triggers" (Json.listOf? TriggerPlan.ofJson?) [] }

end Scene

end ConvexCollision
