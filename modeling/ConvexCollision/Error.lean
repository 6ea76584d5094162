import ConvexCollision.Entity

/-!
# ConvexCollision.Error -- why data or a registration is refused

The causes are values; `CollisionError.message` gives each its one wording.
-/

namespace ConvexCollision

/-- Why a file, a mesh or a registration is refused. -/
inductive CollisionError where
  /-- The file cannot be read. -/
  | unreadable
  /-- The text does not describe the expected value. -/
  | malformed
  /-- A mesh without triangles, or a tree without nodes. -/
  | emptyMesh
  /-- A mesh whose triangles or tree nodes outnumber 16-bit indices. -/
  | meshTooLarge (triangleCount : Nat)
  /-- A triangle names a vertex that the mesh lacks. -/
  | invalidVertexIndex (triangle index vertexCount : Nat)
  /-- A leaf of the tree covers triangles that the mesh lacks. -/
  | triangleOutOfRange (node start stop triangleCount : Nat)
  /-- A branch names a child that is not a later node. -/
  | nodeOutOfRange (node child nodeCount : Nat)
  /-- The tree is deeper than a walk can hold. -/
  | treeTooDeep (depth maxDepth : Nat)
  /-- The reserved identity cannot be registered. -/
  | nullEntity
  /-- The identity is registered already. -/
  | duplicateEntity (id : EntityId)
deriving DecidableEq

/-- An entity as log lines and messages name it. -/
def EntityId.text (id : EntityId) : String := "EntityId(" ++ toString id.val.toNat ++ ")"

namespace CollisionError

/-- The wording of an error. -/
def message : CollisionError → String
  | unreadable => "failed to read collision data"
  | malformed => "failed to parse collision data"
  | emptyMesh => "mesh has no triangles"
  | meshTooLarge n =>
    "mesh with " ++ toString n ++ " triangles can't be indexed with 16 bit offsets"
  | invalidVertexIndex triangle index vertexCount =>
    "triangle " ++ toString triangle ++ " references vertex " ++ toString index ++
      " but the mesh has " ++ toString vertexCount ++ " vertices"
  | triangleOutOfRange node start stop triangleCount =>
    "kd-tree leaf " ++ toString node ++ " covers triangles " ++ toString start ++ ".." ++
      toString stop ++ " but the mesh has " ++ toString triangleCount
  | nodeOutOfRange node child nodeCount =>
    "kd-tree node " ++ toString node ++ " references child " ++ toString child ++ " out of " ++
      toString nodeCount
  | treeTooDeep depth maxDepth =>
    "kd-tree depth " ++ toString depth ++ " exceeds the traversal limit of " ++ toString maxDepth
  | nullEntity => "entity id 0 is reserved"
  | duplicateEntity id => "entity " ++ id.text ++ " is already registered"

end CollisionError

end ConvexCollision
