import ConvexCollision.Format.Layers
import ConvexCollision.Json

/-!
# ConvexCollision.Format.Entity -- documents of identities, layers and classes

An identity is its number, a set of layers its text, and a class its name.
-/

namespace ConvexCollision

variable {α : Type}

namespace EntityId

/-- The document of an identity. -/
def toJson (id : EntityId) : Json α := .ofNat id.val.toNat

/-- An identity from its document. -/
def ofJson? (j : Json α) : Option EntityId := j.uint32?.map EntityId.mk

end EntityId

namespace Layers

/-- The document of a set of layers. -/
def toJson (l : Layers) : Json α := .str l.text

/-- A set of layers from its document. -/
def ofJson? (j : Json α) : Option Layers := j.str?.bind ofText?

end Layers

namespace Surface

/-- The surfaces by name. -/
def byName : List (String × Surface) :=
  [("default", .default), ("sticky", .sticky), ("slippery", .slippery), ("water", .water)]

/-- The document of a surface. -/
def toJson (s : Surface) : Json α := .ofNamed byName s

/-- A surface from its document. -/
def ofJson? : Json α → Option Surface := Json.named? byName

end Surface

namespace TriggerType

/-- The trigger types by name. -/
def byName : List (String × TriggerType) :=
  [("none", .none), ("basic", .basic), ("overlap", .overlap)]

/-- The document of a trigger type. -/
def toJson (t : TriggerType) : Json α := .ofNamed byName t

/-- A trigger type from its document. -/
def ofJson? : Json α → Option TriggerType := Json.named? byName

end TriggerType

namespace Density

/-- The densities by name. -/
def byName : List (String × Density) :=
  [("light", .light), ("medium", .medium), ("neutral", .neutral), ("heavy", .heavy)]

/-- The document of a density. -/
def toJson (d : Density) : Json α := .ofNamed byName d

/-- A density from its document. -/
def ofJson? : Json α → Option Density := Json.named? byName

end Density

namespace Weight

/-- The weight classes by name. -/
def byName : List (String × Weight) :=
  [("ghost", .ghost), ("light", .light), ("medium", .medium), ("heavy", .heavy),
   ("super_heavy", .superHeavy)]

/-- The document of a weight class. -/
def toJson (w : Weight) : Json α := .ofNamed byName w

/-- A weight class from its document. -/
def ofJson? : Json α → Option Weight := Json.named? byName

end Weight

end ConvexCollision
