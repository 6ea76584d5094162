import ConvexCollision.Entity

/-!
# ConvexCollision.World.Registry -- which entity stands where

A table from identities to positions in the element array, each identity at most once.
-/

namespace ConvexCollision

/-- Positions by identity. -/
structure Registry where
  /-- The entries. -/
  entries : List (EntityId × Nat)
deriving DecidableEq

namespace Registry

/-- No entity. -/
def empty : Registry := ⟨[]⟩

/-- The position of an entity. -/
def find? (r : Registry) (id : EntityId) : Option Nat :=
  (r.entries.find? fun e => e.1 == id).map (·.2)

/-- The entity is there. -/
def contains (r : Registry) (id : EntityId) : Bool := (r.find? id).isSome

/-- The table without an entity. -/
def erase (r : Registry) (id : EntityId) : Registry := ⟨r.entries.filter fun e => e.1 != id⟩

/-- The table with an entity at a position, wherever it was before. -/
def insert (r : Registry) (id : EntityId) (position : Nat) : Registry :=
  ⟨(id, position) :: (r.erase id).entries⟩

end Registry

end ConvexCollision
