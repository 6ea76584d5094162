/-!
# ConvexCollision.Entity -- identities, layers, flags and classes of the things in a world
-/

namespace ConvexCollision

/-- Identity of an object or trigger. -/
structure EntityId where
  /-- The number. -/
  val : UInt32
deriving DecidableEq, Inhabited

namespace EntityId

/-- Stands for "no entity", such as static geometry in a contact. -/
def none : EntityId := ⟨0⟩

/-- The identity is the reserved one. -/
def isNone (id : EntityId) : Bool := id == none

end EntityId

/-- A set of collision layers. Bits without a named layer are carried along. -/
structure Layers where
  /-- One bit for each layer. -/
  bits : UInt16
deriving DecidableEq, Inhabited

namespace Layers

/-- The named layers in the order of their bits. -/
def names : List (String × Layers) :=
  [("TANGIBLE", ⟨1⟩), ("LIGHTING_TANGIBLE", ⟨2⟩), ("DAMAGE_PLAYER", ⟨4⟩), ("DAMAGE_ENEMY", ⟨8⟩),
   ("Z_TARGET", ⟨16⟩), ("LIGHTNING_BALL", ⟨32⟩)]

/-- The layer of solid things. -/
def tangible : Layers := ⟨1⟩

/-- Every named layer. -/
def all : Layers := ⟨63⟩

/-- No layer. -/
def empty : Layers := ⟨0⟩

/-- The two sets share a bit. -/
def intersects (a b : Layers) : Bool := a.bits &&& b.bits != 0

/-- Every bit of `b` is in `a`. -/
def contains (a b : Layers) : Bool := a.bits &&& b.bits == b.bits

/-- All bits of both. -/
def union (a b : Layers) : Layers := ⟨a.bits ||| b.bits⟩

/-- The bits of `a` that are not in `b`. -/
def diff (a b : Layers) : Layers := ⟨a.bits &&& ~~~b.bits⟩

end Layers

/-- State bits of a dynamic object. Bits without a meaning are carried along. -/
structure ObjectFlags where
  /-- One bit for each flag. -/
  bits : UInt8
deriving DecidableEq, Inhabited

namespace ObjectFlags

/-- Never moved by integration or by other objects. -/
def fixed : ObjectFlags := ⟨1⟩

/-- Accelerated by gravity. -/
def gravity : ObjectFlags := ⟨2⟩

/-- Has no ground below it. -/
def outOfBounds : ObjectFlags := ⟨4⟩

/-- Was caught by the kill plane. -/
def hitKillPlane : ObjectFlags := ⟨8⟩

/-- Every bit of `b` is set in `a`. -/
def contains (a b : ObjectFlags) : Bool := a.bits &&& b.bits == b.bits

/-- The flags with those of `b` set. -/
def insert (a b : ObjectFlags) : ObjectFlags := ⟨a.bits ||| b.bits⟩

/-- The flags with those of `b` cleared. -/
def remove (a b : ObjectFlags) : ObjectFlags := ⟨a.bits &&& ~~~b.bits⟩

end ObjectFlags

/-- What a surface is made of. -/
inductive Surface where
  /-- Stable up to the slope that the object allows. -/
  | default
  /-- Never slid on, whatever the slope. -/
  | sticky
  /-- Always slid on, even when flat. -/
  | slippery
  /-- Water: recorded from above, not collided with. -/
  | water
deriving DecidableEq, Inhabited

/-- How an object takes part in collisions. -/
inductive TriggerType where
  /-- A solid object that is pushed around. -/
  | none
  /-- Records what it touches, without normals. -/
  | basic
  /-- Records contacts with normals and never pushes. -/
  | overlap
deriving DecidableEq, Inhabited

/-- How strongly water lifts an object. -/
inductive Density where
  /-- Floats high. -/
  | light
  /-- Floats. -/
  | medium
  /-- Hovers. -/
  | neutral
  /-- Sinks. -/
  | heavy
deriving DecidableEq, Inhabited

/-- Who pushes whom: of two movable objects only the lighter one gives way. -/
inductive Weight where
  /-- The lightest class. -/
  | ghost
  /-- Lighter than most. -/
  | light
  /-- The common class. -/
  | medium
  /-- Heavier than most. -/
  | heavy
  /-- The heaviest class. -/
  | superHeavy
deriving DecidableEq, Inhabited

/-- Rank of a weight class, from lightest to heaviest. -/
def Weight.rank : Weight → Nat
  | ghost => 0
  | light => 1
  | medium => 2
  | heavy => 3
  | superHeavy => 4

end ConvexCollision
