import ConvexCollision.Entity
import ConvexCollision.Vector

/-!
# ConvexCollision.Contact -- contacts, and the pool that they are taken from

A pool holds a fixed number of contacts. A contact is free, waiting on the pool's stack, or in use;
contacts in use are chained into lists, each contact naming the next, and whoever owns a list keeps
the number of its head. `ContactPool.chain` follows a list, `toList` gives all of it. A pool may have
more contacts than are numbered; nobody ever gets the others.
-/

namespace ConvexCollision

/-- A contact as its owner sees it, apart from its place in a list. -/
structure Contact (α : Type) where
  /-- Unit vector from the other party toward the owner of the contact. -/
  normal : Vec3 α
  /-- Where the two touch. -/
  point : Vec3 α
  /-- What the touched surface is made of. -/
  surface : Surface
  /-- The other party; nobody for static geometry. -/
  other : EntityId
deriving DecidableEq

/-- The number of a contact in its pool. -/
structure ContactId where
  /-- The number. -/
  number : UInt32
deriving DecidableEq, Inhabited

/-- The place of its slot. -/
def ContactId.index (id : ContactId) : Nat := id.number.toNat

/-- A slot of a pool. -/
structure ContactSlot (α : Type) where
  /-- The contact that it holds. -/
  contact : Contact α
  /-- The next contact of the list. -/
  next : Option ContactId
  /-- The slot is taken. -/
  inUse : Bool
deriving DecidableEq

/-- A fixed number of contacts, and those of them that are free. -/
structure ContactPool (α : Type) where
  /-- One slot for each contact. -/
  slots : Array (ContactSlot α)
  /-- The free contacts, the one to be taken next on top. -/
  free : List ContactId
deriving DecidableEq

variable {α : Type} [Scalar α]

/-- A contact with nobody, at the origin, from below. -/
def Contact.blank : Contact α := ⟨Vec3.unitY, Vec3.zero, .default, EntityId.none⟩

instance : Inhabited (Contact α) := ⟨Contact.blank⟩

instance : Inhabited (ContactSlot α) := ⟨⟨default, none, false⟩⟩

namespace ContactPool

/-- The numbers that are given out in a pool of some size, in order. They have 32 bits, and so has the
count of them: of a larger size only the low 32 bits are counted. -/
def allIds (capacity : Nat) : List ContactId :=
  (List.range (UInt32.ofNat capacity).toNat).map fun i => ⟨UInt32.ofNat i⟩

/-- A pool of unused contacts. -/
def ofCapacity (capacity : Nat) : ContactPool α :=
  ⟨Array.replicate capacity default, allIds capacity⟩

/-- The number of contacts. -/
def capacity (p : ContactPool α) : Nat := p.slots.size

/-- The number of free contacts. -/
def freeCount (p : ContactPool α) : Nat := p.free.length

/-- The number of contacts in use. -/
def activeCount (p : ContactPool α) : Nat := p.capacity - p.freeCount

/-- The slot of a contact. -/
def slot (p : ContactPool α) (id : ContactId) : ContactSlot α := p.slots.getD id.index default

/-- A contact by its number. -/
def get (p : ContactPool α) (id : ContactId) : Contact α := (p.slot id).contact

/-- Changes the slot of a contact. -/
def modifySlot (p : ContactPool α) (id : ContactId) (f : ContactSlot α → ContactSlot α) :
    ContactPool α :=
  { p with slots := p.slots.modify id.index f }

/-- Overwrites a contact where it is, keeping its place in a list. -/
def set (p : ContactPool α) (id : ContactId) (contact : Contact α) : ContactPool α :=
  p.modifySlot id fun s => { s with contact }

/-- Every contact free again. What the contacts held is left behind. -/
def clear (p : ContactPool α) : ContactPool α :=
  { slots := p.slots.map fun s => { s with inUse := false }
    free := allIds p.capacity }

/-- Takes a free contact and fills it, without putting it on any list. Nothing when none is free. -/
def allocate? (p : ContactPool α) (contact : Contact α) : Option (ContactPool α × ContactId) :=
  match p.free with
  | [] => none
  | id :: free =>
    some ({ p with free }.modifySlot id fun _ => ⟨contact, none, true⟩, id)

/-- Puts a contact in front of a list. The contact is the new head. -/
def linkFront (p : ContactPool α) (head : Option ContactId) (id : ContactId) : ContactPool α :=
  p.modifySlot id fun s => { s with next := head }

/-- Takes a free contact, fills it and puts it in front of a list. -/
def pushFront? (p : ContactPool α) (head : Option ContactId) (contact : Contact α) :
    Option (ContactPool α × ContactId) :=
  (p.allocate? contact).map fun (p, id) => (p.linkFront head id, id)

/-- Gives a contact back. One that is free already stays as it is. -/
def release (p : ContactPool α) (id : ContactId) : ContactPool α :=
  if (p.slot id).inUse then
    let p := p.modifySlot id fun s => { s with next := none, inUse := false }
    { p with free := id :: p.free }
  else p

/-- Gives the contacts of a list back, for at most the given number of links. -/
def releaseChain : Nat → Option ContactId → ContactPool α → ContactPool α
  | 0, _, p => p
  | _, none, p => p
  | links + 1, some id, p => releaseChain links (p.slot id).next (p.release id)

/-- Gives a whole list back. Between two contacts that are given back a list can pass over free ones
only as often as there are contacts, so the square of their number bounds the links of a list that
ends. -/
def returnContacts (p : ContactPool α) (head : Option ContactId) : ContactPool α :=
  releaseChain ((p.capacity + 1) * (p.capacity + 1)) head p

/-- The first contacts of a list, at most so many. -/
def chain (p : ContactPool α) : (limit : Nat) → (head : Option ContactId) → List ContactId
  | 0, _ => []
  | _, none => []
  | limit + 1, some id => id :: p.chain limit (p.slot id).next

/-- The contacts of a list. A list that ends is no longer than the pool. -/
def toList (p : ContactPool α) (head : Option ContactId) : List ContactId := p.chain p.capacity head

/-- The contact of a list whose point is nearest a position; the last one wins a comparison that
cannot be made, the first one a tie. -/
def nearest? (p : ContactPool α) (head : Option ContactId) (position : Vec3 α) : Option ContactId :=
  ((p.toList head).foldl (fun (best : Option (ContactId × α)) id =>
    let distance := (p.get id).point.distanceSq position
    match best with
    | some (first, least) => if least ≤ distance then some (first, least) else some (id, distance)
    | none => some (id, distance)) none).map (·.1)

end ContactPool

end ConvexCollision
