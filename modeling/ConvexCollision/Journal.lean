import ConvexCollision.Contact
import ConvexCollision.Error
import ConvexCollision.Fault

/-!
# ConvexCollision.Journal -- what happens in a world, as it is reported

A tick reports what it met as a list of events, oldest first. Events carry values; their wording is
in `Event.message`, which needs numbers that can be written down.
-/

namespace ConvexCollision

/-- How much an event matters. -/
inductive Level where
  /-- Something is wrong, and the program goes on. -/
  | warn
  /-- Of interest to whoever runs the program. -/
  | info
  /-- Of interest to whoever looks for a fault. -/
  | debug
deriving DecidableEq

/-- Something that happened. -/
inductive Event (α : Type) where
  /-- No contact was free, and the contact with this entity was dropped. -/
  | poolExhausted (other : EntityId)
  /-- A penetration could not be computed: the simplex has too few points. -/
  | flatSimplex (points : Nat)
  /-- A penetration could not be computed: the simplex has no volume. -/
  | degenerateTetrahedron
  /-- A penetration could not be computed: the nearest face has no area. -/
  | degenerateFace
  /-- An approach ran out of steps at this time. -/
  | approachUnfinished (time : α)
  /-- A fast object was put back after so many hits in a tick. -/
  | stillHitting (id : EntityId) (iterations : Nat)
  /-- An object fell below the kill plane; there may be no plane for one that has no height. -/
  | fellBelow (id : EntityId) (plane : Option α)
  /-- An identity was registered twice. -/
  | registeredTwice (id : EntityId)
deriving DecidableEq

/-- How much an event matters. -/
def Event.level {α : Type} : Event α → Level
  | fellBelow .. => .info
  | registeredTwice _ => .warn
  | _ => .debug

/-- A tick that went no further: why, and what had happened until then, oldest first. -/
abbrev Interruption (α : Type) := Halt (Array (Event α))

/-- The contact pool together with the events so far. Whatever takes contacts during a tick takes
them from here, so that running out is reported. -/
structure Ledger (α : Type) where
  /-- The contacts. -/
  pool : ContactPool α
  /-- The events, oldest first. -/
  journal : Array (Event α)

namespace Ledger

variable {α : Type} [Scalar α]

/-- Reports an event. -/
def report (l : Ledger α) (e : Event α) : Ledger α := { l with journal := l.journal.push e }

/-- Takes a contact that is on no list. -/
def allocate (l : Ledger α) (contact : Contact α) : Ledger α × Option ContactId :=
  match l.pool.allocate? contact with
  | some (pool, id) => ({ l with pool }, some id)
  | none => (l.report (.poolExhausted contact.other), none)

/-- Puts a contact in front of a list. The result is the list's new head: the old one when no contact
was free. -/
def pushFront (l : Ledger α) (head : Option ContactId) (contact : Contact α) :
    Ledger α × Option ContactId :=
  match l.pool.pushFront? head contact with
  | some (pool, id) => ({ l with pool }, some id)
  | none => (l.report (.poolExhausted contact.other), head)

/-- A step that may meet a fault, taken at this point of a tick. -/
def guarding {β : Type} (l : Ledger α) (step : Except Fault β) : Except (Interruption α) β :=
  Halt.after l.journal step

end Ledger

end ConvexCollision
