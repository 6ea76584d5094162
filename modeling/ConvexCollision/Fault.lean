/-!
# ConvexCollision.Fault -- requests that cannot be carried out at all

A fault is not an error that a caller is meant to handle: it is a request outside the contract of
an operation, such as a look-up past the end of a table. An operation that can meet one returns
`Except Fault`, so that its absence is something to be proved rather than assumed. Where it matters
how far the operation came, it returns `Except Halt`.
-/

namespace ConvexCollision

/-- Why an operation could not be carried out. -/
inductive Fault where
  /-- A corner, triangle, vertex or tree node beyond the end of its table was asked for. -/
  | indexOutOfRange
  /-- A tree branch splits an axis other than the three of space. -/
  | axisOutOfRange
  /-- A walk of a tree did not come to an end. -/
  | endlessWalk
  /-- Every slot for a static mesh is taken. -/
  | meshTableFull
  /-- A length of time below zero, above the representable range, or not a number. -/
  | timeOutOfRange
  /-- Time was to be divided into steps of no length. -/
  | zeroStep
deriving DecidableEq

/-- A fault, and what had come about until it arose. -/
structure Halt (σ : Type) where
  /-- Why it went no further. -/
  fault : Fault
  /-- What had come about. -/
  reached : σ
deriving DecidableEq

/-- A step that may meet a fault, taken when something had come about. -/
def Halt.after {σ β : Type} (reached : σ) (step : Except Fault β) : Except (Halt σ) β :=
  step.mapError fun fault => ⟨fault, reached⟩

end ConvexCollision
