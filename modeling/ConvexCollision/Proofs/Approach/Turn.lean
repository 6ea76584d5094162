import ConvexCollision.Approach

/-!
# ConvexCollision.Proofs.Approach.Turn -- the advance, turn by turn

A turn of the advance asks for the nearest points at the time that it has come to, and either ends the
approach or goes on at a later time (`Outcome`), by one of five tests (`TurnsTo`). The advance is that
turn taken over and over, at most as often as it is allowed to (`advance_succ`).
-/

namespace ConvexCollision

variable {α : Type} [Scalar α]

/-- The direction from the first set to the second one. -/
def ClosestPoints.normal (c : ClosestPoints α) : Vec3 α := (c.pointB - c.pointA).normalizeOrZero

namespace Approach

/-- The mover at a time of its motion, at the end of which it is given. -/
def placed (b : Support α) (motion : Vec3 α) (time : α) : Support α :=
  Support.translate b (motion * (time - 1))

/-- What the advance holds between two turns. -/
structure State (α : Type) where
  /-- The time that it has come to. -/
  time : α
  /-- The last contact seen while the sets were apart. -/
  lastApart : Option (Hit α)

/-- How a turn ends. -/
inductive Outcome (α : Type) where
  /-- With the outcome of the approach. -/
  | ended (result : Approach α)
  /-- Undecided. -/
  | onward (s : State α)

/-- The state in which the advance begins. -/
def initial : State α := ⟨0, none⟩

namespace State

variable (a b : Support α) (motion : Vec3 α) (s : State α)

/-- The nearest points at the time that the advance has come to. -/
def closest : ClosestPoints α := ClosestPoints.between a (placed b motion s.time)

/-- The speed at which the mover closes in along the line between them. -/
def closing : α := -(motion.dot (s.closest a b motion).normal)

/-- The contact that they make. -/
def hit : Hit α :=
  ⟨(s.closest a b motion).pointA, (s.closest a b motion).pointB, (s.closest a b motion).normal, 0, s.time⟩

/-- The time that the mover can advance to. -/
def reached : α := s.time + ((s.closest a b motion).distance - skin) / s.closing a b motion

end State

variable (a b : Support α) (motion : Vec3 α)

/-- One turn of the advance. -/
def turn (s : State α) : Outcome α :=
  if (s.closest a b motion).distance ≤ 0 then .ended (ofLastApart s.lastApart)
  else if (s.closest a b motion).normal.same Vec3.zero = true ∨
      s.closing a b motion ≤ motion.length * grazing then .ended .misses
  else if (s.closest a b motion).distance < touching then .ended (.touches (s.hit a b motion))
  else if 1 < s.reached a b motion then .ended .misses
  else .onward ⟨s.reached a b motion, some (s.hit a b motion)⟩

/-- What a turn comes to, and by which of its tests. -/
inductive TurnsTo (s : State α) : Outcome α → Prop
  /-- The sets overlap. -/
  | overlaps (near : (s.closest a b motion).distance ≤ 0) : TurnsTo s (.ended (ofLastApart s.lastApart))
  /-- The mover passes by. -/
  | grazes (apart : ¬ (s.closest a b motion).distance ≤ 0)
    (slow : (s.closest a b motion).normal.same Vec3.zero = true ∨
      s.closing a b motion ≤ motion.length * grazing) : TurnsTo s (.ended .misses)
  /-- The sets touch. -/
  | touches (apart : ¬ (s.closest a b motion).distance ≤ 0)
    (directed : ¬ (s.closest a b motion).normal.same Vec3.zero = true)
    (closes : ¬ s.closing a b motion ≤ motion.length * grazing)
    (close : (s.closest a b motion).distance < touching) : TurnsTo s (.ended (.touches (s.hit a b motion)))
  /-- The mover comes to the end of its motion first. -/
  | passes (apart : ¬ (s.closest a b motion).distance ≤ 0)
    (directed : ¬ (s.closest a b motion).normal.same Vec3.zero = true)
    (closes : ¬ s.closing a b motion ≤ motion.length * grazing)
    (far : ¬ (s.closest a b motion).distance < touching) (late : 1 < s.reached a b motion) :
    TurnsTo s (.ended .misses)
  /-- The mover advances. -/
  | advances (apart : ¬ (s.closest a b motion).distance ≤ 0)
    (directed : ¬ (s.closest a b motion).normal.same Vec3.zero = true)
    (closes : ¬ s.closing a b motion ≤ motion.length * grazing)
    (far : ¬ (s.closest a b motion).distance < touching) (onWay : ¬ 1 < s.reached a b motion) :
    TurnsTo s (.onward ⟨s.reached a b motion, some (s.hit a b motion)⟩)

theorem turn_cases (s : State α) : TurnsTo a b motion s (turn a b motion s) := by
  unfold turn
  split
  · next near => exact .overlaps near
  next apart =>
  split
  · next slow => exact .grazes apart slow
  next blocked =>
  obtain ⟨directed, closes⟩ := not_or.mp blocked
  split
  · next close => exact .touches apart directed closes close
  next far =>
  split
  · next late => exact .passes apart directed closes far late
  · next onWay => exact .advances apart directed closes far onWay

/-- The advance takes a turn, and goes on while it is undecided. -/
theorem advance_succ (n : Nat) (s : State α) : advance a b motion (n + 1) s.time s.lastApart =
    match turn a b motion s with
    | .ended result => result
    | .onward s' => advance a b motion n s'.time s'.lastApart := by
  show (if (s.closest a b motion).distance ≤ 0 then _ else _) = _
  unfold turn
  split
  · rfl
  show (if (s.closest a b motion).normal.same Vec3.zero = true ∨
    s.closing a b motion ≤ motion.length * grazing then _ else _) = _
  split
  · rfl
  show (if (s.closest a b motion).distance < touching then _ else _) = _
  split
  · rfl
  show (if 1 < s.reached a b motion then _ else _) = _
  split <;> rfl

/-- The state after a number of undecided turns, when there were as many. -/
def after : Nat → State α → Option (State α)
  | 0, s => some s
  | n + 1, s =>
    match turn a b motion s with
    | .onward s' => after n s'
    | .ended _ => none

end Approach

end ConvexCollision
