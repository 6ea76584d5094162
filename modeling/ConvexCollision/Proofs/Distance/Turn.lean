import Mathlib.Tactic.SplitIfs
import ConvexCollision.Distance

/-!
# ConvexCollision.Proofs.Distance.Turn -- the search for the nearest points, turn by turn

A turn of the search asks for one point of the difference and either ends the search or goes on with what it
came to (`closer?`). The search is that turn taken over and over, at most as often as it is allowed to
(`search_succ`). It ends in one of four ways (`Ending`), or because its turns are used up
(`search_ends`), and what the turns keep up holds in the state in which it ends (`inv_search`).
-/

namespace ConvexCollision.ClosestPoints

variable {α : Type} [Scalar α] (a b : Support α)

/-- One turn of the search for the nearest points; nothing when it ends the search. -/
def closer? (s : State α) : Option (State α) :=
  let p := SupportPoint.along a b s.dir
  let grown := s.simplex ++ [p]
  if s.overlapping then none
  else if s.simplex.hasPoint p.diff then none
  else if s.distSq + s.dir.dot p.diff ≤ s.distSq * progress then none
  else if s.distSq ≤ grown.nearest.1.lengthSq then none
  else some {
    simplex := (grown.retain grown.nearest.2).1
    weights := (grown.retain grown.nearest.2).2
    distSq := grown.nearest.1.lengthSq
    dir := -grown.nearest.1
    overlapping := decide (grown.nearest.1.lengthSq < Overlap.containsOriginSq) ||
      (grown.retain grown.nearest.2).1.length == 4 }

/-- The search takes a turn, and goes on with what it came to. -/
theorem search_succ (steps : Nat) (s : State α) :
    search a b (steps + 1) s = match closer? a b s with
      | none => s
      | some s' => search a b steps s' := by
  rw [search]
  unfold closer?
  dsimp only
  split_ifs <;> rfl

/-- Why a turn ends the search. -/
inductive Ending where
  /-- The origin was within reach already. -/
  | overlap
  /-- The point that was asked for lies next to one that the simplex holds. -/
  | repeated
  /-- The point that was asked for is hardly nearer to the origin. -/
  | noProgress
  /-- The simplex with the point that was asked for is no nearer to the origin. -/
  | noNearer
deriving DecidableEq

/-- Why the next turn ends the search, if it does. -/
def ending? (s : State α) : Option Ending :=
  let p := SupportPoint.along a b s.dir
  if s.overlapping then some .overlap
  else if s.simplex.hasPoint p.diff then some .repeated
  else if s.distSq + s.dir.dot p.diff ≤ s.distSq * progress then some .noProgress
  else if s.distSq ≤ (Simplex.nearest (s.simplex ++ [p])).1.lengthSq then some .noNearer
  else none

variable {a b} {s s' : State α}

theorem closer?_eq_none_iff : closer? a b s = none ↔ (ending? a b s).isSome = true := by
  unfold closer? ending?
  dsimp only
  split_ifs <;> simp

/-- The simplex with the point that is asked for. -/
def State.grown (a b : Support α) (s : State α) : Simplex α := s.simplex ++ [SupportPoint.along a b s.dir]

/-- A turn goes on with the nearest point of the grown simplex, and with the points that it depends on. -/
theorem closer?_eq_some (h : closer? a b s = some s') : s.overlapping = false ∧
    s' = { simplex := ((s.grown a b).retain (s.grown a b).nearest.2).1
           weights := ((s.grown a b).retain (s.grown a b).nearest.2).2
           distSq := (s.grown a b).nearest.1.lengthSq
           dir := -(s.grown a b).nearest.1
           overlapping := decide ((s.grown a b).nearest.1.lengthSq < Overlap.containsOriginSq) ||
             ((s.grown a b).retain (s.grown a b).nearest.2).1.length == 4 } := by
  unfold closer? at h
  dsimp only at h
  split_ifs at h with hover
  exact ⟨Bool.eq_false_iff.mpr hover, (Option.some.inj h).symm⟩

/-- A turn that repeats a point has asked for one next to a point that the simplex holds. -/
theorem hasPoint_of_repeated (h : ending? a b s = some .repeated) :
    s.overlapping = false ∧ s.simplex.hasPoint (SupportPoint.along a b s.dir).diff = true := by
  unfold ending? at h
  dsimp only at h
  split_ifs at h with hover hrepeated hshort hfar <;> simp only [Option.some.injEq, reduceCtorEq] at h
  exact ⟨Bool.eq_false_iff.mpr hover, hrepeated⟩

/-- A turn without progress has asked for a point that is hardly nearer to the origin. -/
theorem le_of_noProgress (h : ending? a b s = some .noProgress) : s.overlapping = false ∧
    s.distSq + s.dir.dot (SupportPoint.along a b s.dir).diff ≤ s.distSq * progress := by
  unfold ending? at h
  dsimp only at h
  split_ifs at h with hover hrepeated hshort hfar <;> simp only [Option.some.injEq, reduceCtorEq] at h
  exact ⟨Bool.eq_false_iff.mpr hover, hshort⟩

/-! ## § Runs -/

/-- What the turns keep up holds in the state in which the search ends. -/
theorem inv_search (P : State α → Prop) (hstep : ∀ s s', P s → closer? a b s = some s' → P s')
    (steps : Nat) (h : P s) : P (search a b steps s) := by
  induction steps generalizing s with
  | zero => exact h
  | succ steps ih =>
    rw [search_succ]
    cases hcloser : closer? a b s with
    | none => exact h
    | some s' => exact ih (hstep s s' h hcloser)

variable (a b) in
/-- The state after a number of turns none of which ends the search. -/
def after : Nat → State α → Option (State α)
  | 0, s => some s
  | n + 1, s => (closer? a b s).bind (after n)

/-- The search ends in a state in which the next turn would end it, or it has taken all its turns. -/
theorem search_ends (steps : Nat) (s : State α) :
    (ending? a b (search a b steps s)).isSome = true ∨ after a b steps s = some (search a b steps s) := by
  induction steps generalizing s with
  | zero => exact .inr rfl
  | succ steps ih =>
    rw [search_succ, after]
    cases hcloser : closer? a b s with
    | none => exact .inl (closer?_eq_none_iff.mp hcloser)
    | some s' => exact ih s'

end ConvexCollision.ClosestPoints
