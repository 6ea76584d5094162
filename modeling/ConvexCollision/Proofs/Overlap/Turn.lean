import Mathlib.Tactic.SplitIfs
import ConvexCollision.Overlap

/-!
# ConvexCollision.Proofs.Overlap.Turn -- the search, turn by turn

A turn of the search asks for one point of the difference and either ends, with overlap or without, or
goes on with a simplex that is nearer to the origin (`Outcome`). The search is that turn taken over
and over, at most as often as it is allowed to (`search_succ`). What it finds, it finds in the last of
the turns that it takes (`exists_turn_of_search_eq_some`, `exists_turn_of_search_eq_none`).
-/

namespace ConvexCollision.Overlap

variable {α : Type} [Scalar α] {a b : Support α}

/-! ## § Turns -/

/-- What the search holds between two turns. -/
structure State (α : Type) where
  /-- The points of the difference. -/
  simplex : Simplex α
  /-- The direction from the nearest point of their hull to the origin. -/
  dir : Vec3 α
  /-- The squared distance that no later nearest point may keep. -/
  closest : α

/-- How a turn ends. -/
inductive Outcome (α : Type) where
  /-- With overlap, and the simplex that shows it. -/
  | overlap (found : Simplex α)
  /-- Without overlap. -/
  | apart
  /-- Undecided. -/
  | onward (s : State α)

namespace State

variable (a b : Support α) (s : State α)

/-- The point of the difference that a turn asks for. -/
def asked : SupportPoint α := SupportPoint.along a b s.dir

/-- The simplex with that point. -/
def grown : Simplex α := s.simplex ++ [s.asked a b]

/-- The nearest point of the grown simplex. -/
def reached : Vec3 α := (s.grown a b).nearest.1

/-- The points of the grown simplex that are kept. -/
def kept : Simplex α := ((s.grown a b).retain (s.grown a b).nearest.2).1

end State

variable (a b) in
/-- One turn of the search. -/
def turn (s : State α) : Outcome α :=
  if s.simplex.hasPoint (s.asked a b).diff then .apart
  else if s.dir.dot (s.asked a b).diff < 0 then .apart
  else if (s.reached a b).lengthSq < containsOriginSq then .overlap (s.grown a b)
  else if s.closest ≤ (s.reached a b).lengthSq then .apart
  else if (s.kept a b).length = 4 then .overlap (s.kept a b)
  else .onward ⟨s.kept a b, -s.reached a b, (s.reached a b).lengthSq⟩

/-- The search takes a turn, and goes on while it is undecided. -/
theorem search_succ (n : Nat) (s : State α) : search a b (n + 1) s.simplex s.dir s.closest =
    match turn a b s with
    | .overlap found => some found
    | .apart => none
    | .onward s' => search a b n s'.simplex s'.dir s'.closest := by
  simp only [search, turn, State.reached, State.kept, State.grown, State.asked]
  split_ifs <;> simp only [*, if_true, if_false, Bool.false_eq_true]

variable {s s' : State α} {n : Nat}

/-- A turn with overlap has come near the origin, or keeps four points. -/
theorem turn_overlap {found : Simplex α} (h : turn a b s = .overlap found) :
    (s.reached a b).lengthSq < containsOriginSq ∨
      (¬(s.reached a b).lengthSq < containsOriginSq ∧ (s.kept a b).length = 4) := by
  unfold turn at h
  split_ifs at h with _ _ hnear _ hfour
  · exact Or.inl hnear
  · exact Or.inr ⟨hnear, hfour⟩

/-- A turn without overlap repeats a point, stays short of the origin, or brings no progress. -/
theorem turn_apart (h : turn a b s = .apart) :
    s.simplex.hasPoint (s.asked a b).diff = true ∨ s.dir.dot (s.asked a b).diff < 0 ∨
      (s.simplex.hasPoint (s.asked a b).diff = false ∧ ¬s.dir.dot (s.asked a b).diff < 0 ∧
        s.closest ≤ (s.reached a b).lengthSq) := by
  unfold turn at h
  split_ifs at h with hrepeat hshort _ hstay
  · exact Or.inl hrepeat
  · exact Or.inr (Or.inl hshort)
  · exact Or.inr (Or.inr ⟨Bool.eq_false_iff.mpr hrepeat, hshort, hstay⟩)

/-- An undecided turn asks for a new point that is not short of the origin, and goes on from the
nearest point with fewer than four points kept. -/
theorem turn_onward (h : turn a b s = .onward s') :
    s.simplex.hasPoint (s.asked a b).diff = false ∧ ¬s.dir.dot (s.asked a b).diff < 0 ∧
      ¬(s.reached a b).lengthSq < containsOriginSq ∧ (s.kept a b).length ≠ 4 ∧
      s' = ⟨s.kept a b, -s.reached a b, (s.reached a b).lengthSq⟩ := by
  unfold turn at h
  split_ifs at h with hrepeat hshort hnear _ hfour
  exact ⟨Bool.eq_false_iff.mpr hrepeat, hshort, hnear, hfour, (Outcome.onward.inj h).symm⟩

variable (a b) in
/-- The state in which the search begins. -/
def initial (firstDirection : Vec3 α) : State α :=
  let first := start a b firstDirection
  ⟨[first], -first.diff, Scalar.maxFinite⟩

theorem find?_eq (firstDirection : Vec3 α) : find? a b firstDirection =
    let s := initial a b firstDirection
    (if s.dir.lengthSq < containsOriginSq then some s.simplex
      else search a b maxSteps s.simplex s.dir s.closest).map (Simplex.completeTetrahedron a b) := rfl

variable (a b) in
/-- The state after a number of undecided turns, when there were as many. -/
def after : Nat → State α → Option (State α)
  | 0, s => some s
  | n + 1, s =>
    match turn a b s with
    | .onward s' => after n s'
    | _ => none

/-! ## § Runs -/

/-- What the turns of a run keep up holds in the state that they lead to. -/
theorem inv_after (P : State α → Prop)
    (hstep : ∀ k < n, ∀ s₁ s₂, after a b k s = some s₁ → P s₁ → turn a b s₁ = .onward s₂ → P s₂)
    (h : after a b n s = some s') (hs : P s) : P s' := by
  induction n generalizing s with
  | zero => exact Option.some.inj h ▸ hs
  | succ n ih =>
    simp only [after] at h
    split at h
    · rename_i s₁ hturn
      have hfirst := hstep 0 (Nat.succ_pos n) s s₁ rfl hs hturn
      refine ih (fun k hk s₂ s₃ hafter => ?_) h hfirst
      exact hstep (k + 1) (Nat.succ_lt_succ hk) s₂ s₃ (by simpa only [after, hturn] using hafter)
    · exact absurd h (by simp)

/-- A search that finds overlap came to a turn that ends with it. -/
theorem exists_turn_of_search_eq_some {found : Simplex α}
    (h : search a b n s.simplex s.dir s.closest = some found) :
    ∃ k s', after a b k s = some s' ∧ turn a b s' = .overlap found := by
  induction n generalizing s with
  | zero => exact absurd h (by simp [search])
  | succ n ih =>
    rw [search_succ] at h
    split at h
    · rename_i hturn
      exact ⟨0, s, rfl, hturn.trans (congrArg _ (Option.some.inj h))⟩
    · exact absurd h (by simp)
    · rename_i s₁ hturn
      obtain ⟨k, s', hafter, hlast⟩ := ih h
      exact ⟨k + 1, s', by simpa only [after, hturn] using hafter, hlast⟩

/-- A search that finds none, and not because its turns are used up, came to a turn that ends without
overlap. -/
theorem exists_turn_of_search_eq_none (h : search a b n s.simplex s.dir s.closest = none)
    (hdone : after a b n s = none) :
    ∃ k < n, ∃ s', after a b k s = some s' ∧ turn a b s' = .apart := by
  induction n generalizing s with
  | zero => exact absurd hdone (by simp [after])
  | succ n ih =>
    rw [search_succ] at h
    simp only [after] at hdone
    split at h
    · exact absurd h (by simp)
    · rename_i hturn
      exact ⟨0, Nat.succ_pos n, s, rfl, hturn⟩
    · rename_i s₁ hturn
      rw [hturn] at hdone
      obtain ⟨k, hk, s', hafter, hlast⟩ := ih h hdone
      exact ⟨k + 1, Nat.succ_lt_succ hk, s', by simpa only [after, hturn] using hafter, hlast⟩

end ConvexCollision.Overlap
