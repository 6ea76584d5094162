import ConvexCollision.Polytope

/-!
# ConvexCollision.Proofs.Polytope.Growth -- one step of the growth, and how growth ends

Growing a polytope is a loop with four ways out: the nearest face cannot be pushed out any more, no face
sees the support point, a new face would have no area, or the steps are used up. The loop itself forgets
which one it took. Here a step says what it does (`turn`) and a loop how it ended (`ending`), the steps make
up the loop (`expand_succ`), and a loop that ended by itself ended where its last polytope ends at once
(`turn_expand`).
-/

namespace ConvexCollision

variable {α : Type} [Scalar α]

namespace Polytope

/-- How growth ends. -/
inductive Ending where
  /-- The nearest face cannot be pushed out any more. -/
  | settled
  /-- The faces that see the support point have no rim. -/
  | rimless
  /-- A new face would have no area. -/
  | degenerate
  /-- The steps are used up. -/
  | spent
  /-- There is no face. -/
  | faceless
deriving DecidableEq

/-- What a step does: the polytope grows, or growth ends. -/
def turn (a b : Support α) (poly : Polytope α) : Polytope α ⊕ Ending :=
  match nearestFace? poly.faces with
  | none => .inr .faceless
  | some face =>
    let p := SupportPoint.along a b face.normal
    if face.normal.dot p.diff - face.distance < tolerance then .inr .settled
    else
      match poly.insert? p with
      | some grown => .inl grown
      | none => .inr (if (poly.rim p.diff).isEmpty then .rimless else .degenerate)

/-- How growth ends within a number of steps. -/
def ending (a b : Support α) : Nat → Polytope α → Ending
  | 0, _ => .spent
  | steps + 1, poly =>
    match poly.turn a b with
    | .inl grown => ending a b steps grown
    | .inr e => e

variable {a b : Support α} {poly grown : Polytope α} {e : Ending}

/-- Growth is made of steps. -/
theorem expand_succ (a b : Support α) (steps : Nat) (poly : Polytope α) :
    expand a b (steps + 1) poly = match poly.turn a b with
      | .inl grown => expand a b steps grown
      | .inr _ => poly := by
  show (match nearestFace? poly.faces with | none => _ | some _ => _) = _
  unfold turn
  cases nearestFace? poly.faces with
  | none => rfl
  | some face =>
    dsimp only
    split
    · rfl
    · cases poly.insert? (SupportPoint.along a b face.normal) <;> rfl

/-- A step that grows adds the support point along the normal of a face. -/
theorem exists_insert_of_turn (h : poly.turn a b = .inl grown) : ∃ face : PolytopeFace α,
    poly.insert? (SupportPoint.along a b face.normal) = some grown := by
  unfold turn at h
  split at h
  · cases h
  · next face _ =>
    dsimp only at h
    split at h
    · cases h
    · split at h
      · next hgrown =>
        cases h
        exact ⟨face, hgrown⟩
      · cases h

/-- A step ends in the nearest face exactly when the support point lies less than the tolerance beyond it. -/
theorem turn_eq_settled_iff {face : PolytopeFace α} (hface : nearestFace? poly.faces = some face) :
    poly.turn a b = .inr .settled ↔
      face.normal.dot (SupportPoint.along a b face.normal).diff - face.distance < tolerance := by
  unfold turn
  rw [hface]
  dsimp only
  split
  · next hsettled => exact ⟨fun _ => hsettled, fun _ => rfl⟩
  · next hbeyond =>
    refine ⟨fun h => ?_, fun h => absurd h hbeyond⟩
    split at h
    · cases h
    · split at h <;> cases h

/-- Growing a polytope keeps up whatever adding a support point keeps up. -/
theorem expand_induction {P : Polytope α → Prop}
    (hstep : ∀ poly grown d, P poly → poly.insert? (SupportPoint.along a b d) = some grown → P grown)
    (steps : Nat) (h : P poly) : P (poly.expand a b steps) := by
  induction steps generalizing poly with
  | zero => exact h
  | succ steps ih =>
    rw [expand_succ]
    cases hturn : poly.turn a b with
    | inl grown =>
      obtain ⟨face, hinsert⟩ := exists_insert_of_turn hturn
      exact ih (hstep poly grown face.normal h hinsert)
    | inr e => exact h

/-- **A loop that ends by itself ends in a polytope that no step grows**, and in the same way. -/
theorem turn_expand {steps : Nat} (h : poly.ending a b steps = e) (hleft : e ≠ .spent) :
    (poly.expand a b steps).turn a b = .inr e := by
  induction steps generalizing poly with
  | zero => exact absurd h.symm hleft
  | succ steps ih =>
    rw [expand_succ]
    unfold ending at h
    cases hturn : poly.turn a b with
    | inl grown =>
      rw [hturn] at h
      exact ih h
    | inr e' =>
      rw [hturn] at h
      exact hturn.trans (congrArg Sum.inr h)

/-- A polytope to start from has the points of the simplex, four or more, and a face on each three of the
first four. -/
theorem parts_of_ofSimplex {simplex : Simplex α} (h : ofSimplex simplex = .ok poly) :
    ¬ simplex.length < 4 ∧ poly.points = simplex.toArray ∧
      poly.interior = (simplex.foldl (fun sum p => sum + p.diff) Vec3.zero) /
        (Scalar.ofInt simplex.length : α) ∧
      [(0, 1, 2), (0, 2, 3), (0, 3, 1), (1, 3, 2)].mapM
        (fun t => face? poly.points t.1 t.2.1 t.2.2 poly.interior) = some poly.faces := by
  unfold ofSimplex at h
  split at h
  · cases h
  · next hlength =>
    dsimp only at h
    split at h
    · cases h
    · next faces hfaces =>
      cases h
      exact ⟨hlength, rfl, rfl, hfaces⟩

/-- What is answered comes from the nearest face. -/
theorem nearest_of_hit {r : Hit α} (h : poly.hit = .ok r) : ∃ face,
    nearestFace? poly.faces = some face ∧ r.normal = face.normal ∧
      r.penetration = Scalar.maxNum face.distance 0 := by
  unfold hit at h
  split at h
  · cases h
  · next face hface =>
    dsimp only at h
    split at h
    · cases h
    · cases h
      exact ⟨face, hface, rfl, rfl⟩

end Polytope

/-- An answer is that of a polytope that was grown as far as the steps go. -/
theorem exists_hit_of_penetration {a b : Support α} {simplex : Simplex α} {r : Hit α}
    (h : penetration a b simplex = .ok r) : ∃ poly, Polytope.ofSimplex simplex = .ok poly ∧
      (poly.expand a b Polytope.maxSteps).hit = .ok r := by
  unfold penetration at h
  cases hpoly : Polytope.ofSimplex simplex with
  | error e =>
    rw [hpoly] at h
    cases h
  | ok poly =>
    rw [hpoly] at h
    exact ⟨poly, rfl, h⟩

end ConvexCollision
