import ConvexCollision.Overlap

/-!
# ConvexCollision.Distance -- the nearest points of two convex sets

The same search as for overlap, ended by lack of progress: the nearest points are the combinations,
with the final weights, of the points of `A` and of `B` behind the simplex.
-/

namespace ConvexCollision

variable {α : Type} [Scalar α]

/-- Nearest points of two convex sets. -/
structure ClosestPoints (α : Type) where
  /-- The point of the first set. -/
  pointA : Vec3 α
  /-- The point of the second set. -/
  pointB : Vec3 α
  /-- Their distance; zero when the sets overlap. -/
  distance : α
deriving DecidableEq, Inhabited

namespace ClosestPoints

/-- Progress below this fraction of the squared distance ends the search. -/
def progress : α := 1e-6

/-- Where the search stands. -/
structure State (α : Type) where
  /-- The points that matter for the nearest point. -/
  simplex : Simplex α
  /-- Their weights. -/
  weights : List α
  /-- The direction from the nearest point to the origin. -/
  dir : Vec3 α
  /-- Squared length of `dir`. -/
  distSq : α
  /-- The origin is within reach. -/
  overlapping : Bool

/-- The search, ended after the given number of steps at the latest. -/
def search (a b : Support α) : Nat → State α → State α
  | 0, s => s
  | steps + 1, s =>
    if s.overlapping then s
    else
      let p := SupportPoint.along a b s.dir
      if s.simplex.hasPoint p.diff then s
      else if s.distSq + s.dir.dot p.diff ≤ s.distSq * progress then s
      else
        let simplex := s.simplex ++ [p]
        let (v, weights) := simplex.nearest
        let distSq := v.lengthSq
        if s.distSq ≤ distSq then s
        else
          let (simplex, weights) := simplex.retain weights
          search a b steps {
            simplex, weights, distSq
            dir := -v
            overlapping := decide (distSq < Overlap.containsOriginSq) || simplex.length == 4 }

/-- Where the search starts: at the point of the difference furthest along the main diagonal. -/
def start (a b : Support α) : State α :=
  let first := SupportPoint.along a b (Vec3.splat 1)
  let dir := -first.diff
  let distSq := dir.lengthSq
  { simplex := [first], weights := [1], dir, distSq
    overlapping := decide (distSq < Overlap.containsOriginSq) }

/-- The combination of points with weights. -/
def combine (points : List (Vec3 α)) (weights : List α) : Vec3 α :=
  (points.zip weights).foldl (fun v pw => v + pw.1 * pw.2) Vec3.zero

/-- The nearest points that a state of the search stands for. -/
def ofState (s : State α) : ClosestPoints α where
  pointA := combine (s.simplex.map (·.onA)) s.weights
  pointB := combine (s.simplex.map (·.onB)) s.weights
  distance := if s.overlapping then 0 else Scalar.sqrt s.distSq

/-- The nearest points of two convex sets. -/
def between (a b : Support α) : ClosestPoints α :=
  ofState (search a b Overlap.maxSteps (start a b))

end ClosestPoints

end ConvexCollision
