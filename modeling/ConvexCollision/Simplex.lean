import ConvexCollision.Shape
import ConvexCollision.Simplex.Projection

/-!
# ConvexCollision.Simplex -- up to four points of a difference of two sets

The collision search looks at the difference `A - B` of two convex sets, which holds the origin
exactly when the sets share a point. A `SupportPoint` is a point of the difference together with the
point of `A` that gave it; a `Simplex` is the list of those that the search currently holds.
-/

namespace ConvexCollision

variable {α : Type} [Scalar α]

/-- A point of the difference `A - B` and the point of `A` behind it. -/
structure SupportPoint (α : Type) where
  /-- The point of the difference. -/
  diff : Vec3 α
  /-- The point of `A`. -/
  onA : Vec3 α
deriving DecidableEq, Inhabited

namespace SupportPoint

/-- The point of `B` behind a point of the difference. -/
def onB (p : SupportPoint α) : Vec3 α := p.onA - p.diff

/-- The point of the difference furthest along `dir`. -/
def along (a b : Support α) (dir : Vec3 α) : SupportPoint α :=
  let onA := a dir
  let onB := b (-dir)
  ⟨onA - onB, onA⟩

end SupportPoint

/-- The points that a search holds, oldest first. -/
abbrev Simplex (α : Type) := List (SupportPoint α)

namespace Simplex

/-- Points nearer than this, squared, are one point. -/
def duplicateSq : α := (1e-6 : α) * 1e-6

/-- Squared lengths below this give no direction. -/
def degenerateSq : α := 1e-12

/-- The simplex already holds this point of the difference. -/
def hasPoint (s : Simplex α) (diff : Vec3 α) : Bool :=
  s.any fun p => decide ((p.diff - diff).lengthSq < duplicateSq)

/-- The point of the hull nearest the origin, and its weights. -/
def nearest (s : Simplex α) : Vec3 α × List α :=
  let weights := Projection.barycentric (s.map (·.diff))
  ((s.zip weights).foldl (fun v pw => v + pw.1.diff * pw.2) Vec3.zero, weights)

/-- The points with a weight other than zero, with those weights. -/
def retain (s : Simplex α) (weights : List α) : Simplex α × List α :=
  ((s.zip weights).filter fun pw => !Scalar.same pw.2 0).unzip

/-- The simplex with the support point along `dir`, or else along `-dir`; nothing when both repeat a
point that it holds. A direction that is too short is skipped. -/
def pushUnique? (a b : Support α) (s : Simplex α) (dir : Vec3 α) : Option (Simplex α) :=
  [dir, -dir].findSome? fun d =>
    if d.lengthSq < degenerateSq then none
    else
      let p := SupportPoint.along a b d
      if s.hasPoint p.diff then none else some (s ++ [p])

/-- A second point for a simplex of one, away from it across the origin. -/
def widenPoint? (a b : Support α) : Simplex α → Option (Simplex α)
  | [p] =>
    let dir := if degenerateSq < p.diff.lengthSq then -p.diff else Vec3.unitX
    pushUnique? a b [p] dir
  | s => some s

/-- A third point for a simplex of two, off their line. -/
def widenSegment? (a b : Support α) : Simplex α → Option (Simplex α)
  | [p, q] =>
    let ab := q.diff - p.diff
    let across := ab.anyOrthogonal
    (pushUnique? a b [p, q] across).or (pushUnique? a b [p, q] (across.cross ab))
  | s => some s

/-- A fourth point for a simplex of three, off their plane, if there is one. -/
def widenTriangle (a b : Support α) : Simplex α → Simplex α
  | [p, q, r] =>
    let normal := (q.diff - p.diff).cross (r.diff - p.diff)
    (pushUnique? a b [p, q, r] normal).getD [p, q, r]
  | s => s

/-- The simplex grown toward a tetrahedron by searching away from the points that it holds. The
growth stops early where the difference of the sets is flat. -/
def completeTetrahedron (a b : Support α) (s : Simplex α) : Simplex α :=
  match widenPoint? a b s with
  | none => s
  | some s =>
    match widenSegment? a b s with
    | none => s
    | some s => widenTriangle a b s

end Simplex

end ConvexCollision
