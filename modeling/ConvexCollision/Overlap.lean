import ConvexCollision.Simplex

/-!
# ConvexCollision.Overlap -- do two convex sets share a point?

The search keeps a simplex inside the difference `A - B` and moves it toward the origin: it asks for
the furthest point of the difference in the direction from the simplex to the origin, adds it, and
drops the points that do not matter for the nearest point of the hull. It ends without overlap when
the furthest point repeats, stays short of the origin, or brings no progress, and with overlap when
the hull comes within a fixed distance of the origin or a full tetrahedron encloses it.
-/

namespace ConvexCollision.Overlap

variable {α : Type} [Scalar α]

/-- The number of search steps after which the sets count as apart. -/
def maxSteps : Nat := 32

/-- A hull nearer to the origin than this, squared, contains it. -/
def containsOriginSq : α := (0.0001 : α) * 0.0001

/-- The search from a simplex, the direction to the origin, and the squared distance reached so
far. The result is the simplex at which overlap was found, before it is completed. -/
def search (a b : Support α) : Nat → Simplex α → Vec3 α → α → Option (Simplex α)
  | 0, _, _, _ => none
  | steps + 1, simplex, dir, closest =>
    let p := SupportPoint.along a b dir
    -- a repeated point: the simplex cannot get any closer
    if simplex.hasPoint p.diff then none
    -- a point short of the origin: the difference lies in an open half space
    else if dir.dot p.diff < 0 then none
    else
      let simplex := simplex ++ [p]
      let (v, weights) := simplex.nearest
      let distSq := v.lengthSq
      if distSq < containsOriginSq then some simplex
      else if closest ≤ distSq then none
      else
        let simplex := (simplex.retain weights).1
        if simplex.length = 4 then some simplex
        else search a b steps simplex (-v) distSq

/-- The simplex of one point from which a search starts. A first direction that is too short is
replaced by the x axis. -/
def start (a b : Support α) (firstDirection : Vec3 α) : SupportPoint α :=
  SupportPoint.along a b
    (if Simplex.degenerateSq < firstDirection.lengthSq then firstDirection else Vec3.unitX)

/-- The final simplex, completed toward a tetrahedron, when the two sets overlap. -/
def find? (a b : Support α) (firstDirection : Vec3 α) : Option (Simplex α) :=
  let first := start a b firstDirection
  let dir := -first.diff
  let found :=
    if dir.lengthSq < containsOriginSq then some [first]
    else search a b maxSteps [first] dir Scalar.maxFinite
  found.map (Simplex.completeTetrahedron a b)

/-- The two sets overlap. -/
def holds (a b : Support α) (firstDirection : Vec3 α) : Bool := (find? a b firstDirection).isSome

end ConvexCollision.Overlap
