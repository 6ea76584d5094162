import ConvexCollision.Hit
import ConvexCollision.Removal
import ConvexCollision.Simplex

/-!
# ConvexCollision.Polytope -- how deep two overlapping sets reach into each other

A tetrahedron inside the difference `A - B` is grown, one support point at a time, toward the part
of the boundary of `A - B` that is nearest the origin. Each step takes the nearest face, asks for
the furthest point of the difference along its normal, removes the faces that the point can see and
joins the rim of the hole to it. Growth ends when the nearest face cannot be pushed out any more,
when the new faces would degenerate, or after a fixed number of steps; the nearest face then gives
normal, depth and contact points.
-/

namespace ConvexCollision

variable {α : Type} [Scalar α]

/-- A triangular face, by the numbers of its corners in the point table of a polytope. -/
structure PolytopeFace (α : Type) where
  /-- First corner. -/
  i : Nat
  /-- Second corner. -/
  j : Nat
  /-- Third corner. -/
  k : Nat
  /-- Outward unit normal. -/
  normal : Vec3 α
  /-- Signed distance of the face's plane from the origin, along the normal. -/
  distance : α
deriving DecidableEq, Inhabited

/-- A closed triangulated surface inside a difference of two sets. -/
structure Polytope (α : Type) where
  /-- The points that faces refer to. -/
  points : Array (SupportPoint α)
  /-- The faces, in the order in which they were made. -/
  faces : List (PolytopeFace α)
  /-- A point inside, from which all faces wind away. -/
  interior : Vec3 α

/-- Why no penetration could be found. -/
inductive PenetrationFailure where
  /-- The simplex to start from has fewer than four points. -/
  | flatSimplex (points : Nat)
  /-- A face of the tetrahedron to start from has no area. -/
  | degenerateTetrahedron
  /-- The nearest face has no area to take contact points from. -/
  | degenerateFace
  /-- There is no face at all. -/
  | noFace
deriving DecidableEq

namespace Polytope

/-- The most steps that a polytope is grown. -/
def maxSteps : Nat := 64

/-- A face that can be pushed out by less than this lies on the boundary. -/
def tolerance : α := 0.0001

/-- Squared areas below this are degenerate. -/
def degenerateSq : α := 1e-10

/-- The point with a number, in the point table. -/
@[inline] def point (points : Array (SupportPoint α)) (i : Nat) : SupportPoint α :=
  points.getD i ⟨Vec3.zero, Vec3.zero⟩

/-- The face on three points, wound so that its normal leads away from `interior`; none when the
points span no area. -/
def face? (points : Array (SupportPoint α)) (i j k : Nat) (interior : Vec3 α) :
    Option (PolytopeFace α) :=
  let p := (point points i).diff
  let normal := ((point points j).diff - p).cross ((point points k).diff - p)
  let lengthSq := normal.lengthSq
  if lengthSq < degenerateSq then none
  else
    let normal := normal / Scalar.sqrt lengthSq
    if normal.dot (p - interior) < 0 then
      let normal := -normal
      some ⟨i, k, j, normal, normal.dot p⟩
    else some ⟨i, j, k, normal, normal.dot p⟩

/-- The face nearest the origin, the first of several. -/
def nearestFace? : List (PolytopeFace α) → Option (PolytopeFace α)
  | [] => none
  | f :: rest => some (rest.foldl (fun best f => if f.distance < best.distance then f else best) f)

/-- Records a directed edge of a removed face. When its reverse is already there, both faces on the
edge were removed and it is no longer part of the rim. -/
def addEdge (edges : List (Nat × Nat)) (a b : Nat) : List (Nat × Nat) :=
  match edges.findIdx? (· == (b, a)) with
  | some i => swapRemove edges i
  | none => edges ++ [(a, b)]

/-- The face's plane has the point in front of it. -/
def sees (points : Array (SupportPoint α)) (f : PolytopeFace α) (p : Vec3 α) : Bool :=
  decide (0 < f.normal.dot (p - (point points f.i).diff))

/-- The directed edges around the faces that a point can see. -/
def rim (poly : Polytope α) (p : Vec3 α) : List (Nat × Nat) :=
  (poly.faces.filter fun f => sees poly.points f p).foldl (fun edges f =>
    addEdge (addEdge (addEdge edges f.i f.j) f.j f.k) f.k f.i) []

/-- The polytope with a point added: the faces that see it give way to faces from the rim to it.
Nothing when no face sees the point or a new face would degenerate. -/
def insert? (poly : Polytope α) (p : SupportPoint α) : Option (Polytope α) :=
  let edges := poly.rim p.diff
  if edges.isEmpty then none
  else
    let points := poly.points.push p
    let apex := poly.points.size
    (edges.mapM fun e => face? points e.1 e.2 apex poly.interior).map fun new =>
      { poly with
        points
        faces := (poly.faces.filter fun f => !sees poly.points f p.diff) ++ new }

/-- The polytope grown toward the nearest part of the boundary, for at most the given number of
steps. -/
def expand (a b : Support α) : Nat → Polytope α → Polytope α
  | 0, poly => poly
  | steps + 1, poly =>
    match nearestFace? poly.faces with
    | none => poly
    | some face =>
      let p := SupportPoint.along a b face.normal
      if face.normal.dot p.diff - face.distance < tolerance then poly
      else
        match poly.insert? p with
        | none => poly
        | some poly => expand a b steps poly

/-- The tetrahedron on the first four points of a simplex. -/
def ofSimplex (simplex : Simplex α) : Except PenetrationFailure (Polytope α) :=
  if simplex.length < 4 then .error (.flatSimplex simplex.length)
  else
    let points := simplex.toArray
    let interior := (simplex.foldl (fun sum p => sum + p.diff) Vec3.zero) /
      (Scalar.ofInt simplex.length : α)
    let corners := [(0, 1, 2), (0, 2, 3), (0, 3, 1), (1, 3, 2)]
    match corners.mapM fun (i, j, k) => face? points i j k interior with
    | none => .error .degenerateTetrahedron
    | some faces => .ok { points, faces, interior }

/-- Weights of a point in the plane of a triangle; none when the triangle has no area. -/
def barycentric? (a b c p : Vec3 α) : Option (Vec3 α) :=
  let v₀ := b - a
  let v₁ := c - a
  let v₂ := p - a
  let d₀₀ := v₀.dot v₀
  let d₀₁ := v₀.dot v₁
  let d₁₁ := v₁.dot v₁
  let d₂₀ := v₂.dot v₀
  let d₂₁ := v₂.dot v₁
  let det := d₀₀ * d₁₁ - d₀₁ * d₀₁
  if Scalar.abs det < (degenerateSq : α) * degenerateSq then none
  else
    let v := (d₁₁ * d₂₀ - d₀₁ * d₂₁) / det
    let w := (d₀₀ * d₂₁ - d₀₁ * d₂₀) / det
    some ⟨1 - v - w, v, w⟩

/-- What the face nearest the origin says about the two sets. -/
def hit (poly : Polytope α) : Except PenetrationFailure (Hit α) :=
  match nearestFace? poly.faces with
  | none => .error .noFace
  | some face =>
    let a := point poly.points face.i
    let b := point poly.points face.j
    let c := point poly.points face.k
    match barycentric? a.diff b.diff c.diff (face.normal * face.distance) with
    | none => .error .degenerateFace
    | some w => .ok {
        contactA := a.onA * w.x + b.onA * w.y + c.onA * w.z
        contactB := a.onB * w.x + b.onB * w.y + c.onB * w.z
        normal := face.normal
        penetration := Scalar.maxNum face.distance 0
        time := 0 }

end Polytope

/-- How deep two overlapping sets reach into each other, from a simplex of their difference that
encloses the origin. -/
def penetration (a b : Support α) (simplex : Simplex α) : Except PenetrationFailure (Hit α) :=
  (Polytope.ofSimplex simplex).bind fun poly => (poly.expand a b Polytope.maxSteps).hit

end ConvexCollision
