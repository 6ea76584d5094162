import ConvexCollision.Vector

/-!
# ConvexCollision.Simplex.Projection -- the point of a simplex nearest the origin

Given one to four points, `barycentric` returns the weights of the point of their hull that is
nearest the origin. A segment is projected along its longest axis, a triangle along the axis on
which its shadow is largest, and a tetrahedron is tested by signed volumes; a projection that falls
outside is replaced by the nearest of the edges, or of the faces. Where points coincide, or lie on
one line or in one plane, up to a fixed threshold, the lower-dimensional case takes over, so no
quotient has a denominator below the threshold.
-/

namespace ConvexCollision

variable {α : Type} [Scalar α]

namespace Projection

/-- Squared lengths, squared areas and volumes at or below this count as degenerate. -/
def degenerate : α := 1e-12

/-- Both numbers are strictly positive or both strictly negative. -/
@[inline] def sameSign (a b : α) : Bool :=
  (decide (0 < a) && decide (0 < b)) || (decide (a < 0) && decide (b < 0))

/-- The axis on which a quantity has the largest square, and the quantity there. The first of equal
squares wins; where every square is zero the axis is the first one and the quantity zero. -/
@[inline] def dominant (f : Axis → α) : Axis × α :=
  Axis.all.foldl (fun (best : Axis × α) i =>
    let m := f i
    if best.2 * best.2 < m * m then (i, m) else best) (.x, 0)

/-- Weights of the point of the segment from `s₁` to `s₂` nearest the origin. -/
def segment (s₁ s₂ : Vec3 α) : Vec2 α :=
  let ab := s₂ - s₁
  let lengthSq := ab.lengthSq
  if lengthSq < degenerate then ⟨1, 0⟩
  else
    let toOrigin := Vec3.zero - s₁
    let foot := s₁ + ab * ab.dot toOrigin / lengthSq
    let (axis, span) := dominant fun i => s₂.coord i - s₁.coord i
    let a := s₁.coord axis
    let b := s₂.coord axis
    let p := foot.coord axis
    if (a < p ∧ p < b) ∨ (b < p ∧ p < a) then ⟨(b - p) / span, (p - a) / span⟩
    else if (a ≤ b ∧ p ≤ a) ∨ (b ≤ a ∧ a ≤ p) then ⟨1, 0⟩
    else ⟨0, 1⟩

/-- Among weighted candidates, the first whose point is nearest the origin; `start` when none is
nearer than the largest finite distance. -/
@[inline] def nearestOf {ω : Type} (start : ω) (candidates : List (ω × Vec3 α)) : ω :=
  (candidates.foldl (fun (best : ω × α) candidate =>
    let d := candidate.2.lengthSq
    if d < best.2 then (candidate.1, d) else best) (start, Scalar.maxFinite)).1

/-- Weights of the point of the triangle's three edges nearest the origin. Edges are tried in the
order opposite `s₁`, `s₂`, `s₃`. -/
def edges (s₁ s₂ s₃ : Vec3 α) : Vec3 α :=
  let e₁ := segment s₂ s₃
  let e₂ := segment s₃ s₁
  let e₃ := segment s₁ s₂
  nearestOf ⟨1, 0, 0⟩
    [(⟨0, e₁.x, e₁.y⟩, s₂ * e₁.x + s₃ * e₁.y),
     (⟨e₂.y, 0, e₂.x⟩, s₃ * e₂.x + s₁ * e₂.y),
     (⟨e₃.x, e₃.y, 0⟩, s₁ * e₃.x + s₂ * e₃.y)]

/-- The vector seen along an axis: its coordinates on the next two axes around. -/
@[inline] def shadow (v : Vec3 α) (axis : Axis) : Vec2 α :=
  ⟨v.coord axis.next, v.coord axis.next.next⟩

/-- Weights of the point of the triangle nearest the origin. -/
def triangle (s₁ s₂ s₃ : Vec3 α) : Vec3 α :=
  let normal := (s₂ - s₁).cross (s₃ - s₁)
  let normalSq := normal.lengthSq
  if normalSq < degenerate then edges s₁ s₂ s₃
  else
    let foot := normal * s₁.dot normal / normalSq
    let (axis, area) := dominant fun i =>
      let a := shadow s₁ i
      (shadow s₂ i - a).cross (shadow s₃ i - a)
    let p := shadow foot axis
    let t₁ := shadow s₁ axis - p
    let t₂ := shadow s₂ axis - p
    let t₃ := shadow s₃ axis - p
    let a₁ := t₂.cross t₃
    let a₂ := t₃.cross t₁
    let a₃ := t₁.cross t₂
    if sameSign area a₁ && sameSign area a₂ && sameSign area a₃ then ⟨a₁ / area, a₂ / area, a₃ / area⟩
    else edges s₁ s₂ s₃

/-- Weights on four points. -/
structure Vec4 (α : Type) where
  /-- Weight of the first point. -/
  x : α
  /-- Weight of the second point. -/
  y : α
  /-- Weight of the third point. -/
  z : α
  /-- Weight of the fourth point. -/
  w : α

/-- Determinant of the matrix whose rows are three points: six times the signed volume that they
span with the origin. -/
@[inline] def volume (p q r : Vec3 α) : α :=
  Vec3.dot ⟨p.z, q.z, r.z⟩ (Vec3.cross ⟨p.x, q.x, r.x⟩ ⟨p.y, q.y, r.y⟩)

/-- Weights of the point of the tetrahedron nearest the origin. Faces are tried in the order
opposite `s₄`, `s₁`, `s₂`, `s₃`. -/
def tetrahedron (s₁ s₂ s₃ s₄ : Vec3 α) : Vec4 α :=
  let c₁ := -volume s₂ s₃ s₄
  let c₂ := volume s₁ s₃ s₄
  let c₃ := -volume s₁ s₂ s₄
  let c₄ := volume s₁ s₂ s₃
  let det := c₁ + c₂ + c₃ + c₄
  if degenerate < Scalar.abs det ∧
      (sameSign det c₁ && sameSign det c₂ && sameSign det c₃ && sameSign det c₄) = true then
    let perDet := 1 / det
    ⟨c₁ * perDet, c₂ * perDet, c₃ * perDet, c₄ * perDet⟩
  else
    let f₄ := triangle s₁ s₂ s₃
    let f₁ := triangle s₂ s₃ s₄
    let f₂ := triangle s₃ s₄ s₁
    let f₃ := triangle s₄ s₁ s₂
    nearestOf ⟨0, 0, 0, 0⟩
      [(⟨f₄.x, f₄.y, f₄.z, 0⟩, s₁ * f₄.x + s₂ * f₄.y + s₃ * f₄.z),
       (⟨0, f₁.x, f₁.y, f₁.z⟩, s₂ * f₁.x + s₃ * f₁.y + s₄ * f₁.z),
       (⟨f₂.z, 0, f₂.x, f₂.y⟩, s₃ * f₂.x + s₄ * f₂.y + s₁ * f₂.z),
       (⟨f₃.y, f₃.z, 0, f₃.x⟩, s₄ * f₃.x + s₁ * f₃.y + s₂ * f₃.z)]

/-- Weights, one for each point, of the point of the hull nearest the origin. Points after the
fourth are not looked at. -/
def barycentric : List (Vec3 α) → List α
  | [] => []
  | [_] => [1]
  | [a, b] => let w := segment a b; [w.x, w.y]
  | [a, b, c] => let w := triangle a b c; [w.x, w.y, w.z]
  | a :: b :: c :: d :: _ => let w := tetrahedron a b c d; [w.x, w.y, w.z, w.w]

end Projection

end ConvexCollision
