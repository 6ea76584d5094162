import ConvexCollision.Vector

/-!
# ConvexCollision.Bounds -- axis-aligned boxes

A box is its two corners. The empty box has its corners the wrong way round, each at the far end of
the finite range, so that inserting a first point gives the box of that point. Boxes are closed:
boxes that only touch meet.
-/

namespace ConvexCollision

/-- An axis-aligned box. -/
structure Bounds (α : Type) where
  /-- The corner with the smallest coordinates. -/
  mins : Vec3 α
  /-- The corner with the largest coordinates. -/
  maxs : Vec3 α
deriving DecidableEq, Inhabited

namespace Bounds

variable {α : Type} [Scalar α]

/-- The box of no point. -/
def empty : Bounds α := ⟨Vec3.splat Scalar.maxFinite, Vec3.splat (-Scalar.maxFinite)⟩

/-- The box around a centre, reaching `half` to both sides on each axis. -/
def ofCenter (center half : Vec3 α) : Bounds α := ⟨center - half, center + half⟩

/-- Each coordinate of `p` where it is below that of `a`, and of `a` elsewhere. -/
@[inline] def lower (a p : Vec3 α) : Vec3 α :=
  ⟨if p.x < a.x then p.x else a.x, if p.y < a.y then p.y else a.y, if p.z < a.z then p.z else a.z⟩

/-- Each coordinate of `p` where it is above that of `a`, and of `a` elsewhere. -/
@[inline] def upper (a p : Vec3 α) : Vec3 α :=
  ⟨if a.x < p.x then p.x else a.x, if a.y < p.y then p.y else a.y, if a.z < p.z then p.z else a.z⟩

/-- The box grown just enough to hold a point. -/
def insert (b : Bounds α) (p : Vec3 α) : Bounds α := ⟨lower b.mins p, upper b.maxs p⟩

/-- The box of a list of points. -/
def ofPoints (ps : List (Vec3 α)) : Bounds α := ps.foldl insert empty

/-- Some maximum is below its minimum. -/
def isEmpty (b : Bounds α) : Bool := b.maxs.anyLt b.mins

/-- The boxes share a point on each axis. -/
def intersects (a b : Bounds α) : Bool := !(a.maxs.anyLt b.mins || b.maxs.anyLt a.mins)

/-- The point lies in the box or on its surface. -/
def contains (b : Bounds α) (p : Vec3 α) : Bool := b.mins.allLe p && p.allLe b.maxs

/-- The box grown by both corners of another one. -/
def union (a b : Bounds α) : Bounds α := (a.insert b.mins).insert b.maxs

/-- The box grown so that it also covers itself moved by `dir`. -/
def extendDirection (b : Bounds α) (dir : Vec3 α) : Bounds α :=
  ⟨b.mins + ⟨Scalar.minNum dir.x 0, Scalar.minNum dir.y 0, Scalar.minNum dir.z 0⟩,
   b.maxs + ⟨Scalar.maxNum dir.x 0, Scalar.maxNum dir.y 0, Scalar.maxNum dir.z 0⟩⟩

/-- The box moved by an offset. -/
def translate (b : Bounds α) (offset : Vec3 α) : Bounds α := ⟨b.mins + offset, b.maxs + offset⟩

/-- The middle of the box. -/
def center (b : Bounds α) : Vec3 α := (b.mins + b.maxs) * (0.5 : α)

/-- The extent of the box on each axis. -/
def width (b : Bounds α) : Vec3 α := b.maxs - b.mins

/-- Equality of value, corner by corner. -/
def same (a b : Bounds α) : Bool := a.mins.same b.mins && a.maxs.same b.maxs

end Bounds

end ConvexCollision
