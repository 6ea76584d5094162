import ConvexCollision.Vector

/-!
# ConvexCollision.Hit -- how two convex sets touch
-/

namespace ConvexCollision

/-- A contact of two sets `A` and `B`. -/
structure Hit (α : Type) where
  /-- The contact point on `A`. -/
  contactA : Vec3 α
  /-- The contact point on `B`. -/
  contactB : Vec3 α
  /-- Unit vector from `A` toward `B`: moving `B` by `normal * penetration` separates the sets. -/
  normal : Vec3 α
  /-- How deep the sets overlap along the normal. -/
  penetration : α
  /-- The fraction of the motion of `B` completed at the contact; zero for sets at rest. -/
  time : α
deriving DecidableEq, Inhabited

end ConvexCollision
