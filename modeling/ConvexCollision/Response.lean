import ConvexCollision.Object

/-!
# ConvexCollision.Response -- what a contact does to the parties

A contact takes the part of a velocity that leads into the surface away, throws some of it back, and
slows what slides along the surface. Of two objects, the share of the separation that each one takes
depends on whether it is fixed, on the weight classes, and on whether either is a trigger.
-/

namespace ConvexCollision

variable {α : Type} [Scalar α]

/-- The velocity after a contact: the part into the surface is reflected, scaled by `bounce`, and
the rest is scaled by `1 - friction`. A velocity that leaves the surface is kept. -/
def correctVelocity (velocity normal : Vec3 α) (bounce friction : α) : Vec3 α :=
  let into := velocity.dot normal
  if 0 ≤ into then velocity
  else (velocity - normal * into) * (1 - friction) - normal * (into * bounce)

/-- The velocity after a contact without friction, reached by one correction along the normal. -/
def bounceVelocity (velocity normal : Vec3 α) (bounce : α) : Vec3 α :=
  let into := velocity.dot normal
  if into < 0 then velocity - normal * (into * (1 + bounce)) else velocity

namespace DynamicObject

/-- The object after a contact with its own bounce and the friction in force. -/
def respond (o : DynamicObject α) (normal : Vec3 α) : DynamicObject α :=
  { o with velocity := correctVelocity o.velocity normal o.type.bounce o.friction }

/-- The object after losing its velocity into a surface. -/
def stopInto (o : DynamicObject α) (normal : Vec3 α) : DynamicObject α :=
  { o with velocity := correctVelocity o.velocity normal 0 0 }

/-- The object after losing its velocity along a normal, in either direction. -/
def stopAlong (o : DynamicObject α) (normal : Vec3 α) : DynamicObject α :=
  { o with velocity := o.velocity - normal * o.velocity.dot normal }

/-- Two registered objects are tested against each other at all. -/
def shouldCollide (a b : DynamicObject α) : Bool :=
  if a.id.isNone || b.id.isNone then false
  else if !a.layers.intersects b.layers then false
  else if a.group != 0 && a.group == b.group then false
  else if a.isTrigger && (b.isTrigger || b.isFixed) then false
  else if b.isTrigger && a.isFixed then false
  else !(a.isFixed && b.isFixed)

/-- The part of a separation that each of two objects takes. -/
def pushShares (a b : DynamicObject α) : α × α :=
  if !a.shouldPush || !b.shouldPush then (0, 0)
  else
    match a.isFixed, b.isFixed with
    | true, true => (0, 0)
    | true, false => (0, 1)
    | false, true => (1, 0)
    | false, false =>
      if b.weight.rank < a.weight.rank then (0, 1)
      else if a.weight.rank < b.weight.rank then (1, 0)
      else (0.5, 0.5)

/-- The object moved farther than half its own size on some axis, so far that a test at its new
place could miss thin geometry. -/
def needsSweep (o : DynamicObject α) (previous : Vec3 α) : Bool :=
  let half := o.box.width * (0.5 : α)
  let moved := (o.position - previous).abs
  half.anyLt moved

end DynamicObject

end ConvexCollision
