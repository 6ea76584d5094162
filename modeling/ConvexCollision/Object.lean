import ConvexCollision.Contact
import ConvexCollision.Placement

/-!
# ConvexCollision.Object -- the things that move

A dynamic object is a shape with a place, a velocity and the state that the rest of a tick leaves on
it: counters of recent events, the list of its contacts, and the contact with the ground below. The
box is cached: `recalcBox` brings it up to date, and a tick does so after moving the object.
-/

namespace ConvexCollision

/-- What several objects may have in common. -/
structure ObjectType (α : Type) where
  /-- The solid. -/
  shape : Shape α
  /-- The part of the speed into a surface that is thrown back. -/
  bounce : α
  /-- The part of the speed along a surface that is lost. -/
  friction : α
  /-- One minus the cosine of the steepest slope on which the object is stable. -/
  maxStableSlope : α
deriving DecidableEq

/-- A thing that moves, or that things bump into. -/
structure DynamicObject (α : Type) where
  /-- Its identity. -/
  id : EntityId
  /-- What it has in common with others. -/
  type : ObjectType α
  /-- Where it is. -/
  position : Vec3 α
  /-- How it is turned about the vertical axis. -/
  rotation : Option (Rotation α)
  /-- How it is turned about its x axis, before the yaw. -/
  pitch : Option (Rotation α)
  /-- How much the shape is enlarged. -/
  scale : α
  /-- Where the shape is, in the object's own frame. -/
  center : Vec3 α
  /-- Its velocity. -/
  velocity : Vec3 α
  /-- Its box in the world, as last computed. -/
  box : Bounds α
  /-- How fast time passes for it. -/
  timeScalar : α
  /-- State bits. -/
  flags : ObjectFlags
  /-- How it takes part in collisions. -/
  triggerType : TriggerType
  /-- The layers on which it is met. -/
  layers : Layers
  /-- Objects of one group, other than zero, pass through each other. -/
  group : UInt16
  /-- How strongly water lifts it. -/
  density : Density
  /-- Whom it pushes. -/
  weight : Weight
  /-- Ticks for which it counts as pushed. -/
  isPushed : UInt8
  /-- Ticks for which it counts as jumping. -/
  isJumping : UInt8
  /-- Ticks for which it slides without friction. -/
  disableFriction : UInt8
  /-- Ticks for which it counts as under water. -/
  underWater : UInt8
  /-- Ticks for which it can walk on water. -/
  hasIceDash : UInt8
  /-- The list of its contacts. -/
  activeContacts : Option ContactId
  /-- The contact with the surface below. -/
  shadowContact : Option ContactId
deriving DecidableEq

variable {α : Type} [Scalar α]

namespace ObjectType

/-- The flattest contact normal, at most, that still counts as ground. -/
def maxGroundThreshold : α := 0.3

/-- A contact whose normal rises more than this carries the object. -/
def groundThreshold (t : ObjectType α) : α := Scalar.minNum (1 - t.maxStableSlope) maxGroundThreshold

/-- An object with this limit slides on a surface. -/
def shouldSlide (maxStableSlope normalY : α) : Surface → Bool
  | .sticky => false
  | .slippery => true
  | _ => decide (normalY < 1 - maxStableSlope)

end ObjectType

/-- The scale of the lift in water, relative to gravity. -/
def Density.buoyancyDivisor : Density → α
  | .light => 0.3
  | .medium => 0.6
  | .neutral => 1
  | .heavy => 1.4

/-- One less, but not below zero. -/
def countDown (n : UInt8) : UInt8 := if n = 0 then 0 else n - 1

namespace DynamicObject

/-- A counter set to this lasts for the tick that follows. -/
def oneTick : UInt8 := 2

/-- Never moved. -/
def isFixed (o : DynamicObject α) : Bool := o.flags.contains ObjectFlags.fixed

/-- Of any trigger type. -/
def isTrigger (o : DynamicObject α) : Bool := o.triggerType != .none

/-- Wants normals with its contacts. -/
def needsOverlap (o : DynamicObject α) : Bool := o.triggerType != .basic

/-- Takes part in pushing. -/
def shouldPush (o : DynamicObject α) : Bool := o.triggerType == .none

/-- The support function: shape, scale, offset, pitch, yaw and position, from the inside out. -/
def support (o : DynamicObject α) : Support α := fun dir =>
  let dir := match o.rotation with
    | some r => r.yawToLocal dir
    | none => dir
  let dir := match o.pitch with
    | some r => r.pitchToLocal dir
    | none => dir
  let p := o.type.shape.support dir * o.scale + o.center
  let p := match o.pitch with
    | some r => r.pitchToWorld p
    | none => p
  let p := match o.rotation with
    | some r => r.yawToWorld p
    | none => p
  p + o.position

/-- The box that the object's fields stand for. A pitched object takes each bound from its support
along that half axis, any other one from the box of its shape. -/
def currentBox (o : DynamicObject α) : Bounds α :=
  match o.pitch with
  | some _ =>
    ⟨⟨(o.support (-Vec3.unitX)).x, (o.support (-Vec3.unitY)).y, (o.support (-Vec3.unitZ)).z⟩,
     ⟨(o.support Vec3.unitX).x, (o.support Vec3.unitY).y, (o.support Vec3.unitZ).z⟩⟩
  | none =>
    let box := o.type.shape.boundingBox o.rotation
    let center := match o.rotation with
      | some r => r.yawToWorld o.center
      | none => o.center
    let offset := o.position + center
    ⟨box.mins * o.scale + offset, box.maxs * o.scale + offset⟩

/-- The object with its box up to date. -/
def recalcBox (o : DynamicObject α) : DynamicObject α := { o with box := o.currentBox }

/-- A solid object at rest, under gravity. -/
def create (id : EntityId) (type : ObjectType α) (layers : Layers) (position : Vec3 α)
    (rotation : Option (Rotation α)) : DynamicObject α :=
  recalcBox {
    id, type, position, rotation, layers
    pitch := none, scale := 1, center := Vec3.zero, velocity := Vec3.zero, box := Bounds.empty
    timeScalar := 1, flags := ObjectFlags.gravity, triggerType := .none, group := 0
    density := .neutral, weight := .medium
    isPushed := 0, isJumping := 0, disableFriction := 0, underWater := 0, hasIceDash := 0
    activeContacts := none, shadowContact := none }

/-- The object with another type. -/
def setType (o : DynamicObject α) (type : ObjectType α) : DynamicObject α :=
  recalcBox { o with type }

/-- The object at another scale. -/
def setScale (o : DynamicObject α) (scale : α) : DynamicObject α := recalcBox { o with scale }

/-- The object with another shape; its box is left as it was. -/
def setShape (o : DynamicObject α) (shape : Shape α) : DynamicObject α :=
  { o with type := { o.type with shape } }

/-- The object and its cached box moved together. -/
def move (o : DynamicObject α) (offset : Vec3 α) : DynamicObject α :=
  { o with position := o.position + offset, box := o.box.translate offset }

/-- One tick of free motion: velocity moves the object, then gravity accelerates it. Fixed objects
and triggers stay. -/
def integrate (o : DynamicObject α) (dt gravity : α) : DynamicObject α :=
  if o.isFixed || o.isTrigger then o
  else
    let dt := dt * o.timeScalar
    let o := { o with position := o.position + o.velocity * dt }
    if o.flags.contains ObjectFlags.gravity then
      { o with velocity := { o.velocity with y := o.velocity.y + dt * gravity } }
    else o

/-- Every counter one tick on. -/
def tickCounters (o : DynamicObject α) : DynamicObject α :=
  { o with
    isPushed := countDown o.isPushed
    isJumping := countDown o.isJumping
    disableFriction := countDown o.disableFriction
    underWater := countDown o.underWater
    hasIceDash := countDown o.hasIceDash }

/-- Marks the object as pushed. -/
def markPushed (o : DynamicObject α) : DynamicObject α := { o with isPushed := oneTick }

/-- Marks the object as jumping. -/
def markJumping (o : DynamicObject α) : DynamicObject α := { o with isJumping := oneTick }

/-- Lets the object slide without friction. -/
def markDisableFriction (o : DynamicObject α) : DynamicObject α := { o with disableFriction := oneTick }

/-- Marks the object as under water. -/
def markUnderWater (o : DynamicObject α) : DynamicObject α := { o with underWater := oneTick }

/-- Lets the object walk on water. -/
def markIceDash (o : DynamicObject α) : DynamicObject α := { o with hasIceDash := oneTick }

/-- The friction in force. -/
def friction (o : DynamicObject α) : α := if 0 < o.disableFriction then 0 else o.type.friction

/-- The contact that carries the object: the flattest of those flat enough, the first in the list on
a tie, or else the surface below when it is near enough. -/
def ground? (o : DynamicObject α) (pool : ContactPool α) (tolerance : α) : Option ContactId :=
  let threshold := o.type.groundThreshold
  let flattest := (pool.toList o.activeContacts).foldl (fun (best : Option (ContactId × α)) id =>
    let rise := (pool.get id).normal.y
    let isFlatter := match best with
      | some (_, most) => decide (most < rise)
      | none => true
    if decide (threshold < rise) && isFlatter then some (id, rise) else best) none
  match flattest with
  | some (id, _) => some id
  | none =>
    match o.shadowContact with
    | none => none
    | some id =>
      let shadow := pool.get id
      if threshold < shadow.normal.y ∧ o.box.mins.y - tolerance ≤ shadow.point.y then some id else none

/-- Something carries the object. -/
def isGrounded (o : DynamicObject α) (pool : ContactPool α) (tolerance : α) : Bool :=
  (o.ground? pool tolerance).isSome

/-- The first contact with another entity. -/
def findContact? (o : DynamicObject α) (pool : ContactPool α) (other : EntityId) : Option ContactId :=
  (pool.toList o.activeContacts).find? fun id => (pool.get id).other == other

/-- The contact nearest a position. -/
def nearestContact? (o : DynamicObject α) (pool : ContactPool α) (position : Vec3 α) :
    Option ContactId :=
  pool.nearest? o.activeContacts position

end DynamicObject

end ConvexCollision
