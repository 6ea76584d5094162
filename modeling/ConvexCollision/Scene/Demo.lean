import ConvexCollision.Scene

/-!
# ConvexCollision.Scene.Demo -- the world that is run when no other is given

A walled arena with a ramp and a pool of water, in it a stack of boxes, a grid of falling balls, a
bullet fired at a wall, barrels of three densities above the pool, a capsule above the ramp and a
goal.
-/

namespace ConvexCollision.Demo

variable {α : Type} [Scalar α]

/-! ## Static geometry -/

/-- A quad of one surface on some layers. Seen from the side that it faces, its corners wind counter
clockwise. -/
structure Quad (α : Type) where
  /-- First corner. -/
  a : Vec3 α
  /-- Second corner. -/
  b : Vec3 α
  /-- Third corner. -/
  c : Vec3 α
  /-- Fourth corner. -/
  d : Vec3 α
  /-- What it is made of. -/
  surface : Surface
  /-- The layers on which it is met. -/
  layers : Layers

/-- The two triangles of a quad whose first corner has a number. -/
def Quad.triangles (q : Quad α) (first : Nat) : List MeshTriangle :=
  let corner (i : Nat) : UInt16 := UInt16.ofNat (first + i)
  [{ indices := (corner 0, corner 1, corner 2), surface := q.surface, layers := q.layers },
   { indices := (corner 0, corner 2, corner 3), surface := q.surface, layers := q.layers }]

/-- The mesh of some quads. -/
def meshOf (quads : List (Quad α)) : Except CollisionError (Mesh α) :=
  Mesh.build (quads.flatMap fun q => [q.a, q.b, q.c, q.d]).toArray
    (quads.zipIdx.flatMap fun (q, i) => q.triangles (4 * i)).toArray

/-- Half the side of the arena. -/
def arenaHalfSize : α := 20

/-- Height of the walls. -/
def wallHeight : α := 6

/-- A solid quad. -/
def solid (a b c d : Vec3 α) : Quad α := ⟨a, b, c, d, .default, Layers.all⟩

/-- The ground, the four walls, which face inward, and an icy ramp that rises toward the positive
x axis. -/
def arena : List (Quad α) :=
  let s : α := arenaHalfSize
  let h : α := wallHeight
  [solid ⟨-s, 0, -s⟩ ⟨-s, 0, s⟩ ⟨s, 0, s⟩ ⟨s, 0, -s⟩,
   solid ⟨s, 0, -s⟩ ⟨s, 0, s⟩ ⟨s, h, s⟩ ⟨s, h, -s⟩,
   solid ⟨-s, 0, s⟩ ⟨-s, 0, -s⟩ ⟨-s, h, -s⟩ ⟨-s, h, s⟩,
   solid ⟨s, 0, s⟩ ⟨-s, 0, s⟩ ⟨-s, h, s⟩ ⟨s, h, s⟩,
   solid ⟨-s, 0, -s⟩ ⟨s, 0, -s⟩ ⟨s, h, -s⟩ ⟨-s, h, -s⟩,
   ⟨⟨-15, 0, 5⟩, ⟨-15, 0, 12⟩, ⟨-5, 3, 12⟩, ⟨-5, 3, 5⟩, .slippery, Layers.all⟩]

/-- The surface of the water, on no layer: it is only seen from above. -/
def pool : List (Quad α) :=
  [⟨⟨10, 1.5, -8⟩, ⟨10, 1.5, 0⟩, ⟨18, 1.5, 0⟩, ⟨18, 1.5, -8⟩, .water, Layers.empty⟩]

/-! ## Objects -/

/-- A type of object on ordinary slopes. -/
def typeOf (shape : Shape α) (bounce friction : α) : ObjectType α := ⟨shape, bounce, friction, 0.25⟩

/-- A solid object at rest. -/
def resting (type : ObjectType α) (position : Vec3 α) (rotation : Option (Rotation α) := none) :
    DynamicObject α :=
  DynamicObject.create EntityId.none type Layers.tangible position rotation

/-- Five boxes, each a little above the one below it and every other one a little aside. -/
def boxStack : List (DynamicObject α) :=
  let type : ObjectType α := typeOf (.box (Vec3.splat 0.5)) 0 0.5
  (List.range 5).map fun (y : Nat) =>
    let aside : α := if y % 2 = 0 then 0 else 0.15
    resting type ⟨aside, 0.52 + Scalar.ofInt y * 1.04, aside⟩

/-- Four rows of four light balls in the air. -/
def balls : List (DynamicObject α) :=
  let type : ObjectType α := typeOf (.sphere 0.5) 0.5 0.1
  (List.range 4).flatMap fun (x : Nat) => (List.range 4).map fun (z : Nat) =>
    { resting type ⟨-8 + Scalar.ofInt x * 1.5, 8, -8 + Scalar.ofInt z * 1.5⟩ with weight := .light }

/-- A ball so fast that it would pass through a wall between two ticks. -/
def bullet : DynamicObject α :=
  { resting (typeOf (.sphere 0.25) 0.5 0) ⟨0, 3, -10⟩ with velocity := ⟨300, 0, 0⟩ }

/-- Three barrels above the water, of three densities. -/
def barrels : List (DynamicObject α) :=
  let type : ObjectType α := typeOf (.cylinder 0.4 0.6) 0 0.2
  [Density.light, .neutral, .heavy].zipIdx.map fun (density, i) =>
    { resting type ⟨12 + Scalar.ofInt i * 2, 4, -4⟩ with density }

/-- A capsule above the ramp. -/
def slider : DynamicObject α :=
  resting (typeOf (.capsule 0.3 0.4) 0 0.3) ⟨-6, 4.5, 8⟩ (some (Rotation.ofAngle 0.5))

/-- The objects, numbered from one. -/
def objects : List (DynamicObject α) :=
  (boxStack ++ balls ++ [bullet] ++ barrels ++ [slider]).mapIdx fun i (o : DynamicObject α) =>
    { o with id := ⟨UInt32.ofNat (i + 1)⟩ }

/-- The goal, numbered after the objects. -/
def goal (id : EntityId) : SpatialTrigger α :=
  SpatialTrigger.create id (.box ⟨2, 1, 2⟩) Layers.tangible ⟨-12, 1, 8.5⟩
    (some (Rotation.ofAngle 0.3))

/-- The demonstration world. -/
def world (config : Config α) : Except BuildFailure (World α) := do
  let arena ← BuildFailure.ofRefusal (meshOf arena)
  let pool ← BuildFailure.ofRefusal (meshOf pool)
  let w ← (World.new config).addMeshes [arena, pool]
  let w ← w.addObjects objects
  w.addTriggers [goal ⟨UInt32.ofNat (w.elements.size + 1)⟩]

end ConvexCollision.Demo
