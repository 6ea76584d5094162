import ConvexCollision.BroadPhase
import ConvexCollision.Resolve.Geometry
import ConvexCollision.Water
import ConvexCollision.World

/-!
# ConvexCollision.World.Tick -- one fixed step of a world

A tick has four parts. Every element gives its contacts back and moves freely (`start`). Pairs whose
boxes overlap are resolved, a fast object entering with everything it passed through (`resolvePairs`).
Every movable object is settled against the static meshes, looks for the ground below, feels water,
is pulled down to ground that it just left, and is caught by the kill plane (`settle`). Those that
were caught are taken out. A tick that meets a fault is interrupted.
-/

namespace ConvexCollision.World

variable {α : Type} [Scalar α]

/-- Where an element stood before a tick, and whether it was carried then. -/
structure Before (α : Type) where
  /-- Its position. -/
  position : Vec3 α
  /-- Something carried it. -/
  grounded : Bool

instance : Inhabited (Before α) := ⟨⟨Vec3.zero, false⟩⟩

/-! ## Free motion -/

/-- The element at the start of a tick: its contacts go back to the pool, and an object moves
freely. -/
def startElement (config : Config α) (e : Element α) (pool : ContactPool α) :
    Element α × Before α × ContactPool α :=
  match e with
  | .object o =>
    let before : Before α := ⟨o.position, o.isGrounded pool config.shadowGroundTolerance⟩
    match (Element.object o).returnContacts pool with
    | (.object o, pool) =>
      (.object ((o.tickCounters.integrate config.fixedTimeStep config.gravity).recalcBox), before, pool)
    | (e, pool) => (e, before, pool)
  | .trigger t =>
    let pool := pool.returnContacts t.activeContacts
    (.trigger { t with activeContacts := none }.recalcBox, ⟨t.position, false⟩, pool)

/-- All elements at the start of a tick, and where each of them was before. -/
def start (w : World α) : World α × Array (Before α) :=
  let (elements, befores, pool) := w.elements.foldl (fun (elements, befores, pool) e =>
    let (e, before, pool) := startElement w.config e pool
    (elements.push e, befores.push before, pool)) (#[], #[], w.pool)
  ({ w with elements, pool }, befores)

/-! ## Pairs -/

/-- The box with which an element enters the broad phase. -/
def sweptBox (e : Element α) (before : Before α) : Bounds α :=
  match e with
  | .object o =>
    if !o.isTrigger && o.needsSweep before.position then
      o.box.extendDirection (before.position - o.position)
    else o.box
  | .trigger t => t.box

/-- Two objects resolved: on the way when either is fast and neither is a trigger, where they are
otherwise or when they did not meet on the way. -/
def resolveObjects (a : DynamicObject α) (aBefore : Before α) (b : DynamicObject α)
    (bBefore : Before α) (l : Ledger α) : DynamicObject α × DynamicObject α × Ledger α :=
  if !a.shouldCollide b then (a, b, l)
  else
    let swept := !a.isTrigger && !b.isTrigger &&
      (a.needsSweep aBefore.position || b.needsSweep bBefore.position)
    if swept then
      let (met, a, b, l) := Resolve.objectsSwept a aBefore.position b bBefore.position l
      if met then (a, b, l) else Resolve.objects a b l
    else Resolve.objects a b l

/-- Two elements resolved. Two triggers ignore each other. -/
def resolvePair (befores : Array (Before α)) (state : Array (Element α) × Ledger α)
    (p : BroadPhase.Pair) : Array (Element α) × Ledger α :=
  let (elements, l) := state
  match elements[p.a]?, elements[p.b]? with
  | some (.object a), some (.object b) =>
    let (a, b, l) := resolveObjects a (befores.getD p.a default) b (befores.getD p.b default) l
    ((elements.setIfInBounds p.a (.object a)).setIfInBounds p.b (.object b), l)
  | some (.object o), some (.trigger t) =>
    let (t, l) := Resolve.objectInTrigger o t l
    (elements.setIfInBounds p.b (.trigger t), l)
  | some (.trigger t), some (.object o) =>
    let (t, l) := Resolve.objectInTrigger o t l
    (elements.setIfInBounds p.a (.trigger t), l)
  | _, _ => (elements, l)

/-- Every pair that the broad phase reports, resolved in its order. -/
def resolvePairs (befores : Array (Before α)) (elements : Array (Element α)) (l : Ledger α) :
    Array (Element α) × Ledger α :=
  let boxes := (elements.zip befores).map fun (e, before) => sweptBox e before
  (BroadPhase.pairs boxes).foldl (resolvePair befores) (elements, l)

/-! ## Static geometry, ground and water -/

/-- The object with a contact for the surface below it, or marked as out of bounds. -/
def castShadow (o : DynamicObject α) (ground : Option (GroundHit α)) (l : Ledger α) :
    DynamicObject α × Ledger α :=
  match ground with
  | some hit =>
    let (l, shadowContact) := l.allocate
      ⟨hit.normal, ⟨o.position.x, hit.y, o.position.z⟩, hit.surface, EntityId.none⟩
    ({ o with flags := o.flags.remove ObjectFlags.outOfBounds, shadowContact }, l)
  | none => ({ o with flags := o.flags.insert ObjectFlags.outOfBounds }, l)

/-- The object pulled down to the ground below it, when that carries and the drop is shallow compared
to how far the object moved sideways. -/
def snapToGround (o : DynamicObject α) (previous : Vec3 α) (pool : ContactPool α)
    (config : Config α) : DynamicObject α :=
  match o.shadowContact with
  | none => o
  | some id =>
    let shadow := pool.get id
    if shadow.normal.y ≤ o.type.groundThreshold then o
    else
      let drop := o.box.mins.y - shadow.point.y
      if drop ≤ 0 then o
      else
        let motion := o.position - previous
        let sideways := Vec2.length ⟨motion.x, motion.z⟩
        if sideways * Scalar.tan (Scalar.toRadians config.groundSnapConeDegrees) < drop then o
        else (o.move ⟨0, -drop, 0⟩).stopInto shadow.normal

/-- A height is on or above the kill plane. Without a plane every height is, but a height that is not
a number never is. -/
def isAbove (height : α) : Option α → Bool
  | some plane => decide (plane ≤ height)
  | none => !Scalar.isUndefined height

/-- The object held at the kill plane, if it fell below. A height that is not a number stays so. -/
def catchFalling? (o : DynamicObject α) (plane : Option α) : Option (DynamicObject α) :=
  if isAbove o.position.y plane then none
  else
    let lift := match plane with
      | some plane => plane - o.position.y
      | none => o.position.y
    let o := o.move ⟨0, lift, 0⟩
    some { o with
      velocity := { o.velocity with y := 0 }
      flags := o.flags.insert ObjectFlags.hitKillPlane }

/-- An object walked along its motion against the static meshes, if it moved far. -/
def sweepMeshes (w : World α) (o : DynamicObject α) (before : Before α) (l : Ledger α) :
    Except (Interruption α) (DynamicObject α × Ledger α) :=
  if o.needsSweep before.position then
    Resolve.meshesSwept w.staticMeshes w.config.maxSweptIterations before.position o l
  else .ok (o, l)

/-- A movable object settled against everything that does not move. The result is flagged when it
fell below the kill plane. -/
def settle (w : World α) (o : DynamicObject α) (before : Before α) (l : Ledger α) :
    Except (Interruption α) (DynamicObject α × Bool × Ledger α) := do
  let meshes := w.staticMeshes
  let (o, l) ← w.sweepMeshes o before l
  let (o, l) ← meshes.foldlM (fun (o, l) m => Resolve.mesh m o l) (o, l)
  let (o, l) := castShadow o (← l.guarding (shadowCastOn meshes o.position)) l
  let (o, pool) := Water.apply o l.pool w.config
  let l := { l with pool }
  let o :=
    if before.grounded && o.isJumping == 0 && !o.isGrounded l.pool w.config.shadowGroundTolerance then
      snapToGround o before.position l.pool w.config
    else o
  match catchFalling? o w.killPlane with
  | some o => return (o, true, l.report (.fellBelow o.id w.killPlane))
  | none => return (o, false, l)

/-- The element at a position settled, if it is a movable object. -/
def settleAt (w : World α) (befores : Array (Before α))
    (state : Array (Element α) × Ledger α × List EntityId) (i : Nat) :
    Except (Interruption α) (Array (Element α) × Ledger α × List EntityId) := do
  let (elements, l, fallen) := state
  match elements[i]? with
  | some (.object o) =>
    if o.isFixed || o.isTrigger then return state
    else
      let (o, fell, l) ← settle w o (befores.getD i default) l
      return (elements.setIfInBounds i (.object o), l, if fell then fallen ++ [o.id] else fallen)
  | _ => return state

/-! ## The tick -/

/-- What a tick leaves behind. -/
structure Outcome (α : Type) [Scalar α] where
  /-- The world after the tick. -/
  world : World α
  /-- The objects that fell below the kill plane; they have been taken out. -/
  despawned : List EntityId
  /-- What happened, oldest first. -/
  journal : Array (Event α)

/-- The world without the elements that are registered under some identities. -/
def removeAll (w : World α) (ids : List EntityId) : Except Fault (World α) :=
  ids.foldlM dropElement w

/-- One fixed step. -/
def collide (w : World α) : Except (Interruption α) (Outcome α) := do
  let (w, befores) := w.start
  let (elements, l) := resolvePairs befores w.elements ⟨w.pool, #[]⟩
  let (elements, l, fallen) ←
    (List.range elements.size).foldlM (settleAt w befores) (elements, l, [])
  let w ← l.guarding (removeAll { w with elements, pool := l.pool } fallen)
  return ⟨w, fallen, l.journal⟩

end ConvexCollision.World
