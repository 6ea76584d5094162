import ConvexCollision.Mesh
import ConvexCollision.Resolve.Pair

/-!
# ConvexCollision.Resolve.Geometry -- an object against static meshes

An object that overlaps a triangle is pushed out of it. An object that moved far in a tick is
walked along its motion instead: it stops at the earliest hit, and what is left of the motion slides
along the surface, again and again, up to a number of hits at which it is put back to the last place
that was known to be free. A fault in the tree of a mesh interrupts the tick.
-/

namespace ConvexCollision.Resolve

variable {α : Type} [Scalar α]

/-- The object pushed out of one triangle of a mesh, if it overlaps it. -/
def triangle (mesh : Mesh α) (o : DynamicObject α) (i : Nat) (l : Ledger α) :
    DynamicObject α × Ledger α :=
  let corners := mesh.triangle i
  match Overlap.find? corners.support o.support Vec3.unitX with
  | none => (o, l)
  | some simplex =>
    match penetration corners.support o.support simplex with
    | .error failure => (o, reportFailure l failure)
    | .ok hit =>
      if mesh.keepsContact i hit.normal then
        let o := (o.move (hit.normal * hit.penetration)).respond hit.normal
        let (l, head) := l.pushFront o.activeContacts
          ⟨hit.normal, hit.contactA, (mesh.stored i).surface, EntityId.none⟩
        ({ o with activeContacts := head }, l)
      else (o, l)

/-- The object pushed out of every triangle that it overlaps. -/
def mesh (m : Mesh α) (o : DynamicObject α) (l : Ledger α) :
    Except (Interruption α) (DynamicObject α × Ledger α) := do
  let found ← l.guarding (m.lookup o.box o.layers)
  return found.foldl (fun (o, l) i => triangle m o i l) (o, l)

/-- A hit of a moving object on a mesh, and what the surface is made of. -/
abbrev SurfaceHit (α : Type) := Hit α × Surface

/-- A hit whose normal is this close to the face normal takes the face normal. -/
def faceCosine : α := 0.999

/-- Motion within this cosine of the contact plane slides along it. -/
def slidingCosine : α := 1e-3

/-- The hit of a moving object on one triangle, unless it only grazes the triangle or leans across a
seam. The object stands at the end of its motion. -/
def triangleHit (m : Mesh α) (o : DynamicObject α) (motion : Vec3 α) (i : Nat) (l : Ledger α) :
    Option (SurfaceHit α) × Ledger α :=
  let corners := m.triangle i
  if Overlap.holds corners.support (Support.stretch o.support (-motion)) motion then
    let approach := Approach.sweep corners.support o.support motion
    let l := reportApproach l approach
    match approach.hit? with
    | none => (none, l)
    | some hit =>
      let faceNormal := corners.normal
      let hit := if faceCosine < hit.normal.dot faceNormal then { hit with normal := faceNormal } else hit
      if -(motion.dot hit.normal) ≤ motion.length * slidingCosine then (none, l)
      else if m.keepsContact i hit.normal then (some (hit, (m.stored i).surface), l)
      else (none, l)
  else (none, l)

/-- The earlier of two hits, the first one on a tie. -/
def earlier (best hit : Option (SurfaceHit α)) : Option (SurfaceHit α) :=
  match best, hit with
  | some best, some hit => if hit.1.time < best.1.time then some hit else some best
  | none, hit => hit
  | best, none => best

/-- The earliest hit on some triangles of a mesh, or the best one so far. -/
def earliestOn (m : Mesh α) (o : DynamicObject α) (motion : Vec3 α) (triangles : Array Nat)
    (state : Option (SurfaceHit α) × Ledger α) : Option (SurfaceHit α) × Ledger α :=
  triangles.foldl (fun (best, l) i =>
    let (hit, l) := triangleHit m o motion i l
    (earlier best hit, l)) state

/-- The earliest hit on the way to where the object stands, over all meshes. Triangles are looked at
as they are met, so those before a fault are still reported on. -/
def earliestHit (meshes : List (Mesh α)) (o : DynamicObject α) (motion : Vec3 α) (l : Ledger α) :
    Except (Interruption α) (Option (SurfaceHit α) × Ledger α) :=
  let sweptBox := o.box.extendDirection (-motion)
  meshes.foldlM (fun state m =>
    match m.visit sweptBox o.layers with
    | .ok found => .ok (earliestOn m o motion found state)
    | .error halt =>
      .error ⟨halt.fault, (earliestOn m o motion halt.reached state).2.journal⟩) (none, l)

/-- What is kept of the velocity of an object that is put back. -/
def capDamping : α := 0.9

/-- The object after a hit: it stands on the far side of the contact point by what is left of its
motion, without the part that leads into the surface. The second result is the contact point's place
on its path. -/
def slide (o : DynamicObject α) (motion : Vec3 α) (hit : Hit α) : DynamicObject α × Vec3 α :=
  let remaining := motion * (1 - hit.time)
  let safe := o.position - remaining
  let into := Scalar.minNum (remaining.dot hit.normal) 0
  let along := remaining - hit.normal * into
  let o := o.move (safe + along - o.position)
  ({ o with velocity := bounceVelocity o.velocity hit.normal o.type.bounce }, safe)

/-- The walk from a place that is known to be free to where the object stands, with so many hits
still to be resolved out of `limit`. -/
def walk (meshes : List (Mesh α)) (limit : Nat) : (left : Nat) → (safe : Vec3 α) →
    DynamicObject α → Ledger α → Except (Interruption α) (DynamicObject α × Ledger α)
  | left, safe, o, l =>
    let motion := o.position - safe
    if motion.lengthSq < minMotionSq then .ok (o, l)
    else
      match earliestHit meshes o motion l with
      | .error halt => .error halt
      | .ok (none, l) => .ok (o, l)
      | .ok (some (hit, surface), l) =>
        match left with
        | 0 =>
          let o := o.move (safe - o.position)
          .ok ({ o with velocity := o.velocity * (capDamping : α) },
            l.report (.stillHitting o.id limit))
        | left + 1 =>
          let (o, safe) := slide o motion hit
          let (l, head) := l.pushFront o.activeContacts
            ⟨hit.normal, hit.contactA, surface, EntityId.none⟩
          walk meshes limit left safe { o with activeContacts := head } l

/-- The object walked from its previous position to where it stands. -/
def meshesSwept (meshes : List (Mesh α)) (limit : Nat) (previous : Vec3 α) (o : DynamicObject α)
    (l : Ledger α) : Except (Interruption α) (DynamicObject α × Ledger α) :=
  walk meshes limit limit previous o l

end ConvexCollision.Resolve
