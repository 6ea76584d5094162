import ConvexCollision.Resolve.Geometry

/-!
# ConvexCollision.Proofs.Sweep.Route -- a walk, leg by leg

The walk of an object gives the object as it is in the end. `Route` says by which way it got there: from
the place that is known to be free in straight legs, each of which ends in one of four ways (`Ending`).
On each leg but a short remainder there is one search for the earliest hit. A walk that comes to its end
has a route, and only what a route leads to is what a walk gives (`walk_eq_ok_iff`), so whatever is to be
said of walks is said by induction on the route, with one case for each way to end a leg.
-/

namespace ConvexCollision.Resolve

variable {α : Type} [Scalar α]

/-- How a leg ends. -/
inductive Ending where
  /-- At a hit. What is left of the motion slides on from there. -/
  | hit
  /-- At the end of the motion: there was no hit. -/
  | arrived
  /-- At the end of the motion, which is too short to search for hits. -/
  | remainder
  /-- Where it began: there was a hit, but no more hits are resolved. -/
  | putBack
deriving DecidableEq

/-- A straight leg of a walk. -/
structure Leg (α : Type) where
  /-- The object, standing at the end of its motion. -/
  object : DynamicObject α
  /-- Where the leg begins. -/
  start : Vec3 α
  /-- Where the leg ends. -/
  stop : Vec3 α
  /-- How it ends. -/
  ending : Ending

/-- The motion that the leg is part of. -/
def Leg.motion (leg : Leg α) : Vec3 α := leg.object.position - leg.start

/-- The object and the contacts after a hit: it slides on, and the hit is on its list. -/
def strike (o : DynamicObject α) (motion : Vec3 α) (hit : SurfaceHit α) (l : Ledger α) :
    DynamicObject α × Ledger α :=
  let slid := (slide o motion hit.1).1
  let (l, head) := l.pushFront slid.activeContacts
    ⟨hit.1.normal, hit.1.contactA, hit.2, EntityId.none⟩
  ({ slid with activeContacts := head }, l)

/-- The object put back to a place, with less of its velocity. -/
def putBack (o : DynamicObject α) (place : Vec3 α) : DynamicObject α :=
  { o.move (place - o.position) with velocity := o.velocity * (capDamping : α) }

/-- The route of a walk from a place that is known to be free, with so many hits still to be resolved. -/
inductive Route (meshes : List (Mesh α)) (limit : Nat) : (left : Nat) → (safe : Vec3 α) →
    DynamicObject α → Ledger α → List (Leg α) → DynamicObject α → Ledger α → Prop
  /-- What is left of the motion is too short. -/
  | remainder {left : Nat} {safe : Vec3 α} {o : DynamicObject α} {l : Ledger α}
    (hshort : (o.position - safe).lengthSq < minMotionSq) :
    Route meshes limit left safe o l [⟨o, safe, o.position, .remainder⟩] o l
  /-- Nothing is hit. -/
  | arrived {left : Nat} {safe : Vec3 α} {o : DynamicObject α} {l l' : Ledger α}
    (hlong : ¬(o.position - safe).lengthSq < minMotionSq)
    (hfree : earliestHit meshes o (o.position - safe) l = .ok (none, l')) :
    Route meshes limit left safe o l [⟨o, safe, o.position, .arrived⟩] o l'
  /-- There is a hit, but no more are resolved. -/
  | putBack {safe : Vec3 α} {o : DynamicObject α} {l l' : Ledger α} {hit : SurfaceHit α}
    (hlong : ¬(o.position - safe).lengthSq < minMotionSq)
    (hhit : earliestHit meshes o (o.position - safe) l = .ok (some hit, l')) :
    Route meshes limit 0 safe o l [⟨o, safe, (putBack o safe).position, .putBack⟩] (putBack o safe)
      (l'.report (.stillHitting o.id limit))
  /-- There is a hit, and the walk goes on from it. -/
  | hit {left : Nat} {safe : Vec3 α} {o o' : DynamicObject α} {l l₁ l' : Ledger α} {hit : SurfaceHit α}
    {legs : List (Leg α)} (hlong : ¬(o.position - safe).lengthSq < minMotionSq)
    (hhit : earliestHit meshes o (o.position - safe) l = .ok (some hit, l₁))
    (rest : Route meshes limit left (slide o (o.position - safe) hit.1).2
      (strike o (o.position - safe) hit l₁).1 (strike o (o.position - safe) hit l₁).2 legs o' l') :
    Route meshes limit (left + 1) safe o l
      (⟨o, safe, (slide o (o.position - safe) hit.1).2, .hit⟩ :: legs) o' l'

variable {meshes : List (Mesh α)} {limit left : Nat} {safe : Vec3 α} {o o' : DynamicObject α}
  {l l' : Ledger α} {legs : List (Leg α)}

/-- One turn of a walk. -/
theorem walk_eq : walk meshes limit left safe o l =
    if (o.position - safe).lengthSq < minMotionSq then .ok (o, l)
    else
      match earliestHit meshes o (o.position - safe) l with
      | .error halt => .error halt
      | .ok (none, l₁) => .ok (o, l₁)
      | .ok (some hit, l₁) =>
        match left with
        | 0 => .ok (putBack o safe, l₁.report (.stillHitting o.id limit))
        | left + 1 => walk meshes limit left (slide o (o.position - safe) hit.1).2
            (strike o (o.position - safe) hit l₁).1 (strike o (o.position - safe) hit l₁).2 := by
  conv => lhs; unfold walk
  simp only
  split
  · rfl
  · cases earliestHit meshes o (o.position - safe) l with
    | error halt => rfl
    | ok found =>
      obtain ⟨_ | ⟨hit, surface⟩, l₁⟩ := found
      · rfl
      · cases left <;> rfl

/-- **A walk has a route.** What a walk gives is what its route leads to. -/
theorem walk_eq_ok_iff : walk meshes limit left safe o l = .ok (o', l') ↔
    ∃ legs, Route meshes limit left safe o l legs o' l' := by
  constructor
  · intro h
    induction left using Nat.strongRecOn generalizing safe o l with
    | ind left ih =>
      rw [walk_eq] at h
      split at h
      · next hshort =>
        cases h
        exact ⟨_, .remainder hshort⟩
      · next hlong =>
        split at h
        · cases h
        · next hfree =>
          cases h
          exact ⟨_, .arrived hlong hfree⟩
        · next hhit =>
          cases left with
          | zero =>
            cases h
            exact ⟨_, .putBack hlong hhit⟩
          | succ left =>
            obtain ⟨legs, hrest⟩ := ih left (Nat.lt_succ_self left) h
            exact ⟨_, .hit hlong hhit hrest⟩
  · rintro ⟨legs, hroute⟩
    induction hroute with
    | remainder hshort => rw [walk_eq, if_pos hshort]
    | arrived hlong hfree => rw [walk_eq, if_neg hlong, hfree]
    | putBack hlong hhit => rw [walk_eq, if_neg hlong, hhit]
    | hit hlong hhit _ ih =>
      rw [walk_eq, if_neg hlong, hhit]
      exact ih

/-- The legs lead from one place to another one, each from where the one before ended. -/
def Joined : Vec3 α → List (Leg α) → Vec3 α → Prop
  | place, [], goal => place = goal
  | place, leg :: legs, goal => leg.start = place ∧ Joined leg.stop legs goal

/-- The legs of a route lead from where the walk begins to where the object ends up. -/
theorem Route.joined (h : Route meshes limit left safe o l legs o' l') :
    Joined safe legs o'.position := by
  induction h with
  | remainder _ => exact ⟨rfl, rfl⟩
  | arrived _ _ => exact ⟨rfl, rfl⟩
  | putBack _ _ => exact ⟨rfl, rfl⟩
  | hit _ _ _ ih => exact ⟨rfl, ih⟩

/-- The first leg is the way to where the object stands, and is searched when that is far enough. -/
theorem Route.exists_first (h : Route meshes limit left safe o l legs o' l') :
    ∃ leg ∈ legs, leg.object = o ∧ leg.start = safe ∧
      (leg.ending = .remainder → (o.position - safe).lengthSq < minMotionSq) := by
  cases h with
  | remainder hshort => exact ⟨_, List.mem_cons_self, rfl, rfl, fun _ => hshort⟩
  | arrived _ _ => exact ⟨_, List.mem_cons_self, rfl, rfl, fun hend => (nomatch hend)⟩
  | putBack _ _ => exact ⟨_, List.mem_cons_self, rfl, rfl, fun hend => (nomatch hend)⟩
  | hit _ _ _ => exact ⟨_, List.mem_cons_self, rfl, rfl, fun hend => (nomatch hend)⟩

/-- How the last leg of a route leaves the object. -/
inductive Leg.Leaves : Leg α → DynamicObject α → Prop
  /-- With a remainder of the motion that is too short. -/
  | remainder {o : DynamicObject α} {safe : Vec3 α}
    (hshort : (o.position - safe).lengthSq < minMotionSq) : Leaves ⟨o, safe, o.position, .remainder⟩ o
  /-- At the end of the motion. -/
  | arrived {o : DynamicObject α} {safe : Vec3 α} : Leaves ⟨o, safe, o.position, .arrived⟩ o
  /-- Put back. -/
  | putBack {o : DynamicObject α} {safe : Vec3 α} :
    Leaves ⟨o, safe, (Resolve.putBack o safe).position, .putBack⟩ (Resolve.putBack o safe)

/-- All legs but the last one end at a hit, there are no more of them than hits may be resolved, and the
last one leaves the object in one of the other ways. -/
theorem Route.exists_last (h : Route meshes limit left safe o l legs o' l') :
    ∃ front last, legs = front ++ [last] ∧ (∀ leg ∈ front, leg.ending = .hit) ∧ front.length ≤ left ∧
      last.Leaves o' := by
  have hsingle {leg : Leg α} {o' : DynamicObject α} (hleaves : leg.Leaves o') (left : Nat) :
      ∃ front last, [leg] = front ++ [last] ∧ (∀ leg ∈ front, leg.ending = .hit) ∧
        front.length ≤ left ∧ last.Leaves o' :=
    ⟨[], leg, rfl, fun _ hleg => absurd hleg List.not_mem_nil, Nat.zero_le _, hleaves⟩
  induction h with
  | remainder hshort => exact hsingle (.remainder hshort) _
  | arrived _ _ => exact hsingle .arrived _
  | putBack _ _ => exact hsingle .putBack _
  | @hit left safe o o' l l₁ l' hit legs _ _ _ ih =>
    obtain ⟨front, last, rfl, hhits, hlength, hleaves⟩ := ih
    exact ⟨⟨o, safe, (slide o (o.position - safe) hit.1).2, .hit⟩ :: front, last, rfl,
      List.forall_mem_cons.mpr ⟨rfl, hhits⟩, Nat.succ_le_succ hlength, hleaves⟩

end ConvexCollision.Resolve
