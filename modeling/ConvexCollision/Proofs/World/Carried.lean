import ConvexCollision.Proofs.World.Elements

/-!
# ConvexCollision.Proofs.World.Carried -- what a tick does to an object besides its contacts

After free motion, whatever moves an object moves its box along with it. `MovedTogether` is that, for
any type of numbers: each write to the position is matched by the write to the box that belongs to it.
`DynamicObject.kept` is the object with all that a tick writes to left blank, so that two objects with
the same `kept` are the same in everything else.

`Carried` joins the two. Every step of a tick carries the objects that it is about, one lemma for each
step, and so what a tick settles is what it started with, carried (`settled_carried`). Nothing here asks
what the geometry answers.
-/

namespace ConvexCollision

variable {α : Type} [Scalar α]

/-! ## §A One object -/

/-- A position and a box that were moved together, any number of times: by an offset, or to a height
and by the difference in height. -/
inductive MovedTogether (p : Vec3 α) (b : Bounds α) : Vec3 α → Bounds α → Prop
  /-- They stay. -/
  | stay : MovedTogether p b p b
  /-- Both are moved by an offset. -/
  | move {p' : Vec3 α} {b' : Bounds α} (before : MovedTogether p b p' b') (offset : Vec3 α) :
    MovedTogether p b (p' + offset) (b'.translate offset)
  /-- The position is put at a height, and the box follows. -/
  | lift {p' : Vec3 α} {b' : Bounds α} (before : MovedTogether p b p' b') (y : α) :
    MovedTogether p b { p' with y } (b'.translate ⟨0, y - p'.y, 0⟩)

theorem MovedTogether.trans {p p' p'' : Vec3 α} {b b' b'' : Bounds α} (h : MovedTogether p b p' b')
    (g : MovedTogether p' b' p'' b'') : MovedTogether p b p'' b'' := by
  induction g with
  | stay => exact h
  | move _ offset ih => exact ih.move offset
  | lift _ y ih => exact ih.lift y

namespace DynamicObject

/-- The flags that a tick sets and clears. -/
def tickFlags : ObjectFlags := ⟨ObjectFlags.outOfBounds.bits ||| ObjectFlags.hitKillPlane.bits⟩

/-- The object with everything blank that a tick writes to. -/
def kept (o : DynamicObject α) : DynamicObject α :=
  { o with
    position := Vec3.zero, velocity := Vec3.zero, box := Bounds.empty
    flags := o.flags.remove tickFlags
    isPushed := 0, isJumping := 0, disableFriction := 0, underWater := 0, hasIceDash := 0
    activeContacts := none, shadowContact := none }

variable {o o' o'' : DynamicObject α}

/-- Writing to the flags of a tick alone. -/
theorem kept_flags {flags : ObjectFlags} (h : flags.remove tickFlags = o.flags.remove tickFlags) :
    ({ o with flags } : DynamicObject α).kept = o.kept := by
  unfold kept
  simp only
  rw [h]

/-- Setting one of the flags of a tick leaves the others alone. -/
theorem remove_insert_tickFlags (flags : ObjectFlags) {f : ObjectFlags}
    (hf : f.bits &&& ~~~tickFlags.bits = 0) :
    (flags.insert f).remove tickFlags = flags.remove tickFlags := by
  have hdistrib : (flags.bits ||| f.bits) &&& ~~~tickFlags.bits =
      flags.bits &&& ~~~tickFlags.bits ||| f.bits &&& ~~~tickFlags.bits :=
    UInt8.toBitVec_inj.mp BitVec.and_or_distrib_right
  rw [hf, UInt8.or_zero] at hdistrib
  exact congrArg ObjectFlags.mk hdistrib

/-- Clearing one of the flags of a tick leaves the others alone. -/
theorem remove_remove_tickFlags (flags : ObjectFlags) {f : ObjectFlags}
    (hf : ~~~f.bits &&& ~~~tickFlags.bits = ~~~tickFlags.bits) :
    (flags.remove f).remove tickFlags = flags.remove tickFlags := by
  show ObjectFlags.mk (flags.bits &&& ~~~f.bits &&& ~~~tickFlags.bits) = _
  rw [UInt8.and_assoc, hf]
  rfl

/-- Whether an object is fixed is none of what a tick writes to. -/
theorem isFixed_kept (o : DynamicObject α) : o.kept.isFixed = o.isFixed := by
  show (o.flags.bits &&& ~~~tickFlags.bits &&& ObjectFlags.fixed.bits == ObjectFlags.fixed.bits) =
    (o.flags.bits &&& ObjectFlags.fixed.bits == ObjectFlags.fixed.bits)
  rw [UInt8.and_assoc, show ~~~tickFlags.bits &&& ObjectFlags.fixed.bits = ObjectFlags.fixed.bits from rfl]

theorem isFixed_of_kept (h : o'.kept = o.kept) : o'.isFixed = o.isFixed := by
  rw [← isFixed_kept o', h, isFixed_kept]

theorem isTrigger_of_kept (h : o'.kept = o.kept) : o'.isTrigger = o.isTrigger := by
  have hkept := congrArg isTrigger h
  exact hkept

/-- The object is the same but for what a tick writes to, and its box was moved along with it. -/
structure Carried (o o' : DynamicObject α) : Prop where
  /-- It is the same in everything else. -/
  kept : o'.kept = o.kept
  /-- Its position and its box were moved together. -/
  moved : MovedTogether o.position o.box o'.position o'.box

namespace Carried

theorem refl (o : DynamicObject α) : o.Carried o := ⟨rfl, .stay⟩

theorem trans (h : o.Carried o') (g : o'.Carried o'') : o.Carried o'' :=
  ⟨g.kept.trans h.kept, h.moved.trans g.moved⟩

/-- Writing to neither the position nor the box. -/
theorem of_eq (hkept : o'.kept = o.kept) (hposition : o'.position = o.position)
    (hbox : o'.box = o.box) : o.Carried o' := by
  refine ⟨hkept, ?_⟩
  rw [hposition, hbox]
  exact .stay

theorem move (o : DynamicObject α) (offset : Vec3 α) : o.Carried (o.move offset) :=
  ⟨rfl, .move .stay offset⟩

theorem respond (o : DynamicObject α) (normal : Vec3 α) : o.Carried (o.respond normal) :=
  of_eq rfl rfl rfl

theorem stopInto (o : DynamicObject α) (normal : Vec3 α) : o.Carried (o.stopInto normal) :=
  of_eq rfl rfl rfl

theorem stopAlong (o : DynamicObject α) (normal : Vec3 α) : o.Carried (o.stopAlong normal) :=
  of_eq rfl rfl rfl

theorem markPushed (o : DynamicObject α) : o.Carried o.markPushed := of_eq rfl rfl rfl

theorem activeContacts (o : DynamicObject α) (head : Option ContactId) :
    o.Carried { o with activeContacts := head } :=
  of_eq rfl rfl rfl

end Carried

end DynamicObject

open DynamicObject (Carried)

/-! ## §B Two objects -/

namespace Resolve

theorem pushOut_carried (o : DynamicObject α) (normal : Vec3 α) (depth share : α) :
    o.Carried (pushOut o normal depth share) := by
  unfold pushOut
  split
  · exact ((Carried.move o _).trans (Carried.respond _ normal)).trans (Carried.markPushed _)
  · exact Carried.refl o

theorem stopPair_carried (a b : DynamicObject α) (normal : Vec3 α) :
    a.Carried (stopPair a b normal).1 ∧ b.Carried (stopPair a b normal).2 := by
  unfold stopPair
  simp only
  by_cases hA : 0 < (a.pushShares b).1 <;> by_cases hB : 0 < (a.pushShares b).2 <;>
    simp only [hA, hB, and_self, and_true, and_false, if_true, if_false]
  · exact ⟨(Carried.stopAlong a normal).trans (Carried.markPushed _),
      (Carried.stopAlong b normal).trans (Carried.markPushed _)⟩
  · exact ⟨(Carried.stopInto a _).trans (Carried.markPushed _), Carried.refl b⟩
  · exact ⟨Carried.refl a, (Carried.stopInto b normal).trans (Carried.markPushed _)⟩
  · exact ⟨Carried.refl a, Carried.refl b⟩

/-- Two objects that are tested where they are. -/
theorem objects_carried (a b : DynamicObject α) (l : Ledger α) :
    a.Carried (objects a b l).1 ∧ b.Carried (objects a b l).2.1 := by
  unfold objects
  split
  · exact ⟨Carried.refl a, Carried.refl b⟩
  split
  · exact ⟨Carried.activeContacts a _, Carried.activeContacts b _⟩
  split
  · exact ⟨Carried.refl a, Carried.refl b⟩
  · exact ⟨(pushOut_carried a _ _ _).trans (Carried.activeContacts _ _),
      (pushOut_carried b _ _ _).trans (Carried.activeContacts _ _)⟩

/-- Two objects that met on the way are put back, each with its box. -/
theorem objectsSwept_carried {a b a' b' : DynamicObject α} {aPrevious bPrevious : Vec3 α} {met : Bool}
    {l l' : Ledger α} (h : objectsSwept a aPrevious b bPrevious l = (met, a', b', l')) :
    a.Carried a' ∧ b.Carried b' := by
  rcases objectsSwept_cases h with ⟨-, rfl, rfl, -⟩ | ⟨-, hit, -, hrecorded⟩
  · exact ⟨Carried.refl a', Carried.refl b'⟩
  obtain ⟨hA, hB⟩ := stopPair_carried
    (a.move (-(a.position - aPrevious) * (1 - hit.time)))
    (b.move (-(b.position - bPrevious) * (1 - hit.time))) hit.normal
  cases hrecorded
  exact ⟨((Carried.move a _).trans hA).trans (Carried.activeContacts _ _),
    ((Carried.move b _).trans hB).trans (Carried.activeContacts _ _)⟩

/-! ## §C Static geometry -/

theorem triangle_carried (m : Mesh α) (o : DynamicObject α) (i : Nat) (l : Ledger α) :
    o.Carried (triangle m o i l).1 := by
  unfold triangle
  simp only
  split
  · exact Carried.refl o
  split
  · exact Carried.refl o
  split
  · exact ((Carried.move o _).trans (Carried.respond _ _)).trans (Carried.activeContacts _ _)
  · exact Carried.refl o

theorem mesh_carried {m : Mesh α} {o o' : DynamicObject α} {l l' : Ledger α}
    (h : mesh m o l = .ok (o', l')) : o.Carried o' :=
  inv_mesh (fun s => o.Carried s.1) (fun s i hs => hs.trans (triangle_carried m s.1 i s.2)) h (Carried.refl o)

theorem slide_carried (o : DynamicObject α) (motion : Vec3 α) (hit : Hit α) :
    o.Carried (slide o motion hit).1 := by
  unfold slide
  simp only
  exact (Carried.move o _).trans (Carried.of_eq rfl rfl rfl)

theorem strike_carried (o : DynamicObject α) (motion : Vec3 α) (hit : SurfaceHit α) (l : Ledger α) :
    o.Carried (strike o motion hit l).1 :=
  (slide_carried o motion hit.1).trans (Carried.activeContacts _ _)

/-- An object walked along its motion takes its box along, also when it slides on or is put back. -/
theorem walk_carried {meshes : List (Mesh α)} {limit left : Nat} {safe : Vec3 α}
    {o o' : DynamicObject α} {l l' : Ledger α} (h : walk meshes limit left safe o l = .ok (o', l')) :
    o.Carried o' := by
  obtain ⟨legs, hroute⟩ := walk_eq_ok_iff.mp h
  clear h
  -- on the legs of its route
  induction hroute with
  | remainder _ => exact Carried.refl _
  | arrived _ _ => exact Carried.refl _
  | putBack _ _ => exact (Carried.move _ _).trans (Carried.of_eq rfl rfl rfl)
  | hit _ _ _ ih => exact (strike_carried _ _ _ _).trans ih

end Resolve

/-! ## §D Water, and the rest of settling -/

theorem Water.apply_carried (o : DynamicObject α) (pool : ContactPool α) (config : Config α) :
    o.Carried (Water.apply o pool config).1 := by
  unfold Water.apply
  split
  · exact Carried.refl o
  simp only
  split
  · exact Carried.refl o
  split
  · exact Carried.refl o
  split
  · exact ⟨rfl, .lift .stay _⟩
  · unfold Water.float
    simp only
    split <;> exact Carried.of_eq rfl rfl rfl

namespace World

/-- Two objects are resolved, whichever way is taken. -/
theorem resolveObjects_carried (a : DynamicObject α) (aBefore : Before α) (b : DynamicObject α)
    (bBefore : Before α) (l : Ledger α) :
    a.Carried (resolveObjects a aBefore b bBefore l).1 ∧
      b.Carried (resolveObjects a aBefore b bBefore l).2.1 := by
  rcases resolveObjects_cases a aBefore b bBefore l with hsame | ⟨-, -, hswept⟩ | ⟨l', -, htested⟩
  · rw [hsame]
    exact ⟨Carried.refl a, Carried.refl b⟩
  · exact Resolve.objectsSwept_carried hswept
  · rw [htested]
    exact Resolve.objects_carried a b l'

theorem castShadow_carried (o : DynamicObject α) (ground : Option (GroundHit α)) (l : Ledger α) :
    o.Carried (castShadow o ground l).1 := by
  cases ground with
  | none =>
    have hflags := DynamicObject.remove_insert_tickFlags o.flags (f := ObjectFlags.outOfBounds) rfl
    exact Carried.of_eq (DynamicObject.kept_flags hflags) rfl rfl
  | some hit =>
    have hflags := DynamicObject.remove_remove_tickFlags o.flags (f := ObjectFlags.outOfBounds) rfl
    exact Carried.of_eq (DynamicObject.kept_flags hflags) rfl rfl

theorem snapToGround_carried (o : DynamicObject α) (previous : Vec3 α) (pool : ContactPool α)
    (config : Config α) : o.Carried (snapToGround o previous pool config) := by
  unfold snapToGround
  split
  · exact Carried.refl o
  simp only
  split
  · exact Carried.refl o
  split
  · exact Carried.refl o
  split
  · exact Carried.refl o
  · exact (Carried.move o _).trans (Carried.stopInto _ _)

theorem catchFalling_carried {o o' : DynamicObject α} {plane : Option α}
    (h : catchFalling? o plane = some o') : o.Carried o' := by
  unfold catchFalling? at h
  split at h
  · cases h
  · cases h
    have hflags := DynamicObject.remove_insert_tickFlags o.flags (f := ObjectFlags.hitKillPlane) rfl
    exact (Carried.move o _).trans (Carried.of_eq (DynamicObject.kept_flags hflags) rfl rfl)

theorem sweepMeshes_carried {w : World α} {o o' : DynamicObject α} {before : Before α}
    {l l' : Ledger α} (h : w.sweepMeshes o before l = .ok (o', l')) : o.Carried o' := by
  unfold sweepMeshes at h
  split at h
  · exact Resolve.walk_carried h
  · cases h
    exact Carried.refl _

/-- What settling does comes to its test against the kill plane, and to nothing after it: an object
that was not caught is above the plane where it stands. -/
theorem settle_carried {w : World α} {o o' : DynamicObject α} {before : Before α} {l l' : Ledger α}
    {fell : Bool} (h : settle w o before l = .ok (o', fell, l')) :
    o.Carried o' ∧ (fell = false → isAbove o'.position.y w.killPlane = true) := by
  unfold settle at h
  obtain ⟨⟨o₀, l₀⟩, hswept, h⟩ := bind_eq_ok_iff.mp h
  obtain ⟨⟨o₁, l₁⟩, hmeshes, h⟩ := bind_eq_ok_iff.mp h
  obtain ⟨ground, -, h⟩ := bind_eq_ok_iff.mp h
  have hpushed : o₀.Carried o₁ := rel_of_foldlM_eq_ok
    (R := fun s s' : DynamicObject α × Ledger α => s.1.Carried s'.1) (fun s => Carried.refl s.1)
    (fun _ _ _ => Carried.trans) (fun _ _ _ hm => Resolve.mesh_carried hm) hmeshes
  simp only at h
  generalize hcast : castShadow o₁ ground l₁ = cast at h
  generalize hwater : Water.apply cast.1 cast.2.pool w.config = watered at h
  have hwatered : o.Carried watered.1 := by
    rw [← hwater, ← hcast]
    exact ((((sweepMeshes_carried hswept).trans hpushed).trans (castShadow_carried _ ground _))).trans
      (Water.apply_carried _ _ _)
  -- the object as it comes to the test
  generalize hsnapped : (if before.grounded && watered.1.isJumping == 0 &&
      !watered.1.isGrounded watered.2 w.config.shadowGroundTolerance then
      snapToGround watered.1 before.position watered.2 w.config else watered.1) = snapped at h
  have htested : o.Carried snapped := by
    rw [← hsnapped]
    split
    · exact hwatered.trans (snapToGround_carried _ _ _ _)
    · exact hwatered
  split at h
  · next hcaught =>
    cases h
    exact ⟨htested.trans (catchFalling_carried hcaught), fun hfell => absurd hfell Bool.noConfusion⟩
  · next hcaught =>
    cases h
    refine ⟨htested, fun _ => ?_⟩
    unfold catchFalling? at hcaught
    split at hcaught
    · next habove => exact habove
    · cases hcaught

end World

/-! ## §E Elements -/

/-- The element is the same one: an object was carried, a trigger at most recorded something. -/
inductive Element.Carried : Element α → Element α → Prop
  /-- An object is carried. -/
  | object {o o' : DynamicObject α} (carried : o.Carried o') : Carried (.object o) (.object o')
  /-- A trigger gets other contacts. -/
  | trigger (t : SpatialTrigger α) (head : Option ContactId) :
    Carried (.trigger t) (.trigger { t with activeContacts := head })

namespace Element.Carried

variable {e e' e'' : Element α}

theorem refl (e : Element α) : e.Carried e := by
  cases e with
  | object o => exact .object (DynamicObject.Carried.refl o)
  | trigger t => exact .trigger t t.activeContacts

theorem trans (h : e.Carried e') (g : e'.Carried e'') : e.Carried e'' := by
  cases h with
  | object h =>
    cases g with
    | object g => exact .object (h.trans g)
  | trigger t head =>
    cases g with
    | trigger _ head' => exact .trigger t head'

/-- Each element is the same one as before, place by place. -/
abbrev All (es es' : List (Element α)) : Prop := List.Forall₂ Element.Carried es es'

theorem All.refl (es : List (Element α)) : All es es := List.forall₂_same.mpr fun e _ => .refl e

theorem All.trans {es es' es'' : List (Element α)} (h : All es es') (g : All es' es'') : All es es'' :=
  forall₂_trans (T := Element.Carried) (fun _ _ _ hfirst hsecond => hfirst.trans hsecond) h g

/-- What was carried has a counterpart before. -/
theorem All.exists_of_mem {es es' : List (Element α)} (h : All es es') (he : e' ∈ es') :
    ∃ e ∈ es, e.Carried e' :=
  exists_of_forall₂_of_mem h he

end Element.Carried

open Element.Carried (All)

namespace World

/-- What becomes of the elements when two of them are resolved, if it is known what becomes of two objects
and of a trigger that gets other contacts. -/
theorem resolvePair_forall₂ {R : Element α → Element α → Prop} (hrefl : ∀ e, R e e)
    (htrans : ∀ e e' e'', R e e' → R e' e'' → R e e'') (befores : Array (Before α))
    (s : Array (Element α) × Ledger α) (p : BroadPhase.Pair)
    (hobjects : ∀ a b, s.1[p.a]? = some (.object a) → s.1[p.b]? = some (.object b) →
      ∀ r, resolveObjects a (befores.getD p.a default) b (befores.getD p.b default) s.2 = r →
        R (.object a) (.object r.1) ∧ R (.object b) (.object r.2.1))
    (htrigger : ∀ t head, R (.trigger t) (.trigger { t with activeContacts := head })) :
    List.Forall₂ R s.1.toList (resolvePair befores s p).1.toList := by
  have hrecords (o : DynamicObject α) (t : SpatialTrigger α) (l : Ledger α) :
      R (.trigger t) (.trigger (Resolve.objectInTrigger o t l).1) := by
    unfold Resolve.objectInTrigger
    split
    · exact hrefl _
    split
    · exact htrigger t _
    · exact hrefl _
  obtain ⟨elements, l⟩ := s
  unfold resolvePair
  simp only
  split
  · next a b ha hb =>
    obtain ⟨hA, hB⟩ := hobjects a b ha hb
      (resolveObjects a (befores.getD p.a default) b (befores.getD p.b default) l) rfl
    generalize resolveObjects a _ b _ l = r at hA hB ⊢
    rw [Array.toList_setIfInBounds, Array.toList_setIfInBounds]
    rw [← Array.getElem?_toList] at ha hb
    by_cases hab : p.a = p.b
    · -- the broad phase reports no such pair; it would be written to once only
      rw [hab, List.set_set]
      exact forall₂_set hrefl hb hB
    · refine forall₂_trans htrans (forall₂_set hrefl ha hA) (forall₂_set hrefl ?_ hB)
      rw [List.getElem?_set_ne hab]
      exact hb
  · next o t ho ht =>
    rw [Array.toList_setIfInBounds]
    exact forall₂_set hrefl (by rwa [Array.getElem?_toList]) (hrecords o t l)
  · next t o ht ho =>
    rw [Array.toList_setIfInBounds]
    exact forall₂_set hrefl (by rwa [Array.getElem?_toList]) (hrecords o t l)
  · exact List.forall₂_same.mpr fun e _ => hrefl e

theorem resolvePair_carried (befores : Array (Before α)) (s : Array (Element α) × Ledger α)
    (p : BroadPhase.Pair) : All s.1.toList (resolvePair befores s p).1.toList := by
  refine resolvePair_forall₂ .refl (fun _ _ _ => .trans) befores s p ?_ .trigger
  rintro a b - - r rfl
  obtain ⟨hA, hB⟩ := resolveObjects_carried a (befores.getD p.a default) b (befores.getD p.b default) s.2
  exact ⟨.object hA, .object hB⟩

theorem resolvePairs_carried (befores : Array (Before α)) (elements : Array (Element α))
    (l : Ledger α) : All elements.toList (resolvePairs befores elements l).1.toList := by
  unfold resolvePairs
  simp only
  refine inv_foldl_passed (fun _ (s : Array (Element α) × Ledger α) =>
    All elements.toList s.1.toList) ?_ (All.refl _)
  intro passed p rest s _ hs
  exact hs.trans (resolvePair_carried befores s p)

/-- What becomes of the elements when one is settled, if it is known what becomes of a movable object. -/
theorem settleAt_forall₂ {R : Element α → Element α → Prop} (hrefl : ∀ e, R e e) {w : World α}
    {befores : Array (Before α)} {i : Nat} {s s' : Array (Element α) × Ledger α × List EntityId}
    (hmoves : ∀ o o' : DynamicObject α, (o.isFixed || o.isTrigger) = false → o.Carried o' →
      R (.object o) (.object o')) (hs : settleAt w befores s i = .ok s') :
    List.Forall₂ R s.1.toList s'.1.toList := by
  have hsame (es : List (Element α)) : List.Forall₂ R es es := List.forall₂_same.mpr fun e _ => hrefl e
  obtain ⟨elements, l, fallen⟩ := s
  rcases settleAt_cases hs with ⟨rfl, -⟩ | ⟨o, o', fell, l', ho, hmovable, hsettle, rfl⟩
  · exact hsame _
  · rw [Array.toList_setIfInBounds]
    exact forall₂_set hrefl (by rwa [Array.getElem?_toList])
      (hmoves o o' hmovable (settle_carried hsettle).1)

theorem settleAt_carried {w : World α} {befores : Array (Before α)} {i : Nat}
    {s s' : Array (Element α) × Ledger α × List EntityId} (hs : settleAt w befores s i = .ok s') :
    All s.1.toList s'.1.toList :=
  settleAt_forall₂ .refl (fun _ _ _ hcarried => .object hcarried) hs

/-- The elements and the ledger of a tick when all pairs were resolved. -/
def paired (w : World α) : Array (Element α) × Ledger α :=
  resolvePairs w.start.2 w.start.1.elements ⟨w.start.1.pool, #[]⟩

/-- A tick that comes to its end settles element after element, and takes those out that fell. -/
theorem exists_settled_of_collide {w : World α} {outcome : Outcome α}
    (h : w.collide = .ok outcome) : ∃ (elements : Array (Element α)) (l : Ledger α),
      (List.range w.paired.1.size).foldlM (settleAt w.start.1 w.start.2)
        (w.paired.1, w.paired.2, []) = .ok (elements, l, outcome.despawned) ∧
      removeAll { w.start.1 with elements, pool := l.pool } outcome.despawned = .ok outcome.world := by
  unfold collide at h
  simp only at h
  obtain ⟨⟨elements, l, fallen⟩, hsettle, h⟩ := bind_eq_ok_iff.mp h
  obtain ⟨w', hremove, h⟩ := bind_eq_ok_iff.mp h
  cases h
  exact ⟨elements, l, hsettle, Ledger.eq_ok_of_guarding hremove⟩

/-- **A tick carries its elements.** What is settled when elements are taken out are the elements that
moved freely at the start, in their places and carried. -/
theorem settled_carried {w : World α} {elements : Array (Element α)} {l : Ledger α}
    {fallen : List EntityId}
    (h : (List.range w.paired.1.size).foldlM (settleAt w.start.1 w.start.2)
      (w.paired.1, w.paired.2, []) = .ok (elements, l, fallen)) :
    All w.start.1.elements.toList elements.toList := by
  have hpaired : All w.start.1.elements.toList w.paired.1.toList := resolvePairs_carried _ _ _
  have hsettled := rel_of_foldlM_eq_ok
    (R := fun s s' : Array (Element α) × Ledger α × List EntityId => All s.1.toList s'.1.toList)
    (fun _ => All.refl _) (fun _ _ _ => All.trans) (fun _ _ _ => settleAt_carried) h
  exact hpaired.trans hsettled

end World

end ConvexCollision
