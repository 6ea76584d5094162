import Mathlib.Data.List.Find
import ConvexCollision.Proofs.Contact.Alike
import ConvexCollision.Proofs.World.Parts

/-!
# ConvexCollision.Proofs.World.Lockstep -- the steps of a tick, on two pools that are alike

Every step of a tick takes objects and a ledger, and gives objects and a ledger. When two ledgers are alike as
far as the contacts are known that the objects name, a step gives the same objects in both, and ledgers that
are alike again; what it took from the pool is known from then on. That is one lemma for each step, in the
order of the tick. None of them asks what the geometry answers, since it answers both the same.
-/

namespace ConvexCollision

variable {α : Type} [Scalar α] {known more : View}

/-! ## §A Whoever names contacts -/

/-- The contacts that the object names are known. -/
structure DynamicObject.Within (ids : Set ContactId) (o : DynamicObject α) : Prop where
  /-- The head of its list. -/
  active : ∀ id ∈ o.activeContacts, id ∈ ids
  /-- Its shadow. -/
  shadow : ∀ id ∈ o.shadowContact, id ∈ ids

/-- The contacts that the element names are known. -/
def Element.Within (ids : Set ContactId) : Element α → Prop
  | object o => o.Within ids
  | trigger t => ∀ id ∈ t.activeContacts, id ∈ ids

instance : Likeness (DynamicObject α) := ⟨fun known o o' => o = o' ∧ o.Within known.ids⟩
instance : Likeness (SpatialTrigger α) :=
  ⟨fun known t t' => t = t' ∧ ∀ id ∈ t.activeContacts, id ∈ known.ids⟩
instance : Likeness (Element α) := ⟨fun known e e' => e = e' ∧ e.Within known.ids⟩
instance : Likeness (Array (Element α)) := ⟨fun known es es' => es = es' ∧ ∀ e ∈ es, e.Within known.ids⟩
instance : Likeness (Option (Resolve.SurfaceHit α)) := .plain
instance : Likeness (Array (World.Before α)) := .plain
instance : Likeness (World.Before α) := .plain
instance : Likeness (List EntityId) := .plain

namespace DynamicObject.Within

variable {o o' : DynamicObject α}

omit [Scalar α] in
theorem mono (h : o.Within known.ids) (hle : known ≤ more) : o.Within more.ids :=
  ⟨fun id hid => hle.2 (h.active id hid), fun id hid => hle.2 (h.shadow id hid)⟩

omit [Scalar α] in
/-- A step that leaves alone what an object holds. -/
theorem of_tag (h : o.Within known.ids) (htag : o'.tag = o.tag) : o'.Within known.ids := by
  obtain ⟨-, hhandles⟩ := Prod.mk.inj htag
  obtain ⟨hactive, hshadow⟩ := Prod.mk.inj hhandles
  constructor
  · rw [hactive]
    exact h.active
  · rw [hshadow]
    exact h.shadow

omit [Scalar α] in
/-- An object that holds nothing. -/
theorem bare (o : DynamicObject α) :
    ({ o with activeContacts := none, shadowContact := none } : DynamicObject α).Within known.ids :=
  ⟨fun _ hid => (nomatch hid), fun _ hid => (nomatch hid)⟩

end DynamicObject.Within

omit [Scalar α] in
theorem Element.Within.mono {e : Element α} (h : e.Within known.ids) (hle : known ≤ more) :
    e.Within more.ids := by
  cases e with
  | object o => exact DynamicObject.Within.mono h hle
  | trigger t => exact fun id hid => hle.2 (h id hid)

omit [Scalar α] in
/-- One element is overwritten. -/
theorem alike_setIfInBounds {es es' : Array (Element α)} (h : alike known es es') (i : Nat)
    {e : Element α} (he : e.Within known.ids) :
    alike known (es.setIfInBounds i e) (es'.setIfInBounds i e) := by
  obtain ⟨rfl, hes⟩ := h
  refine ⟨rfl, fun e' he' => ?_⟩
  rcases Array.mem_or_eq_of_mem_setIfInBounds he' with hmem | rfl
  · exact hes e' hmem
  · exact he

omit [Scalar α] in
theorem alike_elements_mono {es es' : Array (Element α)} (h : alike known es es')
    (hle : known ≤ more) : alike more es es' :=
  ⟨h.1, fun e he => (h.2 e he).mono hle⟩

namespace Resolve

variable {a b o : DynamicObject α} {l m : Ledger α}

/-! ## §B Recording -/

theorem alike_reportFailure (hl : alike known l m) (failure : PenetrationFailure) :
    alike known (reportFailure l failure) (reportFailure m failure) := by
  cases failure with
  | noFace => exact hl
  | _ => exact Ledger.alike_report hl _

theorem alike_reportApproach (hl : alike known l m) (approach : Approach α) :
    alike known (reportApproach l approach) (reportApproach m approach) := by
  cases approach with
  | unfinished => exact Ledger.alike_report hl _
  | _ => exact hl

/-- A contact is recorded in front of an object's list. -/
theorem record_later (ho : o.Within known.ids) (hl : alike known l m) (contact : Contact α) :
    Later known
      ({ o with activeContacts := (l.pushFront o.activeContacts contact).2 },
        (l.pushFront o.activeContacts contact).1)
      ({ o with activeContacts := (m.pushFront o.activeContacts contact).2 },
        (m.pushFront o.activeContacts contact).1) := by
  obtain ⟨more, hmore, hledgers, hheads⟩ := Ledger.pushFront_later hl ho.active contact
  obtain ⟨hsame, hhead⟩ := Likeness.alike_head_iff.mp hheads
  rw [hsame] at hhead ⊢
  exact ⟨more, hmore, Likeness.pair ⟨rfl, hhead, (ho.mono hmore).shadow⟩ hledgers⟩

theorem recordPair_later (ha : a.Within known.ids) (hb : b.Within known.ids) (hl : alike known l m)
    (hit : Hit α) : Later known (recordPair a b hit l) (recordPair a b hit m) := by
  obtain ⟨more, hmore, ⟨hA, hwithinA⟩, hfirst⟩ :=
    record_later ha hl ⟨-hit.normal, hit.contactB, .default, b.id⟩
  obtain ⟨most, hmost, ⟨hB, hwithinB⟩, hsecond⟩ :=
    record_later (hb.mono hmore) hfirst ⟨hit.normal, hit.contactA, .default, a.id⟩
  exact ⟨most, hmore.trans hmost, Likeness.pair ⟨hA, hwithinA.mono hmost⟩
    (Likeness.pair ⟨hB, hwithinB⟩ hsecond)⟩

/-! ## §C Pairs -/

theorem objects_later (ha : a.Within known.ids) (hb : b.Within known.ids) (hl : alike known l m) :
    Later known (objects a b l) (objects a b m) := by
  have hstay {l m : Ledger α} (hl : alike known l m) : Later known (a, b, l) (a, b, m) :=
    .now (Likeness.pair ⟨rfl, ha⟩ (Likeness.pair ⟨rfl, hb⟩ hl))
  unfold objects
  cases Overlap.find? a.support b.support (b.position - a.position) with
  | none => exact hstay hl
  | some simplex =>
    simp only
    split
    · exact recordPair_later ha hb hl _
    · cases penetration a.support b.support simplex with
      | error failure => exact hstay (alike_reportFailure hl failure)
      | ok hit => exact recordPair_later (ha.of_tag (tag_pushOut _ _ _ _)) (hb.of_tag (tag_pushOut _ _ _ _)) hl hit

theorem objectsSwept_later (ha : a.Within known.ids) (hb : b.Within known.ids) (hl : alike known l m)
    (aPrevious bPrevious : Vec3 α) :
    Later known (objectsSwept a aPrevious b bPrevious l) (objectsSwept a aPrevious b bPrevious m) := by
  unfold objectsSwept
  simp only
  -- when they do not meet, both are left as they are
  have hstay {l m : Ledger α} (hl : alike known l m) : Later known (false, a, b, l) (false, a, b, m) :=
    .now (Likeness.pair rfl (Likeness.pair ⟨rfl, ha⟩ (Likeness.pair ⟨rfl, hb⟩ hl)))
  split
  · exact hstay hl
  generalize Approach.sweep a.support b.support _ = approach
  have hreported := alike_reportApproach hl approach
  cases approach.hit? with
  | none => exact hstay hreported
  | some hit =>
    obtain ⟨hA, hB⟩ := tag_stopPair (a.move (-(a.position - aPrevious) * (1 - hit.time)))
      (b.move (-(b.position - bPrevious) * (1 - hit.time))) hit.normal
    obtain ⟨more, hmore, ha', hb', hl'⟩ := recordPair_later (ha.of_tag hA) (hb.of_tag hB) hreported
      { hit with
        contactA := hit.contactA - (a.position - aPrevious) * (1 - hit.time)
        contactB := hit.contactB - (a.position - aPrevious) * (1 - hit.time) }
    exact ⟨more, hmore, Likeness.pair rfl (Likeness.pair ha' (Likeness.pair hb' hl'))⟩

theorem objectInTrigger_later {t : SpatialTrigger α} (ht : ∀ id ∈ t.activeContacts, id ∈ known.ids)
    (hl : alike known l m) (o : DynamicObject α) :
    Later known (objectInTrigger o t l) (objectInTrigger o t m) := by
  unfold objectInTrigger
  split
  · exact .now (Likeness.pair ⟨rfl, ht⟩ hl)
  split
  · obtain ⟨more, hmore, hledgers, hheads⟩ :=
      Ledger.pushFront_later hl ht ⟨Vec3.unitY, o.position, .default, o.id⟩
    obtain ⟨hsame, hhead⟩ := Likeness.alike_head_iff.mp hheads
    refine ⟨more, hmore, Likeness.pair ⟨?_, hhead⟩ hledgers⟩
    exact congrArg (fun head => { t with activeContacts := head }) hsame
  · exact .now (Likeness.pair ⟨rfl, ht⟩ hl)

/-! ## §D Static geometry -/

theorem triangle_later {s s' : DynamicObject α × Ledger α} (hs : alike known s s') (mesh : Mesh α)
    (i : Nat) : Later known (triangle mesh s.1 i s.2) (triangle mesh s'.1 i s'.2) := by
  obtain ⟨o, l⟩ := s
  obtain ⟨o', m⟩ := s'
  obtain ⟨⟨rfl, ho⟩, hl⟩ := hs
  have hstay {l m : Ledger α} (hl : alike known l m) : Later known (o, l) (o, m) :=
    .now (Likeness.pair ⟨rfl, ho⟩ hl)
  unfold triangle
  simp only
  cases Overlap.find? (mesh.triangle i).support o.support Vec3.unitX with
  | none => exact hstay hl
  | some simplex =>
    simp only
    cases penetration (mesh.triangle i).support o.support simplex with
    | error failure => exact hstay (alike_reportFailure hl failure)
    | ok hit =>
      simp only
      split
      · have hpushed : ((o.move (hit.normal * hit.penetration)).respond hit.normal).Within known.ids :=
          ho.of_tag rfl
        exact record_later hpushed hl _
      · exact hstay hl

theorem mesh_later {s s' : DynamicObject α × Ledger α} (hs : alike known s s') (m : Mesh α) :
    Later known (mesh m s.1 s.2) (mesh m s'.1 s'.2) := by
  unfold mesh
  rw [Ledger.guarding_eq hs.2, hs.1.1]
  cases s'.2.guarding (m.lookup s'.1.box s'.1.layers) with
  | error halt => exact .now (.error halt)
  | ok found =>
    have hstart : alike known (s'.1, s.2) (s'.1, s'.2) := Likeness.pair ⟨rfl, hs.1.1 ▸ hs.1.2⟩ hs.2
    obtain ⟨more, hmore, halike⟩ := Later.foldl
      (f := fun s i => triangle m s.1 i s.2) (g := fun s i => triangle m s.1 i s.2)
      (fun more _ x y i hxy => triangle_later hxy m i) found.toList hstart
    rw [Array.foldl_toList, Array.foldl_toList] at halike
    exact ⟨more, hmore, .ok halike⟩

/-- A hit is the same one. Looking for it takes no contact. -/
theorem alike_triangleHit (hl : alike known l m) (mesh : Mesh α) (o : DynamicObject α)
    (motion : Vec3 α) (i : Nat) :
    alike known (triangleHit mesh o motion i l) (triangleHit mesh o motion i m) := by
  unfold triangleHit
  simp only
  split
  · generalize Approach.sweep (mesh.triangle i).support o.support motion = approach
    have hreported := alike_reportApproach hl approach
    cases approach.hit? with
    | none => exact Likeness.pair rfl hreported
    | some hit =>
      simp only
      generalize (if faceCosine < hit.normal.dot (mesh.triangle i).normal then
        { hit with normal := (mesh.triangle i).normal } else hit) = turned
      by_cases hgrazes : -(motion.dot turned.normal) ≤ motion.length * slidingCosine
      · simp only [if_pos hgrazes]
        exact Likeness.pair rfl hreported
      by_cases hkept : mesh.keepsContact i turned.normal = true
      · simp only [if_neg hgrazes, if_pos hkept]
        exact Likeness.pair rfl hreported
      · simp only [if_neg hgrazes, if_neg hkept]
        exact Likeness.pair rfl hreported
  · exact Likeness.pair rfl hl

theorem alike_earliestOn {s s' : Option (SurfaceHit α) × Ledger α} (hs : alike known s s')
    (mesh : Mesh α) (o : DynamicObject α) (motion : Vec3 α) (triangles : Array Nat) :
    alike known (earliestOn mesh o motion triangles s) (earliestOn mesh o motion triangles s') := by
  unfold earliestOn
  rw [← Array.foldl_toList, ← Array.foldl_toList]
  refine List.foldl_rel (r := alike known) hs ?_
  rintro i - ⟨best, l⟩ ⟨best', m⟩ ⟨rfl, hl⟩
  have hhit := alike_triangleHit hl mesh o motion i
  exact Likeness.pair (congrArg (earlier best) hhit.1) hhit.2

theorem alike_earliestHit (hl : alike known l m) (meshes : List (Mesh α)) (o : DynamicObject α)
    (motion : Vec3 α) :
    alike known (earliestHit meshes o motion l) (earliestHit meshes o motion m) := by
  have hstart : alike known ((none : Option (SurfaceHit α)), l) (none, m) := Likeness.pair rfl hl
  unfold earliestHit
  simp only
  generalize ((none : Option (SurfaceHit α)), l) = s, ((none : Option (SurfaceHit α)), m) = s' at hstart
  induction meshes generalizing s s' with
  | nil => exact .ok hstart
  | cons mesh meshes ih =>
    rw [List.foldlM_cons, List.foldlM_cons]
    cases mesh.visit (o.box.extendDirection (-motion)) o.layers with
    | ok found => exact ih _ _ (alike_earliestOn hstart mesh o motion found)
    | error halt =>
      have hjournal := (alike_earliestOn hstart mesh o motion halt.reached).2.1
      simp only [hjournal]
      exact .error _

/-- After a hit the object slides on with the contact on its list. -/
theorem strike_later (ho : o.Within known.ids) (hl : alike known l m) (motion : Vec3 α)
    (hit : SurfaceHit α) : Later known (strike o motion hit l) (strike o motion hit m) := by
  have hslid : (slide o motion hit.1).1.Within known.ids := ho.of_tag rfl
  exact record_later hslid hl _

/-- An object that is walked along its motion takes the same route. -/
theorem walk_later {s s' : DynamicObject α × Ledger α} (hs : alike known s s')
    (meshes : List (Mesh α)) (limit left : Nat) (safe : Vec3 α) :
    Later known (walk meshes limit left safe s.1 s.2) (walk meshes limit left safe s'.1 s'.2) := by
  induction left using Nat.strongRecOn generalizing known safe s s' with
  | ind left ih =>
    obtain ⟨o, l⟩ := s
    obtain ⟨o', m⟩ := s'
    obtain ⟨⟨rfl, ho⟩, hl⟩ := hs
    simp only
    rw [walk_eq, walk_eq]
    split
    · exact .now (.ok (Likeness.pair ⟨rfl, ho⟩ hl))
    have hsearch := alike_earliestHit hl meshes o (o.position - safe)
    generalize earliestHit meshes o _ l = r, earliestHit meshes o _ m = r' at hsearch ⊢
    cases hsearch with
    | error halt => exact .now (.error halt)
    | @ok found found' hfound =>
      obtain ⟨hit, l₁⟩ := found
      obtain ⟨hit', m₁⟩ := found'
      obtain ⟨rfl, hl₁⟩ := hfound
      cases hit with
      | none => exact .now (.ok (Likeness.pair ⟨rfl, ho⟩ hl₁))
      | some hit =>
        cases left with
        | zero =>
          have hback : (putBack o safe).Within known.ids := ho.of_tag rfl
          exact .now (.ok (Likeness.pair ⟨rfl, hback⟩ (Ledger.alike_report hl₁ _)))
        | succ left =>
          refine (strike_later ho hl₁ (o.position - safe) hit).andThen fun more _ hstruck => ?_
          exact ih left (Nat.lt_succ_self left) hstruck _

end Resolve

/-! ## §E Looking at contacts -/

namespace DynamicObject

variable {o : DynamicObject α} {p q : ContactPool α}

open ContactPool (Alike)

/-- The same contact carries the object. -/
theorem ground?_eq (ho : o.Within known.ids) (h : Alike known p q) (tolerance : α) :
    o.ground? p tolerance = o.ground? q tolerance := by
  obtain ⟨hlist, hknown⟩ := h.toList ho.active
  unfold ground?
  simp only
  rw [← hlist]
  generalize hfirst : List.foldl _ none (p.toList o.activeContacts) = first
  generalize hsecond : List.foldl _ none (p.toList o.activeContacts) = second
  -- turn by turn the same contact is read
  have hsame : first = second := by
    rw [← hfirst, ← hsecond]
    refine List.foldl_ext _ _ none fun best id hid => ?_
    rw [h.get (hknown id hid)]
  rw [hsame]
  split
  · rfl
  · cases hshadow : o.shadowContact with
    | none => rfl
    | some id =>
      simp only
      rw [h.get (ho.shadow id hshadow)]

/-- The same contact is the first one with another entity. -/
theorem findContact?_eq (ho : o.Within known.ids) (h : Alike known p q) (other : EntityId) :
    o.findContact? p other = o.findContact? q other := by
  obtain ⟨hsame, hknown⟩ := h.toList ho.active
  unfold findContact?
  rw [← hsame]
  exact List.find?_congr fun id hid => by rw [h.get (hknown id hid)]

theorem isGrounded_eq (ho : o.Within known.ids) (h : Alike known p q) (tolerance : α) :
    o.isGrounded p tolerance = o.isGrounded q tolerance :=
  congrArg Option.isSome (ground?_eq ho h tolerance)

end DynamicObject

/-! ## §F Ground and water -/

/-- Water looks at the shadow, and may put it on the list. -/
theorem Water.alike_apply {o : DynamicObject α} {p q : ContactPool α} (ho : o.Within known.ids)
    (h : p.Alike known q) (config : Config α) :
    alike known (Water.apply o p config) (Water.apply o q config) := by
  have hstay : alike known (o, p) (o, q) := Likeness.pair ⟨rfl, ho⟩ h
  unfold Water.apply
  cases hshadow : o.shadowContact with
  | none => exact hstay
  | some id =>
    have hid := ho.shadow id hshadow
    simp only
    rw [h.get hid]
    split
    · exact hstay
    split
    · exact hstay
    split
    · refine Likeness.pair ⟨rfl, ?_, fun other hother => nomatch hother⟩ ((h.set hid _).linkFront ho.active hid)
      intro other hother
      exact Option.mem_some_iff.mp hother ▸ hid
    · refine Likeness.pair ⟨rfl, ho.of_tag ?_⟩ h
      unfold Water.float
      simp only
      split <;> rfl

/-- An element gives its contacts back. -/
theorem Element.alike_returnContacts {e : Element α} {p q : ContactPool α} (he : e.Within known.ids)
    (h : p.Alike known q) : alike known (e.returnContacts p) (e.returnContacts q) := by
  cases e with
  | trigger t => exact Likeness.pair ⟨rfl, fun id hid => nomatch hid⟩ (h.returnContacts he)
  | object o =>
    have ho : o.Within known.ids := he
    have hlist := h.returnContacts ho.active
    refine Likeness.pair ⟨rfl, DynamicObject.Within.bare o⟩ ?_
    cases hshadow : o.shadowContact with
    | none => exact hlist
    | some id => exact hlist.release (ho.shadow id hshadow)

namespace World

variable {l m : Ledger α} {befores : Array (Before α)}

theorem castShadow_later {s s' : DynamicObject α × Ledger α} (hs : alike known s s')
    (ground : Option (GroundHit α)) :
    Later known (castShadow s.1 ground s.2) (castShadow s'.1 ground s'.2) := by
  obtain ⟨o, l⟩ := s
  obtain ⟨o', m⟩ := s'
  obtain ⟨⟨rfl, ho⟩, hl⟩ := hs
  cases ground with
  | none => exact .now (Likeness.pair ⟨rfl, ho.active, ho.shadow⟩ hl)
  | some hit =>
    obtain ⟨more, hmore, hledgers, hshadows⟩ := Ledger.allocate_later hl
      ⟨hit.normal, ⟨o.position.x, hit.y, o.position.z⟩, hit.surface, EntityId.none⟩
    obtain ⟨hsame, hshadow⟩ := Likeness.alike_head_iff.mp hshadows
    refine ⟨more, hmore, Likeness.pair ⟨?_, (ho.mono hmore).active, hshadow⟩ hledgers⟩
    exact congrArg (fun shadowContact => { o with
      flags := o.flags.remove ObjectFlags.outOfBounds, shadowContact }) hsame

theorem snapToGround_eq {o : DynamicObject α} {p q : ContactPool α} (ho : o.Within known.ids)
    (h : p.Alike known q) (previous : Vec3 α) (config : Config α) :
    snapToGround o previous p config = snapToGround o previous q config := by
  unfold snapToGround
  cases hshadow : o.shadowContact with
  | none => rfl
  | some id =>
    simp only
    rw [h.get (ho.shadow id hshadow)]

/-! ## §G Settling -/

variable {w v : World α}

theorem sweepMeshes_later {o : DynamicObject α} (ho : o.Within known.ids) (hl : alike known l m)
    (hconfig : w.config = v.config) (hmeshes : w.staticMeshes = v.staticMeshes) (before : Before α) :
    Later known (w.sweepMeshes o before l) (v.sweepMeshes o before m) := by
  have hstart : alike known (o, l) (o, m) := Likeness.pair ⟨rfl, ho⟩ hl
  unfold sweepMeshes
  rw [hconfig, hmeshes]
  split
  · exact Resolve.walk_later hstart v.staticMeshes _ _ before.position
  · exact .now (.ok hstart)

/-- The last steps of settling: the ground below, water, and the kill plane. -/
theorem settle_later {o : DynamicObject α} (ho : o.Within known.ids) (hl : alike known l m)
    (hconfig : w.config = v.config) (hmeshes : w.staticMeshes = v.staticMeshes)
    (hplane : w.killPlane = v.killPlane) (before : Before α) :
    Later known (w.settle o before l) (v.settle o before m) := by
  unfold settle
  simp only
  rw [hmeshes, hconfig, hplane]
  refine (sweepMeshes_later ho hl hconfig hmeshes before).bind fun more hmore s s' hs => ?_
  refine (Later.foldlM (fun more _ x y mesh hxy => Resolve.mesh_later hxy mesh)
    v.staticMeshes hs).bind fun more hmore s s' hs => ?_
  rw [Ledger.guarding_eq hs.2, hs.1.1]
  cases s'.2.guarding (shadowCastOn v.staticMeshes s'.1.position) with
  | error halt => exact .now (.error halt)
  | ok ground =>
    have hstart : alike more (s'.1, s.2) (s'.1, s'.2) := Likeness.pair ⟨rfl, hs.1.1 ▸ hs.1.2⟩ hs.2
    refine (castShadow_later hstart ground).andThen fun more hmore hcast => ?_
    simp only [bind, Except.bind]
    generalize castShadow s'.1 ground s.2 = c, castShadow s'.1 ground s'.2 = c' at hcast ⊢
    obtain ⟨o₁, l₁⟩ := c
    obtain ⟨o₁', m₁⟩ := c'
    obtain ⟨⟨rfl, ho₁⟩, hl₁⟩ := hcast
    have hwater := Water.alike_apply ho₁ hl₁.2 v.config
    simp only
    generalize Water.apply o₁ l₁.pool v.config = x, Water.apply o₁ m₁.pool v.config = x' at hwater ⊢
    obtain ⟨o₂, p⟩ := x
    obtain ⟨o₂', q⟩ := x'
    obtain ⟨⟨rfl, ho₂⟩, hpools⟩ := hwater
    have hl₂ : alike more { l₁ with pool := p } { m₁ with pool := q } := Ledger.alike_withPool hl₁ hpools
    simp only
    rw [DynamicObject.isGrounded_eq ho₂ hpools, snapToGround_eq ho₂ hpools]
    generalize hsnapped : (if (before.grounded && o₂.isJumping == 0 &&
        !o₂.isGrounded q v.config.shadowGroundTolerance) = true then
        snapToGround o₂ before.position q v.config else o₂) = o₃
    have ho₃ : o₃.Within more.ids := by
      rw [← hsnapped]
      split
      · exact ho₂.of_tag (tag_snapToGround _ _ _ _)
      · exact ho₂
    cases hcaught : catchFalling? o₃ v.killPlane with
    | none => exact .now (.ok (Likeness.pair ⟨rfl, ho₃⟩ (Likeness.pair rfl hl₂)))
    | some o₄ =>
      have ho₄ := ho₃.of_tag (tag_catchFalling hcaught)
      exact .now (.ok (Likeness.pair ⟨rfl, ho₄⟩ (Likeness.pair rfl (Ledger.alike_report hl₂ _))))

/-- The element at a place is settled, if it is a movable object. -/
theorem settleAt_later {s s' : Array (Element α) × Ledger α × List EntityId} (hs : alike known s s')
    (hconfig : w.config = v.config) (hmeshes : w.staticMeshes = v.staticMeshes)
    (hplane : w.killPlane = v.killPlane) (i : Nat) :
    Later known (settleAt w befores s i) (settleAt v befores s' i) := by
  obtain ⟨es, l, fallen⟩ := s
  obtain ⟨es', m, fallen'⟩ := s'
  obtain ⟨⟨rfl, hes⟩, hl, rfl⟩ := hs
  have hstay : Later known (Except.ok (es, l, fallen) : Except (Interruption α) _)
      (.ok (es, m, fallen)) :=
    .now (.ok (Likeness.pair ⟨rfl, hes⟩ (Likeness.pair hl rfl)))
  unfold settleAt
  simp only
  cases he : es[i]? with
  | none => exact hstay
  | some e =>
    cases e with
    | trigger t => exact hstay
    | object o =>
      simp only
      split
      · exact hstay
      have ho : o.Within known.ids := hes _ (Array.mem_of_getElem? he)
      refine (settle_later ho hl hconfig hmeshes hplane _).bind fun more hmore s s' hs => ?_
      obtain ⟨o₁, fell, l₁⟩ := s
      obtain ⟨o₁', fell', m₁⟩ := s'
      obtain ⟨⟨rfl, ho₁⟩, rfl, hl₁⟩ := hs
      refine .now (.ok (Likeness.pair ?_ (Likeness.pair hl₁ rfl)))
      exact alike_setIfInBounds (alike_elements_mono ⟨rfl, hes⟩ hmore) i ho₁

/-! ## §H Pairs of elements -/

theorem resolveObjects_later {a b : DynamicObject α} (ha : a.Within known.ids) (hb : b.Within known.ids)
    (hl : alike known l m) (aBefore bBefore : Before α) :
    Later known (resolveObjects a aBefore b bBefore l) (resolveObjects a aBefore b bBefore m) := by
  unfold resolveObjects
  split
  · exact .now (Likeness.pair ⟨rfl, ha⟩ (Likeness.pair ⟨rfl, hb⟩ hl))
  simp only
  split
  · refine (Resolve.objectsSwept_later ha hb hl aBefore.position bBefore.position).andThen
      fun more hmore hswept => ?_
    generalize Resolve.objectsSwept a aBefore.position b bBefore.position l = r,
      Resolve.objectsSwept a aBefore.position b bBefore.position m = r' at hswept ⊢
    obtain ⟨met, a₁, b₁, l₁⟩ := r
    obtain ⟨met', a₁', b₁', m₁⟩ := r'
    obtain ⟨rfl, ⟨rfl, ha₁⟩, ⟨rfl, hb₁⟩, hl₁⟩ := hswept
    simp only
    split
    · exact .now (Likeness.pair ⟨rfl, ha₁⟩ (Likeness.pair ⟨rfl, hb₁⟩ hl₁))
    · exact Resolve.objects_later ha₁ hb₁ hl₁
  · exact Resolve.objects_later ha hb hl

theorem resolvePair_later {s s' : Array (Element α) × Ledger α} (hs : alike known s s')
    (p : BroadPhase.Pair) : Later known (resolvePair befores s p) (resolvePair befores s' p) := by
  obtain ⟨es, l⟩ := s
  obtain ⟨es', m⟩ := s'
  obtain ⟨⟨rfl, hes⟩, hl⟩ := hs
  have hstay : Later known (es, l) (es, m) := .now (Likeness.pair ⟨rfl, hes⟩ hl)
  -- a trigger at a place records an object, or does not
  have hrecords (o : DynamicObject α) (t : SpatialTrigger α) (ht : .trigger t ∈ es) (i : Nat) :
      Later known (es.setIfInBounds i (.trigger (Resolve.objectInTrigger o t l).1),
          (Resolve.objectInTrigger o t l).2)
        (es.setIfInBounds i (.trigger (Resolve.objectInTrigger o t m).1),
          (Resolve.objectInTrigger o t m).2) := by
    refine (Resolve.objectInTrigger_later (hes _ ht) hl o).andThen fun more hmore hrecorded => ?_
    obtain ⟨⟨hsame, hwithin⟩, hl₁⟩ := hrecorded
    rw [← hsame]
    exact .now (Likeness.pair (alike_setIfInBounds (alike_elements_mono ⟨rfl, hes⟩ hmore) i hwithin) hl₁)
  unfold resolvePair
  simp only
  cases ha : es[p.a]? with
  | none => exact hstay
  | some e =>
    cases hb : es[p.b]? with
    | none => cases e <;> exact hstay
    | some f =>
      have he : e.Within known.ids := hes _ (Array.mem_of_getElem? ha)
      have hf : f.Within known.ids := hes _ (Array.mem_of_getElem? hb)
      cases e with
      | trigger t =>
        cases f with
        | trigger u => exact hstay
        | object o => exact hrecords o t (Array.mem_of_getElem? ha) p.a
      | object a =>
        cases f with
        | trigger t => exact hrecords a t (Array.mem_of_getElem? hb) p.b
        | object b =>
          refine (resolveObjects_later he hf hl (befores.getD p.a default)
            (befores.getD p.b default)).andThen fun more hmore hmet => ?_
          obtain ⟨⟨hsameA, hwithinA⟩, ⟨hsameB, hwithinB⟩, hl₁⟩ := hmet
          simp only
          rw [← hsameA, ← hsameB]
          refine .now (Likeness.pair ?_ hl₁)
          have hes' : alike more es es := alike_elements_mono ⟨rfl, hes⟩ hmore
          exact alike_setIfInBounds (e := .object _) (alike_setIfInBounds (e := .object _) hes' p.a hwithinA)
            p.b hwithinB

theorem resolvePairs_later {es es' : Array (Element α)} (hes : alike known es es')
    (hl : alike known l m) (befores : Array (Before α)) :
    Later known (resolvePairs befores es l) (resolvePairs befores es' m) := by
  unfold resolvePairs
  rw [hes.1]
  have hstart : alike known (es', l) (es', m) := Likeness.pair ⟨rfl, hes.1 ▸ hes.2⟩ hl
  exact Later.foldl (fun more _ x y p hxy => resolvePair_later hxy p) _ hstart

/-! ## §I The start of a tick -/

theorem alike_startElement {e : Element α} {p q : ContactPool α} (he : e.Within known.ids)
    (h : p.Alike known q) (config : Config α) :
    alike known (startElement config e p) (startElement config e q) := by
  cases e with
  | trigger t =>
    exact Likeness.pair ⟨rfl, fun id hid => nomatch hid⟩ (Likeness.pair rfl (h.returnContacts he))
  | object o =>
    have ho : o.Within known.ids := he
    have hbefore : (⟨o.position, o.isGrounded p config.shadowGroundTolerance⟩ : Before α) =
        ⟨o.position, o.isGrounded q config.shadowGroundTolerance⟩ := by
      rw [DynamicObject.isGrounded_eq ho h]
    have hpools := (Element.alike_returnContacts he h).2
    have hbare : ({ o with activeContacts := none, shadowContact := none } : DynamicObject α).Within
        known.ids := .bare o
    have hmoved := hbare.of_tag
      (DynamicObject.tag_integrate { o with activeContacts := none, shadowContact := none }.tickCounters
        config.fixedTimeStep config.gravity)
    have hboxed := hmoved.of_tag (DynamicObject.tag_recalcBox _)
    exact Likeness.pair ⟨rfl, hboxed⟩ (Likeness.pair hbefore hpools)

/-- At the start of a tick all contacts go back, and the same is put down of where the elements were. -/
theorem alike_start {w v : World α} (hes : alike known w.elements v.elements)
    (hpools : w.pool.Alike known v.pool) (hconfig : w.config = v.config) :
    alike known (w.start.1.elements, w.start.2, w.start.1.pool)
      (v.start.1.elements, v.start.2, v.start.1.pool) := by
  obtain ⟨hsame, hwithin⟩ := hes
  have hbegin : alike known ((#[], #[], w.pool) : Array (Element α) × Array (Before α) × ContactPool α)
      (#[], #[], v.pool) :=
    Likeness.pair ⟨rfl, fun e he => (nomatch he)⟩ (Likeness.pair rfl hpools)
  unfold start
  rw [hsame, hconfig, ← Array.foldl_toList, ← Array.foldl_toList]
  refine List.foldl_rel (r := alike known) hbegin ?_
  rintro e he ⟨es, befores, p⟩ ⟨es', befores', q⟩ ⟨⟨rfl, hes⟩, rfl, hpq⟩
  obtain ⟨⟨hstarted, hkept⟩, hbefore, hpools⟩ := alike_startElement
    (hwithin e (hsame ▸ Array.mem_toList_iff.mp he)) hpq v.config
  refine Likeness.pair ⟨congrArg es.push hstarted, ?_⟩
    (Likeness.pair (congrArg befores.push hbefore) hpools)
  intro e' he'
  rcases Array.mem_push.mp he' with hmem | rfl
  · exact hes e' hmem
  · exact hkept

end World

end ConvexCollision
