import ConvexCollision.Proofs.Contact.Records
import ConvexCollision.Proofs.Pair.Shares
import ConvexCollision.Proofs.Polytope.Contacts

/-!
# ConvexCollision.Proofs.Pair.Separated -- two objects that overlap where they are

Two objects that overlap are pushed apart by a hit (`pushApart`), unless they are only told that they met.
Together they are moved by what the hit says, neither more nor less, and who is not to move does not
(`Separated`). It does not matter which of the two is named first: with the hit seen from the other side,
both end up the same (`Mirrored`). Only the contacts are taken one after the other, so when one is free and
no more, it goes to the object that is named first.
-/

namespace ConvexCollision

/-! ## §A Hits -/

section

variable {α : Type} [Scalar α]

/-- The hit as the other party sees it. -/
def Hit.swap (hit : Hit α) : Hit α :=
  { hit with contactA := hit.contactB, contactB := hit.contactA, normal := -hit.normal }

end

/-- The normal of a penetration is a unit vector, whatever the two sets are. -/
theorem normal_dot_self_of_penetration {a b : Support ℝ} {simplex : Simplex ℝ} {hit : Hit ℝ}
    (h : penetration a b simplex = .ok hit) : hit.normal.dot hit.normal = 1 := by
  obtain ⟨poly, hpoly, hhit⟩ := exists_hit_of_penetration h
  obtain ⟨face, hnearest, hnormal, -⟩ := Polytope.nearest_of_hit hhit
  have hindexed := Polytope.indexed_of_ofSimplex hpoly
  have hfit := (Polytope.allFit_of_ofSimplex hpoly).expand hindexed Polytope.maxSteps (a := a) (b := b)
  rw [hnormal]
  exact (hfit face (Polytope.nearestFace?_eq_some hnearest).1).unit

namespace Resolve

/-! ## §B One party -/

/-- The object is where it was, has the velocity that it had, and is not marked as pushed. -/
structure Unmoved (o o' : DynamicObject ℝ) : Prop where
  /-- It is where it was. -/
  position : o'.position = o.position
  /-- It has the velocity that it had. -/
  velocity : o'.velocity = o.velocity
  /-- It counts as pushed for as long as it did. -/
  isPushed : o'.isPushed = o.isPushed

theorem Unmoved.refl (o : DynamicObject ℝ) : Unmoved o o := ⟨rfl, rfl, rfl⟩

/-- An object takes its share of the way, if it has one. -/
theorem pushOut_position (o : DynamicObject ℝ) (normal : Vec3 ℝ) (depth : ℝ) {share : ℝ}
    (hshare : 0 ≤ share) :
    (pushOut o normal depth share).position = o.position + (depth * share) • normal := by
  unfold pushOut
  rw [Scalar.zero_real]
  by_cases hpos : 0 < share
  · rw [if_pos hpos]
    rfl
  · rw [if_neg hpos, le_antisymm (not_lt.mp hpos) hshare, mul_zero, zero_smul, add_zero]

theorem pushOut_of_not_pos (o : DynamicObject ℝ) (normal : Vec3 ℝ) (depth : ℝ) {share : ℝ}
    (hshare : ¬0 < share) : pushOut o normal depth share = o := by
  unfold pushOut
  rw [Scalar.zero_real, if_neg hshare]

/-- An object with a share is marked, and does not move on against the normal. -/
theorem pushOut_of_pos {o : DynamicObject ℝ} {normal : Vec3 ℝ} (hunit : normal.dot normal = 1) (depth : ℝ)
    {share : ℝ} (hshare : 0 < share) :
    (pushOut o normal depth share).isPushed = DynamicObject.oneTick ∧
      (0 ≤ o.type.bounce → 0 ≤ (pushOut o normal depth share).velocity.dot normal) := by
  unfold pushOut
  rw [Scalar.zero_real, if_pos hshare]
  exact ⟨rfl, fun hbounce => dot_correctVelocity_nonneg hunit hbounce _⟩

/-! ## §C Both parties -/

/-- Two objects, pushed apart by a hit. -/
def pushApart {α : Type} [Scalar α] (a b : DynamicObject α) (hit : Hit α) (l : Ledger α) :
    DynamicObject α × DynamicObject α × Ledger α :=
  recordPair (pushOut a (-hit.normal) hit.penetration (a.pushShares b).1)
    (pushOut b hit.normal hit.penetration (a.pushShares b).2) hit l

/-- The hit by which two objects are pushed apart, if they are: they overlap, neither asks for no more than
that, and the depth of the overlap can be told. -/
def overlapHit? {α : Type} [Scalar α] (a b : DynamicObject α) : Option (Hit α) :=
  match Overlap.find? a.support b.support (b.position - a.position) with
  | none => none
  | some simplex =>
    if !a.needsOverlap || !b.needsOverlap then none else (penetration a.support b.support simplex).toOption

/-- Two objects that are tested where they are are pushed apart by their hit. Without one they get a contact
each at most. -/
theorem objects_cases (a b : DynamicObject ℝ) (l : Ledger ℝ) :
    match overlapHit? a b with
    | some hit => objects a b l = pushApart a b hit l
    | none => Unmoved a (objects a b l).1 ∧ Unmoved b (objects a b l).2.1 := by
  unfold overlapHit? objects
  cases Overlap.find? a.support b.support (b.position - a.position) with
  | none => exact ⟨.refl a, .refl b⟩
  | some simplex =>
    dsimp only
    by_cases hbasic : (!a.needsOverlap || !b.needsOverlap) = true
    · rw [if_pos hbasic, if_pos hbasic]
      exact ⟨⟨rfl, rfl, rfl⟩, ⟨rfl, rfl, rfl⟩⟩
    · rw [if_neg hbasic, if_neg hbasic]
      cases penetration a.support b.support simplex with
      | error failure => exact ⟨.refl a, .refl b⟩
      | ok hit => rfl

/-- Two objects were separated by a hit. -/
structure Separated (a b : DynamicObject ℝ) (hit : Hit ℝ) (a' b' : DynamicObject ℝ) : Prop where
  /-- Solid objects are moved apart by the penetration, along the normal. -/
  apart : a.isTrigger = false → b.isTrigger = false →
    b'.position - a'.position = b.position - a.position + hit.penetration • hit.normal
  /-- Nothing moves when either is a trigger. -/
  occupied : (a.isTrigger || b.isTrigger) = true → Unmoved a a' ∧ Unmoved b b'
  /-- The first object does not move when it is fixed, or heavier than one that is not. -/
  firmA : a.isFixed = true ∨ b.isFixed = false ∧ b.weight.rank < a.weight.rank → Unmoved a a'
  /-- Nor does the second one. -/
  firmB : b.isFixed = true ∨ a.isFixed = false ∧ a.weight.rank < b.weight.rank → Unmoved b b'
  /-- When the first object moves it is marked, and it does not move on into the second one. -/
  movedA : Unmoved a a' ∨ a'.isPushed = DynamicObject.oneTick ∧
    (0 ≤ a.type.bounce → a'.velocity.dot hit.normal ≤ 0)
  /-- When the second object moves it is marked, and it does not move on into the first one. -/
  movedB : Unmoved b b' ∨ b'.isPushed = DynamicObject.oneTick ∧
    (0 ≤ b.type.bounce → 0 ≤ b'.velocity.dot hit.normal)

/-- The parts of the separation that two objects take add up to the hit. -/
theorem separated_of_pushApart {a b : DynamicObject ℝ} (hmeet : a.shouldCollide b = true) {hit : Hit ℝ}
    (hunit : hit.normal.dot hit.normal = 1) (l : Ledger ℝ) :
    Separated a b hit (pushApart a b hit l).1 (pushApart a b hit l).2.1 := by
  obtain ⟨hnonnegA, hshareA, hsum⟩ := DynamicObject.pushShares_spec a b
  obtain ⟨hnonnegB, hshareB, -⟩ := DynamicObject.pushShares_spec b a
  rw [DynamicObject.pushShares_swap a b, Prod.fst_swap] at hnonnegB hshareB
  have hback : (-hit.normal).dot (-hit.normal) = 1 := by rw [Vec3.neg_dot, Vec3.dot_neg, neg_neg, hunit]
  have hstayA (h : ¬a.GivesWay b) : Unmoved a (pushApart a b hit l).1 := by
    have hkeep := pushOut_of_not_pos a (-hit.normal) hit.penetration (hshareA.not.mpr h)
    exact ⟨congrArg (·.position) hkeep, congrArg (·.velocity) hkeep, congrArg (·.isPushed) hkeep⟩
  have hstayB (h : ¬b.GivesWay a) : Unmoved b (pushApart a b hit l).2.1 := by
    have hkeep := pushOut_of_not_pos b hit.normal hit.penetration (hshareB.not.mpr h)
    exact ⟨congrArg (·.position) hkeep, congrArg (·.velocity) hkeep, congrArg (·.isPushed) hkeep⟩
  constructor
  case apart =>
    intro ha hb
    have hplaceA : (pushApart a b hit l).1.position = _ :=
      pushOut_position a (-hit.normal) hit.penetration hnonnegA
    have hplaceB : (pushApart a b hit l).2.1.position = _ :=
      pushOut_position b hit.normal hit.penetration hnonnegB
    have hwhole := hsum ha hb (DynamicObject.not_both_fixed hmeet)
    rw [hplaceA, hplaceB, eq_sub_of_add_eq' hwhole]
    module
  case occupied =>
    intro htrigger
    refine ⟨hstayA fun h => ?_, hstayB fun h => ?_⟩
    · rw [h.solid, h.toSolid] at htrigger
      cases htrigger
    · rw [h.solid, h.toSolid] at htrigger
      cases htrigger
  case firmA => exact fun hfirm => hstayA fun h => h.not_firm hfirm
  case firmB => exact fun hfirm => hstayB fun h => h.not_firm hfirm
  case movedA =>
    by_cases h : a.GivesWay b
    · right
      obtain ⟨hmark, hvelocity⟩ := pushOut_of_pos hback hit.penetration (hshareA.mpr h)
      refine ⟨hmark, fun hbounce => ?_⟩
      have hleaves := hvelocity hbounce
      rw [Vec3.dot_neg, neg_nonneg] at hleaves
      exact hleaves
    · exact .inl (hstayA h)
  case movedB =>
    by_cases h : b.GivesWay a
    · exact .inr (pushOut_of_pos hunit hit.penetration (hshareB.mpr h))
    · exact .inl (hstayB h)

/-! ## §D From the other side -/

/-- Two objects came out of two steps the same but for the handles of their contacts, the second step naming
them the other way round. Their lists hold the same, unless one contact was free and no more: that one went
to the object that was named first. -/
structure Mirrored (a b : DynamicObject ℝ) (l : Ledger ℝ)
    (result mirrored : DynamicObject ℝ × DynamicObject ℝ × Ledger ℝ) : Prop where
  /-- The first object is the same. -/
  sameA : { result.1 with activeContacts := none } = { mirrored.2.1 with activeContacts := none }
  /-- The second object is the same. -/
  sameB : { result.2.1 with activeContacts := none } = { mirrored.1 with activeContacts := none }
  /-- Their lists hold the same contacts. -/
  lists : ∀ {n heads loose}, l.pool.Balanced n (a.activeContacts :: b.activeContacts :: heads) loose →
    l.pool.freeCount ≠ 1 →
    result.2.2.pool.contacts result.1.activeContacts =
        mirrored.2.2.pool.contacts mirrored.2.1.activeContacts ∧
      result.2.2.pool.contacts result.2.1.activeContacts =
        mirrored.2.2.pool.contacts mirrored.1.activeContacts

theorem pushApart_records (a b : DynamicObject ℝ) (hit : Hit ℝ) (l : Ledger ℝ) :
    RecordsPair a b l hit (pushApart a b hit l).1 (pushApart a b hit l).2.1 (pushApart a b hit l).2.2 :=
  RecordsPair.of_tag (tag_pushOut _ _ _ _) (tag_pushOut _ _ _ _) rfl (recordPair_records _ _ _ _)

/-- Unless one contact is free and no more, whoever comes first leaves one for the other party. -/
theorem take_pred {c : Contact ℝ} {n : Nat} (h : n ≠ 1) : [c].take (n - 1) = [c].take n := by
  match n with
  | 0 => rfl
  | 1 => exact absurd rfl h
  | n + 2 => simp

/-- The other party sees the same hit from its side. -/
theorem pushApart_mirrored (a b : DynamicObject ℝ) (hit : Hit ℝ) (l : Ledger ℝ) :
    Mirrored a b l (pushApart a b hit l) (pushApart b a hit.swap l) := by
  have hshares := DynamicObject.pushShares_swap a b
  have hnormal : -hit.swap.normal = hit.normal := neg_neg hit.normal
  constructor
  case sameA =>
    show _ = { pushOut a hit.swap.normal hit.penetration (b.pushShares a).2 with activeContacts := none }
    rw [hshares]
    rfl
  case sameB =>
    show _ = { pushOut b (-hit.swap.normal) hit.penetration (b.pushShares a).1 with activeContacts := none }
    rw [hshares, hnormal]
    rfl
  case lists =>
    intro n heads loose hbalanced hfree
    have hbooked := hbalanced.booked
    have hresult := pushApart_records a b hit l hbooked
    have hmirrored := pushApart_records b a hit.swap l (hbooked.perm (List.Perm.swap _ _ _) (List.Perm.refl _))
    constructor
    · rw [hresult.contents _ List.mem_cons_self,
        hmirrored.contents _ (List.mem_cons_of_mem _ List.mem_cons_self), take_pred hfree]
      rfl
    · rw [hresult.contents _ (List.mem_cons_of_mem _ List.mem_cons_self),
        hmirrored.contents _ List.mem_cons_self, take_pred hfree, hnormal]
      rfl

/-- **A hit separates two objects by its penetration.** Of two objects that are tested against each other,
solid ones are moved apart by exactly the penetration along the normal, and nothing moves when either is a
trigger. What is fixed stays as it was, and so does what is heavier than an object that is not. Whoever moves
has no velocity into the other party afterwards. Naming the objects the other way round, with the hit seen
from the other side, changes nothing but the handles of the contacts. Without a hit nothing moves. -/
theorem objects_separated (a b : DynamicObject ℝ) (hmeet : a.shouldCollide b = true) (l : Ledger ℝ) :
    (∀ simplex hit, penetration a.support b.support simplex = .ok hit →
      Separated a b hit (pushApart a b hit l).1 (pushApart a b hit l).2.1 ∧
        Mirrored a b l (pushApart a b hit l) (pushApart b a hit.swap l)) ∧
    match overlapHit? a b with
    | some hit => objects a b l = pushApart a b hit l
    | none => Unmoved a (objects a b l).1 ∧ Unmoved b (objects a b l).2.1 := by
  refine ⟨?_, objects_cases a b l⟩
  intro simplex hit hhit
  exact ⟨separated_of_pushApart hmeet (normal_dot_self_of_penetration hhit) l, pushApart_mirrored a b hit l⟩

/-! ## §E A cube in the floor of a block -/

/-- A block about the origin. -/
noncomputable def block : DynamicObject ℝ :=
  .create ⟨1⟩ ⟨.box ⟨9, 9, 9⟩, 0, 0, 0⟩ Layers.all ⟨0, 0, 0⟩ none

/-- A cube that reaches through the floor of the block. -/
noncomputable def sunkCube : DynamicObject ℝ :=
  .create ⟨2⟩ ⟨.box ⟨1, 1, 1⟩, 0, 0, 0⟩ Layers.all ⟨0, 0, -9⟩ none

/-- The cube is pushed out of the block, and the block away from the cube. -/
theorem sunkCube_separated : block.shouldCollide sunkCube = true ∧
    ∃ hit, penetration block.support sunkCube.support Polytope.sunkenStart = .ok hit ∧
      hit.penetration = 1 ∧ ∀ l, Separated block sunkCube hit (pushApart block sunkCube hit l).1
        (pushApart block sunkCube hit l).2.1 := by
  have hmeet : block.shouldCollide sunkCube = true := rfl
  have hblock : block.support = Polytope.largeBox := by
    funext d
    ext <;> simp [DynamicObject.support, block, DynamicObject.create, DynamicObject.recalcBox,
      Polytope.largeBox]
  have hcube : sunkCube.support = Polytope.sunkenBox := by
    funext d
    ext <;> simp [DynamicObject.support, sunkCube, DynamicObject.create, DynamicObject.recalcBox,
      Polytope.sunkenBox, Support.translate]
  obtain ⟨hit, hhit, hdepth⟩ := Polytope.sunkenBox_hit
  rw [← hblock, ← hcube] at hhit
  exact ⟨hmeet, hit, hhit, hdepth, fun l => ((objects_separated block sunkCube hmeet l).1 _ hit hhit).1⟩

end Resolve

end ConvexCollision
