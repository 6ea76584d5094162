import ConvexCollision.Overlap
import ConvexCollision.Placement
import ConvexCollision.Proofs.Except
import ConvexCollision.Proofs.Exact.Support
import ConvexCollision.Proofs.Polytope.Growth
import ConvexCollision.Proofs.Single.Positive

/-!
# ConvexCollision.Proofs.Polytope.Converged -- when moving apart by the depth of an answer is enough

An answer is converged when the difference of the two sets reaches less than the tolerance beyond it, along
its own normal. This is the test that ends the growth of a polytope, and it is the only exit from the growth
that makes the test: the other ones leave the nearest face as it is, and the answer is taken from it all the
same. So an answer of a positive depth is converged if growth ended by that test, not converged if it ended
because no face could be added, and left to chance when the steps were used up
(`penetration_converged_iff`).

In exact arithmetic a converged answer says what it is for: moved by the depth along the normal, the two sets
overlap by less than the tolerance (`overlap_lt_of_converged`).
-/

namespace ConvexCollision

/-! ## §A Taking away what is not positive -/

/-- Taking away a number that is not positive leaves no less than taking away zero. -/
class Scalar.SubOrdered (α : Type) [Scalar α] : Prop extends Scalar.Signed α where
  /-- The difference from a number that is not positive, where there is one. -/
  sub_zero_le_sub : ∀ {a b : α}, b ≤ 0 → a - b ≤ a - b → a - 0 ≤ a - b

namespace Single

open Float.Model

theorem finite_zero : (parts 0).isFinite = true := rfl

/-- A finite number less the negative infinity is the positive one. -/
theorem at_sub_negative_infinity {f : UnpackedFloat} (hf : f.isFinite = true) :
    At (UnpackedFloat.sub Format.binary32 f (.infinity .negative)) beyond := by
  cases f with
  | notANumber => exact absurd hf Bool.false_ne_true
  | infinity s => exact absurd hf Bool.false_ne_true
  | zero s => exact at_infinity .positive
  | finite s m e hm => exact at_infinity .positive

theorem sub_zero_le_sub {x y : Float32} (hy : y ≤ 0) (h : x - y ≤ x - y) : x - 0 ≤ x - y := by
  obtain ⟨hdefined, -⟩ := le_iff.mp h
  obtain ⟨dy, -, hvalue⟩ := le_iff.mp hy
  obtain ⟨dx, -⟩ := defined_both (UnpackedFloat.sub Format.binary32) (fun _ => rfl)
    (fun f => by cases f <;> rfl) hdefined
  show ofParts (UnpackedFloat.sub _ (parts x) (parts 0)) ≤
    ofParts (UnpackedFloat.sub _ (parts x) (parts y))
  rcases finite_or_infinity dx with fx | ⟨s, hs⟩
  · have hleft := at_sub (held_parts x) (held_parts 0) fx finite_zero
    rcases finite_or_infinity dy with fy | ⟨t, ht⟩
    · exact le_of_at hleft (at_sub (held_parts x) (held_parts y) fx fy)
        (settle_mono 0 (Int.sub_le_sub_left hvalue _))
    · have hnegative : t = .negative := by
        rw [value_infinity ht] at hvalue
        cases t
        · rfl
        · exact absurd hvalue (by decide)
      rw [ht, hnegative]
      exact le_of_at hleft (at_sub_negative_infinity fx) (settle_le_beyond _ 0)
  · rw [hs]
    have hleft := at_sub_infinity s finite_zero
    rcases finite_or_infinity dy with fy | ⟨t, ht⟩
    · exact le_of_at hleft (at_sub_infinity s fy) (Int.le_refl _)
    · -- two infinite numbers have a difference only when they are opposite
      have hsub : x - y = ofParts (UnpackedFloat.sub Format.binary32 (.infinity s) (.infinity t)) := by
        rw [← hs, ← ht]
        rfl
      rw [hsub] at hdefined
      rw [ht]
      cases s <;> cases t
      · exact absurd hdefined not_defined_notANumber
      · exact le_of_at hleft (at_infinity .negative) (Int.le_refl _)
      · exact le_of_at hleft (at_infinity .positive) (Int.le_refl _)
      · exact absurd hdefined not_defined_notANumber

end Single

instance : Scalar.SubOrdered Float32 where
  sub_zero_le_sub := Single.sub_zero_le_sub

/-! ## §B Converged answers -/

/-- Along the normal of an answer the difference of the two sets reaches less than the tolerance beyond the
depth. -/
def Hit.Converged {α : Type} [Scalar α] (a b : Support α) (r : Hit α) : Prop :=
  r.normal.dot (SupportPoint.along a b r.normal).diff - r.penetration < Polytope.tolerance

instance {α : Type} [Scalar α] (a b : Support α) (r : Hit α) : Decidable (r.Converged a b) :=
  inferInstanceAs (Decidable (_ < _))

namespace Polytope

variable {α : Type} [Scalar α] {a b : Support α} {poly : Polytope α} {r : Hit α}

/-- An answer is converged when the growth of its polytope ends at once in the nearest face. -/
theorem converged_of_settled [Scalar.SubOrdered α] (h : poly.hit = .ok r)
    (hturn : poly.turn a b = .inr .settled) : r.Converged a b := by
  obtain ⟨face, hface, hnormal, hdepth⟩ := nearest_of_hit h
  have hbeyond := (turn_eq_settled_iff hface).mp hturn
  have hdefined := Scalar.Ordered.defined_left (Scalar.Ordered.lt_iff.mp hbeyond).1
  have hzero : (0 : α) ≤ 0 := Scalar.Ordered.defined_left Scalar.Signed.zero_le_one
  have hdistance := (Scalar.Strict.defined_sub hdefined).2
  unfold Hit.Converged
  rw [hnormal, hdepth, Scalar.maxNum_eq hdistance hzero]
  split
  · exact hbeyond
  · next hneg =>
    have hle := Scalar.le_of_not_lt hdistance hzero hneg
    exact Scalar.lt_of_le_of_lt (Scalar.SubOrdered.sub_zero_le_sub hle hdefined) hbeyond

/-- An answer of a positive depth is converged only then. -/
theorem settled_of_converged [Scalar.SubOrdered α] (h : poly.hit = .ok r) (hpos : 0 < r.penetration)
    (hconverged : r.Converged a b) : poly.turn a b = .inr .settled := by
  obtain ⟨face, hface, hnormal, hdepth⟩ := nearest_of_hit h
  have hzero : (0 : α) ≤ 0 := Scalar.Ordered.defined_left Scalar.Signed.zero_le_one
  have hsame : r.penetration = face.distance := by
    rw [hdepth] at hpos ⊢
    by_cases hdistance : face.distance ≤ face.distance
    · rw [Scalar.maxNum_eq hdistance hzero] at hpos ⊢
      split
      · rfl
      · next hneg =>
        rw [if_neg hneg] at hpos
        exact absurd hpos (Scalar.lt_irrefl 0)
    · rw [Scalar.maxNum_of_undefined 0 hdistance] at hpos
      exact absurd hpos (Scalar.lt_irrefl 0)
  unfold Hit.Converged at hconverged
  rw [hnormal, hsame] at hconverged
  exact (turn_eq_settled_iff hface).mpr hconverged

end Polytope

open Polytope in
/-- **Which answers are converged.** An answer comes from a polytope that was grown from the simplex. If
growth ended because the nearest face could not be pushed out any more, it is converged. If its depth is
positive, it is converged only if growth ended that way, or the steps were used up and one more would have
found that nothing is left to push out. -/
theorem penetration_converged_iff {α : Type} [Scalar α] [Scalar.SubOrdered α] {a b : Support α}
    {simplex : Simplex α} {r : Hit α} (h : penetration a b simplex = .ok r) :
    ∃ poly, ofSimplex simplex = .ok poly ∧
      (poly.ending a b maxSteps = .settled → r.Converged a b) ∧
      (0 < r.penetration → (r.Converged a b ↔ poly.ending a b maxSteps = .settled ∨
        poly.ending a b maxSteps = .spent ∧
          (poly.expand a b maxSteps).turn a b = .inr .settled)) := by
  obtain ⟨poly, hpoly, hhit⟩ := exists_hit_of_penetration h
  have hsettled (he : poly.ending a b maxSteps = .settled) :
      (poly.expand a b maxSteps).turn a b = .inr .settled :=
    turn_expand he (by decide)
  refine ⟨poly, hpoly, fun he => converged_of_settled hhit (hsettled he), fun hpos => ⟨?_, ?_⟩⟩
  · intro hconverged
    have hturn := settled_of_converged hhit hpos hconverged
    by_cases hspent : poly.ending a b maxSteps = .spent
    · exact .inr ⟨hspent, hturn⟩
    · refine .inl ?_
      have hlast := turn_expand rfl hspent
      rw [hturn] at hlast
      exact (Sum.inr.inj hlast).symm
  · rintro (he | ⟨-, hturn⟩)
    · exact converged_of_settled hhit (hsettled he)
    · exact converged_of_settled hhit hturn

/-- A box of half sizes `size` around `center`. -/
def boxAt (size center : Vec3 Float32) : Support Float32 :=
  (⟨.box size, center, none⟩ : Placed Float32).support

open Polytope in
/-- Two boxes that overlap by a half: the tetrahedron found by the overlap test has its nearest face on their
common side, and the answer is converged. -/
theorem shallowBoxes_converged :
    let a := boxAt ⟨1, 1, 1⟩ ⟨0, 0, 0⟩
    let b := boxAt ⟨3, 3, 1⟩ ⟨0.25, 0.25, -1.5⟩
    ∃ s r, Overlap.find? a b ⟨0, 1, 0⟩ = some s ∧ penetration a b s = .ok r ∧ 0 < r.penetration ∧
      r.Converged a b := by
  intro a b
  have hrun : ((Overlap.find? a b ⟨0, 1, 0⟩).bind fun s => (penetration a b s).toOption.bind fun r =>
      (ofSimplex s).toOption.map fun poly =>
        decide (0 < r.penetration) && decide (poly.ending a b maxSteps = .settled)) = some true := by
    decide +kernel
  obtain ⟨s, hs, hrun⟩ := Option.bind_eq_some_iff.mp hrun
  obtain ⟨r, hr, hrun⟩ := Option.bind_eq_some_iff.mp hrun
  obtain ⟨poly, hpoly, hrun⟩ := exists_eq_ok_of_map hrun
  obtain ⟨hpos, hending⟩ := Bool.and_eq_true_iff.mp hrun
  have hpos := of_decide_eq_true hpos
  obtain ⟨poly', hpoly', -, hiff⟩ := penetration_converged_iff (eq_ok_of_toOption hr)
  obtain rfl : poly = poly' := Except.ok.inj (hpoly.symm.trans hpoly')
  exact ⟨s, r, hs, eq_ok_of_toOption hr, hpos, (hiff hpos).mpr (.inl (of_decide_eq_true hending))⟩

/-- Growth can end with an answer that is not converged. After two steps, the support point of these boxes
lies on the line of an edge of the rim, so that a new face would have no area: the answer is a face at a
distance of 2.06, with that point more than 3 beyond it. -/
theorem deepBoxes_not_converged :
    let a := boxAt ⟨1, 3, 2⟩ ⟨0, 0, 0⟩
    let b := boxAt ⟨3, 3, 2⟩ ⟨-1.5, 0.25, 0.25⟩
    ∃ s r, Overlap.find? a b ⟨0, 1, 0⟩ = some s ∧ penetration a b s = .ok r ∧ ¬ r.Converged a b ∧
      3 < r.normal.dot (SupportPoint.along a b r.normal).diff - r.penetration := by
  intro a b
  have hrun : ((Overlap.find? a b ⟨0, 1, 0⟩).bind fun s => (penetration a b s).toOption.map fun r =>
      decide (¬ r.Converged a b) &&
        decide (3 < r.normal.dot (SupportPoint.along a b r.normal).diff - r.penetration)) = some true := by
    decide +kernel
  obtain ⟨s, hs, hrun⟩ := Option.bind_eq_some_iff.mp hrun
  obtain ⟨r, hr, hrun⟩ := exists_eq_ok_of_map hrun
  obtain ⟨hgap, hfar⟩ := Bool.and_eq_true_iff.mp hrun
  exact ⟨s, r, hs, hr, of_decide_eq_true hgap, of_decide_eq_true hfar⟩

/-! ## §C What a converged answer is good for -/

/-- **Moved by the depth, two sets overlap by less than the tolerance.** In exact arithmetic, along the
normal of a converged answer no two points of the sets overlap by the tolerance more than the depth. -/
theorem overlap_lt_of_converged {a b : Support ℝ} {A B : Set (Vec3 ℝ)} (ha : IsSupport a A)
    (hb : IsSupport b B) {r : Hit ℝ} (h : r.Converged a b) {x y : Vec3 ℝ} (hx : x ∈ A) (hy : y ∈ B) :
    r.normal.dot (x - y) < r.penetration + Polytope.tolerance := by
  have hfurthest := (ha.sub hb).le r.normal (x - y) (Set.sub_mem_sub hx hy)
  have hbeyond : r.normal.dot (SupportPoint.along a b r.normal).diff - r.penetration <
      Polytope.tolerance := h
  calc r.normal.dot (x - y) ≤ r.normal.dot (SupportPoint.along a b r.normal).diff := hfurthest
    _ < r.penetration + Polytope.tolerance := sub_lt_iff_lt_add'.mp hbeyond

end ConvexCollision
