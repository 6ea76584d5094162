import Mathlib.LinearAlgebra.AffineSpace.Independent
import ConvexCollision.Proofs.Overlap.Verdict
import ConvexCollision.Proofs.Simplex.Balanced

/-!
# ConvexCollision.Proofs.Overlap.Independent -- the simplex of the search never degenerates

Between two turns the points that the search holds lie in the plane through the point of their hull that the
direction starts from, square to the direction, and each of them carries weight in that point (`State.Poised`). A
point that a turn adds is not short of the origin, and so off that plane: the grown simplex is affinely independent
when the points held were (`State.Poised.grown`). The turn goes on with those of its points that carry weight, and
they lie in such a plane again (`State.Poised.onward`).

No threshold of the projection matters here. Where one fires, the direction may start from another point of the
hull than the nearest one, but the points that carry weight lie in the plane through that point all the same. Nor
do the points that are asked for have to be the furthest ones; they only have to be finite, for the projection to
find weights.

The points that a simplex is completed with, after the search, are another matter: they are only tested not to
repeat a point that is held.
-/

namespace ConvexCollision

/-- What is off a plane is off every flat in it. -/
theorem Vec3.notMem_affineSpan {S : Set (Vec3 ℝ)} {v x : Vec3 ℝ} {c : ℝ} (hplane : ∀ y ∈ S, v.dot y = c)
    (hoff : v.dot x ≠ c) : x ∉ affineSpan ℝ S := by
  intro hx
  refine hoff (affineSpan_induction hx hplane fun t p q r hp hq hr => ?_)
  rw [vsub_eq_sub, vadd_eq_add, dot_add, dot_smul, dot_sub, hp, hq, hr, sub_self, mul_zero, zero_add]

namespace Simplex

variable {s : Simplex ℝ} {w : Fin s.length → ℝ}

/-! ## §A Points that are added -/

/-- A point off a plane that holds the others is affinely independent of them. -/
theorem affineIndependent_append {p : SupportPoint ℝ} {v : Vec3 ℝ} {c : ℝ}
    (h : AffineIndependent ℝ s.place) (hplane : ∀ i, v.dot (s.place i) = c) (hoff : v.dot p.diff ≠ c) :
    AffineIndependent ℝ (place (s ++ [p])) := by
  let last : Fin (s ++ [p]).length := ⟨s.length, by simp⟩
  have hold {i : Fin (s ++ [p]).length} (hi : i ≠ last) : i.val < s.length := by
    have hlt : i.val < s.length + 1 := i.isLt.trans_eq List.length_append
    exact lt_of_le_of_ne (Nat.lt_succ_iff.mp hlt) fun heq => hi (Fin.ext heq)
  have hplace {i : Fin (s ++ [p]).length} (hi : i ≠ last) :
      place (s ++ [p]) i = s.place ⟨i.val, hold hi⟩ := by
    simp [place, List.getElem_append_left (hold hi)]
  have hlast : place (s ++ [p]) last = p.diff := by
    simp [place, last]
  let others : {i // i ≠ last} ↪ Fin s.length :=
    ⟨fun i => ⟨i.1.val, hold i.2⟩, fun i j hij => Subtype.ext (Fin.ext (Fin.mk.inj hij))⟩
  have hothers : (fun i : {i // i ≠ last} => place (s ++ [p]) i) = s.place ∘ others :=
    funext fun i => hplace i.2
  refine AffineIndependent.affineIndependent_of_notMem_span (i := last) ?_ ?_
  · rw [hothers]
    exact h.comp_embedding others
  · refine Vec3.notMem_affineSpan (v := v) (c := c) ?_ (hlast ▸ hoff)
    rintro _ ⟨i, hi, rfl⟩
    rw [hplace hi]
    exact hplane _

/-! ## §B Points that are kept -/

theorem retain_eq_map (w : Fin s.length → ℝ) : (s.retain (List.ofFn w)).1 =
    ((List.finRange s.length).filter fun i => !Scalar.same (w i) 0).map s.get := by
  rw [retain, zip_ofFn, List.ofFn_eq_map, List.filter_map, List.unzip_fst, List.map_map]
  simp only [Scalar.zero_real]
  rfl

/-- The places that are kept are those whose points carry weight. -/
theorem exists_places (w : Fin s.length → ℝ) :
    ∃ f : Fin (s.retain (List.ofFn w)).1.length ↪ Fin s.length,
      place (s.retain (List.ofFn w)).1 = s.place ∘ f ∧ ∀ i, w i ≠ 0 ↔ i ∈ Set.range f := by
  rw [retain_eq_map]
  let carriers := (List.finRange s.length).filter fun i => !Scalar.same (w i) 0
  have hnodup : carriers.Nodup := (List.nodup_finRange _).filter _
  have hlength : (carriers.map s.get).length = carriers.length := List.length_map _
  refine ⟨⟨fun j => carriers.get (j.cast hlength), fun j k hjk => ?_⟩, funext fun j => ?_, fun i => ?_⟩
  · exact Fin.cast_injective hlength (hnodup.get_inj_iff.mp hjk)
  · simp [place, carriers]
  · have hmem : i ∈ carriers ↔ w i ≠ 0 := by
      rw [List.mem_filter, keeps_iff]
      exact and_iff_right (List.mem_finRange i)
    rw [← hmem, List.mem_iff_get]
    constructor
    · rintro ⟨j, rfl⟩
      exact ⟨j.cast hlength.symm, rfl⟩
    · rintro ⟨j, rfl⟩
      exact ⟨_, rfl⟩

/-- What is kept makes up the point that the whole simplex does, each point with a weight above zero. -/
theorem exists_weights_kept (hw : w ∈ stdSimplex ℝ (Fin s.length)) :
    ∃ u : Fin (s.retain (List.ofFn w)).1.length → ℝ, (∀ i, 0 < u i) ∧ ∑ i, u i = 1 ∧
      ∑ i, u i • place (s.retain (List.ofFn w)).1 i = combine s.place w := by
  obtain ⟨f, hplace, hcarries⟩ := exists_places w
  have hnone {i : Fin s.length} (hi : i ∉ Set.range f) : w i = 0 := not_ne_iff.mp (mt (hcarries i).mp hi)
  refine ⟨w ∘ f, fun j => ?_, ?_, ?_⟩
  · exact lt_of_le_of_ne (hw.1 (f j)) ((hcarries (f j)).mpr ⟨j, rfl⟩).symm
  · rw [← hw.2]
    exact Fintype.sum_of_injective f f.injective _ _ (fun i hi => hnone hi) fun j => rfl
  · refine Fintype.sum_of_injective f f.injective _ _ (fun i hi => ?_) fun j => ?_
    · rw [hnone hi, zero_smul]
    · rw [hplace]
      rfl

theorem affineIndependent_kept (w : Fin s.length → ℝ) (h : AffineIndependent ℝ s.place) :
    AffineIndependent ℝ (place (s.retain (List.ofFn w)).1) := by
  obtain ⟨f, hplace, -⟩ := exists_places w
  rw [hplace]
  exact h.comp_embedding f

end Simplex

namespace Overlap

variable {a b : Support ℝ} {s s' : State ℝ}

/-! ## §C Turns -/

/-- The search is at the head of a turn: it holds affinely independent points of a plane square to the
direction, and the direction leads to the origin from a point inside their hull. -/
structure State.Poised (s : State ℝ) : Prop where
  /-- No point is too far away for the projection. -/
  finite : ∀ x ∈ s.simplex.points, x.lengthSq < Scalar.maxFinite
  /-- There is room for one more. -/
  length_le : s.simplex.length ≤ 3
  /-- The origin is not near. -/
  far : containsOriginSq ≤ s.dir.lengthSq
  /-- The points lie in the plane through the one that the direction starts from, square to the direction. -/
  level : ∀ p ∈ s.simplex, (-s.dir).dot p.diff = (-s.dir).lengthSq
  /-- Every point carries weight in that one. -/
  weights : ∃ w : Fin s.simplex.length → ℝ, (∀ i, 0 < w i) ∧ ∑ i, w i = 1 ∧
    ∑ i, w i • s.simplex.place i = -s.dir
  /-- The points are affinely independent. -/
  independent : AffineIndependent ℝ s.simplex.place

theorem affineIndependent_initial (a b : Support ℝ) (d : Vec3 ℝ) :
    AffineIndependent ℝ (initial a b d).simplex.place :=
  have : Subsingleton (Fin (initial a b d).simplex.length) := inferInstanceAs (Subsingleton (Fin 1))
  affineIndependent_of_subsingleton ℝ _

section Poised

variable (hbound : ∀ d, (SupportPoint.along a b d).diff.lengthSq < Scalar.maxFinite)

include hbound

theorem initial_poised (d : Vec3 ℝ) (hfar : ¬(initial a b d).dir.lengthSq < containsOriginSq) :
    (initial a b d).Poised where
  finite := by
    rw [initial_points]
    rintro _ rfl
    exact hbound _
  length_le := Nat.le_add_left 1 2
  far := not_lt.mp hfar
  level p hp := by
    rw [List.mem_singleton.mp hp]
    simp [initial, Vec3.lengthSq_eq]
  weights := by
    refine ⟨fun _ => 1, fun _ => one_pos, Fin.sum_univ_one _, (Fin.sum_univ_one _).trans ?_⟩
    rw [one_smul]
    exact (neg_neg _).symm
  independent := affineIndependent_initial a b d

namespace State.Poised

variable (hs : s.Poised)

include hs

omit hbound in
/-- **A point that is added is independent of the others**: it is not short of the origin, and they are. -/
theorem grown (hpast : ¬s.dir.dot (s.asked a b).diff < 0) : AffineIndependent ℝ (s.grown a b).place := by
  have hpos : 0 < (-s.dir).lengthSq := by
    rw [Vec3.lengthSq_neg]
    exact containsOriginSq_pos.trans_le hs.far
  -- along the vector from the origin the points held are at its square, and the new one is at zero or below
  refine Simplex.affineIndependent_append hs.independent (fun i => hs.level _ (List.get_mem _ i)) ?_
  rw [Vec3.neg_dot]
  exact ((neg_nonpos.mpr (not_lt.mp hpast)).trans_lt hpos).ne

theorem grown_finite : ∀ x ∈ (s.grown a b).points, x.lengthSq < Scalar.maxFinite := by
  rw [grown_points]
  rintro x (rfl | hx)
  · exact hbound _
  · exact hs.finite x hx

omit hbound in
theorem length_grown_le : (s.grown a b).length ≤ 4 := by
  rw [State.grown, List.length_append]
  exact Nat.succ_le_succ hs.length_le

/-- The point that is reached has the weights of the projection, the points that carry weight lie in the plane
through it, and they are what is kept. -/
theorem exists_reached : ∃ w ∈ stdSimplex ℝ (Fin (s.grown a b).length), IsBalanced (s.grown a b).place w ∧
    s.reached a b = combine (s.grown a b).place w ∧
    s.kept a b = ((s.grown a b).retain (List.ofFn w)).1 := by
  have hfin := hs.grown_finite (a := a) (b := b) hbound
  have hlength := hs.length_grown_le (a := a) (b := b)
  obtain ⟨w, hw, hnearest⟩ := Simplex.exists_projection (by simp [State.grown]) hlength hfin
  refine ⟨w, hw.weights, hw.balanced hlength fun i => hfin _ (Simplex.place_mem i), ?_, ?_⟩
  · rw [State.reached, hnearest]
  · rw [State.kept, hnearest]

/-- **An undecided turn leads to the head of the next one.** -/
theorem onward (hturn : turn a b s = .onward s') : s'.Poised := by
  obtain ⟨w, hw, hbalanced, hreached, hkept⟩ := hs.exists_reached (a := a) (b := b) hbound
  obtain ⟨-, hpast, hfar, hfour, rfl⟩ := turn_onward hturn
  rw [Scalar.zero_real] at hpast
  have hroom : (s.kept a b).length ≤ 4 := hkept ▸ Simplex.kept_length_le.trans hs.length_grown_le
  refine ⟨?_, Nat.lt_succ_iff.mp (lt_of_le_of_ne hroom hfour), ?_, ?_, ?_, ?_⟩
  · rw [hkept]
    exact fun x hx => hs.grown_finite hbound x (Simplex.kept_points_subset hx)
  · rw [Vec3.lengthSq_neg]
    exact not_lt.mp hfar
  · rw [neg_neg, hreached, hkept]
    intro p hp
    obtain ⟨i, hi, rfl⟩ := Simplex.mem_kept.mp hp
    exact hbalanced i hi
  · rw [neg_neg, hreached, hkept]
    exact Simplex.exists_weights_kept hw
  · rw [hkept]
    exact Simplex.affineIndependent_kept w (hs.grown hpast)

end State.Poised

/-- What holds at the head of every turn. -/
theorem poised_after {d : Vec3 ℝ} (hfar : ¬(initial a b d).dir.lengthSq < containsOriginSq) {k : ℕ}
    (hafter : after a b k (initial a b d) = some s) : s.Poised :=
  inv_after State.Poised (fun _ _ _ _ _ hs hturn => hs.onward hbound hturn) hafter
    (initial_poised hbound d hfar)

end Poised

/-! ## §D Runs -/

/-- **The simplex of the search never degenerates.** Whatever functions are asked for points, as long as the
points are finite, and whatever the first direction is: at the head of every turn all points that the search
holds lie in the plane through the point that the direction starts from, square to the direction, and that point
is a convex combination of them in which every weight is positive. The simplex is affinely independent from the
first point on, and after each point that is added. -/
theorem simplex_independent (a b : Support ℝ)
    (hbound : ∀ d, (SupportPoint.along a b d).diff.lengthSq < Scalar.maxFinite) (firstDirection : Vec3 ℝ) :
    AffineIndependent ℝ (initial a b firstDirection).simplex.place ∧
    (¬(initial a b firstDirection).dir.lengthSq < containsOriginSq →
      ∀ k s, after a b k (initial a b firstDirection) = some s →
        (∀ p ∈ s.simplex, p.diff.dot (-s.dir) = (-s.dir).dot (-s.dir)) ∧
        (∃ w : Fin s.simplex.length → ℝ, (∀ i, 0 < w i) ∧ ∑ i, w i = 1 ∧
          ∑ i, w i • s.simplex.place i = -s.dir) ∧
        (s.simplex.hasPoint (s.asked a b).diff = false → ¬s.dir.dot (s.asked a b).diff < 0 →
          AffineIndependent ℝ (s.grown a b).place)) := by
  refine ⟨affineIndependent_initial a b _, fun hfar k s hafter => ?_⟩
  have hs : s.Poised := poised_after hbound hfar hafter
  refine ⟨fun p hp => ?_, hs.weights, fun _ hpast => hs.grown hpast⟩
  rw [Vec3.dot_comm]
  exact hs.level p hp

/-- Against the first axis the difference of the boxes ends where the far sides do. -/
theorem movedBox_against (k : ℝ) :
    (SupportPoint.along unitBox (movedBox k) ⟨-1, 0, 0⟩).diff = ⟨-2 - k, 0, 0⟩ := by
  ext <;> simp [SupportPoint.along, unitBox, movedBox, Support.translate, Shape.support, signSelect]
  rw [if_neg (not_lt.mpr zero_le_one)]
  ring

/-- The first turn between overlapping boxes adds a point across the origin, independent of the first one. -/
theorem overlappingBoxes_independent : AffineIndependent ℝ
    ((initial unitBox (movedBox 1) ⟨1, 0, 0⟩).grown unitBox (movedBox 1)).place := by
  have hsupport : IsSupport unitBox (boxPoints ⟨1, 1, 1⟩) :=
    isSupport_box zero_le_one zero_le_one zero_le_one
  have hbound (d : Vec3 ℝ) : (SupportPoint.along unitBox (movedBox 1) d).diff.lengthSq < Scalar.maxFinite :=
    movedBox_bound (by norm_num) _ (hsupport.mem d) _ ((hsupport.translate _).mem (-d))
  have hdir : (initial unitBox (movedBox 1) ⟨1, 0, 0⟩).dir = ⟨-1, 0, 0⟩ := by
    simp only [initial, movedBox_start]
    ext <;> norm_num
  have hfar : ¬(initial unitBox (movedBox 1) ⟨1, 0, 0⟩).dir.lengthSq < containsOriginSq := by
    rw [hdir]
    simp only [Vec3.lengthSq_eq, Vec3.dot_def, containsOriginSq]
    norm_num
  have hasked : ((initial unitBox (movedBox 1) ⟨1, 0, 0⟩).asked unitBox (movedBox 1)).diff = ⟨-3, 0, 0⟩ := by
    rw [State.asked, hdir, movedBox_against]
    norm_num
  obtain ⟨-, hruns⟩ := simplex_independent unitBox (movedBox 1) hbound ⟨1, 0, 0⟩
  obtain ⟨-, -, hgrown⟩ := hruns hfar 0 _ rfl
  refine hgrown ?_ ?_
  · rw [hasked]
    simp only [initial, Simplex.hasPoint, Simplex.duplicateSq, movedBox_start, List.any_cons, List.any_nil,
      Bool.or_false, decide_eq_false_iff_not, not_lt, Vec3.lengthSq_eq, Vec3.dot_def]
    norm_num
  · rw [hdir, hasked]
    simp only [Vec3.dot_def]
    norm_num

end Overlap

end ConvexCollision
