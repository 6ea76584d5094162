import Mathlib.Analysis.SpecialFunctions.Trigonometric.Basic
import ConvexCollision.Proofs.Distance.Turn
import ConvexCollision.Proofs.Exact.Shape
import ConvexCollision.Proofs.Overlap.Verdict
import ConvexCollision.Proofs.Simplex.Balanced

/-!
# ConvexCollision.Proofs.Distance.Combination -- what the nearest points are made of

Between two turns the search for the nearest points holds points of the difference with weights of a convex
combination, and the direction leads from that combination to the origin. The points carry weight, so they lie
in the plane through the combination, square to the direction (`State.Held`). A turn that goes on keeps this
up (`State.Held.onward`), and a turn that ends the search changes nothing, whichever way it ends. So the two
nearest points are one and the same combination of the points of either set, and they are as far apart as the
search says.

When the search ends at a repeated point or without progress, no point of the difference lies much short of
that plane, and so none is much nearer to the origin than the combination is (`Held.le_length`).
-/

namespace ConvexCollision.ClosestPoints

open scoped Pointwise

/-! ## §A Weighted sums -/

/-- The sum of a quantity over weighted points. -/
noncomputable def weighted (f : SupportPoint ℝ → Vec3 ℝ) (pairs : List (SupportPoint ℝ × ℝ)) : Vec3 ℝ :=
  (pairs.map fun pw => pw.2 • f pw.1).sum

variable {f : SupportPoint ℝ → Vec3 ℝ} {pairs : List (SupportPoint ℝ × ℝ)}

theorem combine_eq_weighted (f : SupportPoint ℝ → Vec3 ℝ) (s : Simplex ℝ) (weights : List ℝ) :
    combine (s.map f) weights = weighted f (s.zip weights) := by
  rw [combine, weighted, List.sum_eq_foldl, List.foldl_map, ← List.map_id weights, List.zip_map,
    List.foldl_map, List.map_id, Vec3.zero_eq]
  rfl

theorem nearest_eq_weighted (s : Simplex ℝ) : s.nearest.1 = weighted (·.diff) (s.zip s.nearest.2) := by
  rw [weighted, List.sum_eq_foldl, List.foldl_map, Simplex.nearest, Vec3.zero_eq]
  rfl

theorem weighted_sub (f g : SupportPoint ℝ → Vec3 ℝ) (pairs : List (SupportPoint ℝ × ℝ)) :
    weighted f pairs - weighted g pairs = weighted (fun p => f p - g p) pairs := by
  induction pairs with
  | nil => exact sub_self 0
  | cons pw rest ih =>
    simp only [weighted, List.map_cons, List.sum_cons] at ih ⊢
    rw [← ih, smul_sub]
    abel

/-- What is summed over a list is the same over the part of it that counts. -/
theorem sum_filter_of_zero {β M : Type} [AddCommMonoid M] {keeps : β → Bool} {h : β → M} {l : List β}
    (hzero : ∀ x ∈ l, keeps x = false → h x = 0) : ((l.filter keeps).map h).sum = (l.map h).sum := by
  induction l with
  | nil => rfl
  | cons x rest ih =>
    have hrest := ih fun y hy => hzero y (List.mem_cons_of_mem x hy)
    rw [List.filter_cons, List.map_cons, List.sum_cons]
    split
    · rw [List.map_cons, List.sum_cons, hrest]
    · next hdrops => rw [hrest, hzero x List.mem_cons_self (Bool.eq_false_iff.mpr hdrops), zero_add]

/-- A convex combination of points of a convex set belongs to it. -/
theorem weighted_mem {S : Set (Vec3 ℝ)} (hS : Convex ℝ S) (hmem : ∀ pw ∈ pairs, f pw.1 ∈ S)
    (hnonneg : ∀ pw ∈ pairs, 0 ≤ pw.2) (hsum : (pairs.map Prod.snd).sum = 1) : weighted f pairs ∈ S := by
  rw [weighted, ← Fin.sum_univ_fun_getElem]
  refine hS.sum_mem (fun i _ => hnonneg _ (List.getElem_mem _)) ?_ fun i _ => hmem _ (List.getElem_mem _)
  rw [Fin.sum_univ_fun_getElem, hsum]

/-! ## §B Points that carry weight -/

/-- The points that a simplex keeps, with their weights, are those that carry weight. -/
theorem retain_eq (s : Simplex ℝ) (weights : List ℝ) :
    s.retain weights = ((s.zip weights).filter fun pw => !Scalar.same pw.2 0).unzip := by
  simp only [Simplex.retain, Scalar.zero_real]

/-- A point that is not kept has no weight. -/
theorem eq_zero_of_dropped {x : ℝ} (h : (!Scalar.same x 0) = false) : x = 0 := by
  rwa [Bool.not_eq_false', Scalar.same_real] at h

theorem length_retain (s : Simplex ℝ) (weights : List ℝ) :
    (s.retain weights).2.length = (s.retain weights).1.length := by
  rw [retain_eq, List.unzip_eq_map, List.length_map, List.length_map]

theorem weighted_retain (f : SupportPoint ℝ → Vec3 ℝ) (s : Simplex ℝ) (weights : List ℝ) :
    weighted f ((s.retain weights).1.zip (s.retain weights).2) = weighted f (s.zip weights) := by
  rw [retain_eq, List.zip_unzip]
  refine sum_filter_of_zero fun pw _ hdrops => ?_
  rw [eq_zero_of_dropped hdrops, zero_smul]

theorem sum_retain {s : Simplex ℝ} {weights : List ℝ} (h : weights.length = s.length) :
    (s.retain weights).2.sum = weights.sum := by
  rw [retain_eq, List.unzip_eq_map]
  calc (((s.zip weights).filter fun pw => !Scalar.same pw.2 0).map Prod.snd).sum
      = ((s.zip weights).map Prod.snd).sum := sum_filter_of_zero fun _ _ hdrops => eq_zero_of_dropped hdrops
    _ = weights.sum := by rw [List.map_snd_zip h.le]

theorem mem_of_mem_retain {s : Simplex ℝ} {weights : List ℝ} {w : ℝ} (h : w ∈ (s.retain weights).2) :
    w ∈ weights := by
  rw [retain_eq, List.unzip_eq_map] at h
  obtain ⟨pw, hpw, rfl⟩ := List.mem_map.mp h
  exact (List.of_mem_zip (List.mem_of_mem_filter hpw)).2

/-! ## §C What the search holds -/

namespace State

/-- The points with their weights. -/
def weightedPoints (s : State ℝ) : List (SupportPoint ℝ × ℝ) := s.simplex.zip s.weights

/-- The search holds support points with the weights of a convex combination. The direction leads from the
combination to the origin, and all points lie in the plane through the combination, square to it. -/
structure Held (a b : Support ℝ) (s : State ℝ) : Prop where
  /-- Every point has a weight. -/
  length_eq : s.weights.length = s.simplex.length
  /-- Every point was asked for. -/
  asked : ∀ p ∈ s.simplex, ∃ d, p = SupportPoint.along a b d
  /-- No weight is negative. -/
  nonneg : ∀ w ∈ s.weights, 0 ≤ w
  /-- The weights add up to one. -/
  sum_eq : s.weights.sum = 1
  /-- The direction leads from the combination to the origin. -/
  neg_dir_eq : -s.dir = weighted (·.diff) s.weightedPoints
  /-- The squared distance is that of the combination. -/
  distSq_eq : s.distSq = s.dir.lengthSq
  /-- The points lie in the plane through the combination. -/
  balanced : ∀ p ∈ s.simplex, (-s.dir).dot p.diff = s.distSq
  /-- There is room for one more point, unless the search is over. -/
  room : s.overlapping = false → s.simplex.length < 4
  /-- The search is over only near the origin. -/
  near : s.overlapping = true → s.distSq < Overlap.containsOriginSq

end State

variable {a b : Support ℝ} {A B : Set (Vec3 ℝ)} {s s' : State ℝ}

theorem held_start (a b : Support ℝ) : (start a b).Held a b where
  length_eq := rfl
  asked p hp := ⟨_, List.mem_singleton.mp hp⟩
  nonneg w hw := by
    rw [List.mem_singleton.mp hw, Scalar.one_real]
    exact zero_le_one
  sum_eq := by simp [start]
  neg_dir_eq := by simp [start, State.weightedPoints, weighted]
  distSq_eq := rfl
  balanced p hp := by
    rw [List.mem_singleton.mp hp]
    simp [start, Vec3.lengthSq_eq]
  room _ := show 1 < 4 by decide
  near hover := of_decide_eq_true hover

namespace State.Held

variable (h : s.Held a b)

include h

theorem dot_diff_eq {p : SupportPoint ℝ} (hp : p ∈ s.simplex) : (-s.dir).dot p.diff = (-s.dir).lengthSq := by
  rw [h.balanced p hp, h.distSq_eq, Vec3.lengthSq_neg]

/-- A turn that goes on keeps up what the search holds. -/
theorem onward (hbound : ∀ d, (SupportPoint.along a b d).diff.lengthSq < Scalar.maxFinite)
    (hturn : closer? a b s = some s') : s'.Held a b := by
  obtain ⟨hover, rfl⟩ := closer?_eq_some hturn
  have hasked : ∀ p ∈ s.grown a b, ∃ d, p = SupportPoint.along a b d := by
    intro p hp
    rcases List.mem_append.mp hp with hp | hp
    · exact h.asked p hp
    · exact ⟨_, List.mem_singleton.mp hp⟩
  have hfin : ∀ x ∈ (s.grown a b).points, x.lengthSq < Scalar.maxFinite := by
    rintro _ ⟨p, hp, rfl⟩
    obtain ⟨d, rfl⟩ := hasked p hp
    exact hbound d
  have hlength : (s.grown a b).length ≤ 4 := by
    rw [State.grown, List.length_append]
    exact h.room hover
  obtain ⟨w, hw, hnearest⟩ := Simplex.exists_projection (by simp [State.grown]) hlength hfin
  generalize s.grown a b = grown at *
  have hbalanced := hw.balanced hlength fun i => hfin _ (Simplex.place_mem i)
  have hpoint : grown.nearest.1 = ConvexCollision.combine grown.place w := by rw [hnearest]
  have hweights : grown.nearest.2 = List.ofFn w := by rw [hnearest]
  have hkept {p : SupportPoint ℝ} (hp : p ∈ (grown.retain grown.nearest.2).1) :
      ∃ i, w i ≠ 0 ∧ grown.get i = p := Simplex.mem_kept.mp (hweights ▸ hp)
  have hroom : (grown.retain grown.nearest.2).1.length ≤ 4 :=
    le_trans (hweights ▸ Simplex.kept_length_le) hlength
  constructor
  case length_eq => exact length_retain _ _
  case asked =>
    intro p hp
    obtain ⟨i, -, rfl⟩ := hkept hp
    exact hasked _ (List.get_mem _ i)
  case nonneg =>
    intro x hx
    obtain ⟨i, rfl⟩ := List.mem_ofFn.mp (hweights ▸ mem_of_mem_retain hx)
    exact hw.weights.1 i
  case sum_eq =>
    rw [sum_retain (by rw [hweights, List.length_ofFn]), hweights, List.sum_ofFn]
    exact hw.weights.2
  case neg_dir_eq =>
    rw [neg_neg, nearest_eq_weighted]
    exact (weighted_retain _ _ _).symm
  case distSq_eq => exact (Vec3.lengthSq_neg _).symm
  case balanced =>
    intro p hp
    obtain ⟨i, hi, rfl⟩ := hkept hp
    rw [neg_neg, hpoint]
    exact hbalanced i hi
  case room =>
    intro hopen
    obtain ⟨-, hfour⟩ := Bool.or_eq_false_iff.mp hopen
    exact lt_of_le_of_ne hroom (by simpa using hfour)
  case near =>
    intro hnear
    rcases (Bool.or_eq_true _ _).mp hnear with hclose | hfour
    · exact of_decide_eq_true hclose
    · -- four points carry weight only when they enclose the origin
      have hfour : (grown.retain (List.ofFn w)).1.length = 4 := hweights ▸ eq_of_beq hfour
      have hall : grown.length = 4 := le_antisymm hlength (hfour ▸ Simplex.kept_length_le)
      have hzero := hw.encloses hall (Simplex.ne_zero_of_kept_length (hfour.trans hall.symm))
      show grown.nearest.1.lengthSq < _
      rw [hpoint, hzero, Vec3.lengthSq_eq, Vec3.dot_zero]
      exact Overlap.containsOriginSq_pos

/-- What the search holds when it ends. -/
theorem search (hbound : ∀ d, (SupportPoint.along a b d).diff.lengthSq < Scalar.maxFinite) (steps : ℕ) :
    (search a b steps s).Held a b :=
  inv_search (State.Held a b) (fun _ _ hs hturn => hs.onward hbound hturn) steps h

/-! ## §D The points and their distance -/

theorem map_fst_weightedPoints : s.weightedPoints.map Prod.fst = s.simplex := List.map_fst_zip h.length_eq.ge

theorem map_snd_weightedPoints : s.weightedPoints.map Prod.snd = s.weights := List.map_snd_zip h.length_eq.le

/-- Each of the two points is made of support points of its set. -/
theorem exists_support {pw : SupportPoint ℝ × ℝ} (hpw : pw ∈ s.weightedPoints) :
    0 ≤ pw.2 ∧ ∃ d, pw.1.onA = a d ∧ pw.1.onB = b (-d) := by
  obtain ⟨hp, hw⟩ := List.of_mem_zip hpw
  obtain ⟨d, heq⟩ := h.asked _ hp
  refine ⟨h.nonneg _ hw, d, by rw [heq]; rfl, ?_⟩
  rw [heq, SupportPoint.onB, SupportPoint.along, sub_sub_cancel]

theorem weighted_onA_mem (hA : Convex ℝ A) (ha : IsSupport a A) :
    weighted (·.onA) s.weightedPoints ∈ A := by
  refine weighted_mem hA (fun pw hpw => ?_) (fun pw hpw => (h.exists_support hpw).1) ?_
  · obtain ⟨-, d, honA, -⟩ := h.exists_support hpw
    exact honA ▸ ha.mem d
  · rw [h.map_snd_weightedPoints, h.sum_eq]

theorem weighted_onB_mem (hB : Convex ℝ B) (hb : IsSupport b B) :
    weighted (·.onB) s.weightedPoints ∈ B := by
  refine weighted_mem hB (fun pw hpw => ?_) (fun pw hpw => (h.exists_support hpw).1) ?_
  · obtain ⟨-, d, -, honB⟩ := h.exists_support hpw
    exact honB ▸ hb.mem (-d)
  · rw [h.map_snd_weightedPoints, h.sum_eq]

/-- The points differ by the combination of the points of the difference. -/
theorem weighted_onA_sub_onB :
    weighted (·.onA) s.weightedPoints - weighted (·.onB) s.weightedPoints = -s.dir := by
  rw [weighted_sub, h.neg_dir_eq]
  congr 1
  funext p
  exact sub_sub_cancel _ _

theorem sqrt_distSq : Real.sqrt s.distSq = (-s.dir).length := by
  rw [h.distSq_eq, ← Vec3.lengthSq_neg]
  rfl

/-! ## §E How near the sets can come -/

omit h in
/-- What lies as far along a vector is as long. -/
theorem le_length_of_mul_le_dot {v x : Vec3 ℝ} {c : ℝ} (hv : 0 < v.length) (hx : v.length * c ≤ v.dot x) :
    c ≤ x.length := le_of_mul_le_mul_left (hx.trans (v.dot_le_length_mul_length x)) hv

omit h in
/-- No point of the difference is further along the direction than the one asked for. -/
theorem le_dot_diff {D : Set (Vec3 ℝ)} (hsupport : IsSupport (fun d => (SupportPoint.along a b d).diff) D)
    {x : Vec3 ℝ} (hx : x ∈ D) : (-s.dir).dot (SupportPoint.along a b s.dir).diff ≤ (-s.dir).dot x := by
  rw [Vec3.neg_dot, Vec3.neg_dot, neg_le_neg_iff]
  exact hsupport.le s.dir x hx

/-- A point next to one of the simplex lies almost as far out as the plane through the combination. -/
theorem le_dot_of_hasPoint {q : Vec3 ℝ} (hq : s.simplex.hasPoint q = true) :
    (-s.dir).length * ((-s.dir).length - 1e-6) ≤ (-s.dir).dot q := by
  obtain ⟨p, hp, hnear⟩ := List.any_eq_true.mp hq
  have hclose : (p.diff - q).length < 1e-6 := by
    refine (Real.sqrt_lt' (by norm_num)).mpr ((of_decide_eq_true hnear).trans_eq ?_)
    rw [sq]
    rfl
  have hreach : (-s.dir).dot p.diff = (-s.dir).length * (-s.dir).length := by
    rw [h.dot_diff_eq hp, Vec3.length_mul_self, Vec3.lengthSq_eq]
  calc (-s.dir).length * ((-s.dir).length - 1e-6)
      ≤ (-s.dir).length * ((-s.dir).length - (p.diff - q).length) :=
        mul_le_mul_of_nonneg_left (sub_le_sub_left hclose.le _) (Vec3.length_nonneg _)
    _ = (-s.dir).dot p.diff - (-s.dir).length * (p.diff - q).length := by rw [hreach, mul_sub]
    _ ≤ (-s.dir).dot p.diff - (-s.dir).dot (p.diff - q) :=
        sub_le_sub_left (Vec3.dot_le_length_mul_length _ _) _
    _ = (-s.dir).dot q := by rw [Vec3.dot_sub, sub_sub_cancel]

/-- **When the search is stuck the sets come hardly nearer.** After a repeated point, or one without
progress, no point of the difference is much nearer to the origin than the combination. -/
theorem le_length {D : Set (Vec3 ℝ)} (hsupport : IsSupport (fun d => (SupportPoint.along a b d).diff) D)
    (hstuck : ending? a b s = some .repeated ∨ ending? a b s = some .noProgress) {x : Vec3 ℝ} (hx : x ∈ D) :
    (-s.dir).length * (1 - 1e-6) - 1e-6 ≤ x.length := by
  have hnone := Vec3.length_nonneg x
  rcases (Vec3.length_nonneg (-s.dir)).eq_or_lt with hzero | hpos
  · rw [← hzero]
    linarith
  · have hasked := le_dot_diff (s := s) hsupport hx
    rcases hstuck with hrepeated | hshort
    · have hreach := h.le_dot_of_hasPoint (hasPoint_of_repeated hrepeated).2
      have hlong := le_length_of_mul_le_dot hpos (hreach.trans hasked)
      linarith
    · have hreach : (-s.dir).length * ((-s.dir).length * (1 - 1e-6)) ≤
          (-s.dir).dot (SupportPoint.along a b s.dir).diff := by
        have hle := (le_of_noProgress hshort).2
        have hsq : s.distSq = (-s.dir).length * (-s.dir).length := by
          rw [h.distSq_eq, Vec3.length_mul_self, ← Vec3.lengthSq_eq, Vec3.lengthSq_neg]
        have hprogress : (progress : ℝ) = 1e-6 := rfl
        rw [hsq, hprogress] at hle
        rw [Vec3.neg_dot]
        linarith
      have hlong := le_length_of_mul_le_dot hpos (hreach.trans hasked)
      linarith

end State.Held

/-! ## §F The nearest points -/

/-- **The nearest points are consistent witnesses.** However the search ends, by one of its tests or because
its turns are used up, the two points belong to the sets, and they are one convex combination of the support
points that the search holds. The distance is the one between them, or zero, which it is only when the sets
come within the fixed distance of each other. When the search ends at a repeated point or without progress,
no two points of the sets are much nearer. -/
theorem between_consistent (hA : Convex ℝ A) (hB : Convex ℝ B) (ha : IsSupport a A) (hb : IsSupport b B)
    (hbound : ∀ x ∈ A, ∀ y ∈ B, (x - y).lengthSq < Scalar.maxFinite) :
    let s := search a b Overlap.maxSteps (start a b)
    let c := between a b
    ((ending? a b s).isSome = true ∨ after a b Overlap.maxSteps (start a b) = some s) ∧
      c.pointA ∈ A ∧ c.pointB ∈ B ∧
      s.weightedPoints.map Prod.fst = s.simplex ∧
      (∀ pw ∈ s.weightedPoints, 0 ≤ pw.2 ∧ ∃ d, pw.1.onA = a d ∧ pw.1.onB = b (-d)) ∧
      (s.weightedPoints.map Prod.snd).sum = 1 ∧
      c.pointA = (s.weightedPoints.map fun pw => pw.2 • pw.1.onA).sum ∧
      c.pointB = (s.weightedPoints.map fun pw => pw.2 • pw.1.onB).sum ∧
      (c.distance = (c.pointA - c.pointB).length ∨ c.distance = 0) ∧
      (c.distance = 0 → ∃ x ∈ A, ∃ y ∈ B, (x - y).length < 0.0001) ∧
      (ending? a b s = some .repeated ∨ ending? a b s = some .noProgress →
        ∀ x ∈ A, ∀ y ∈ B, c.distance * (1 - 1e-6) - 1e-6 ≤ (x - y).length) := by
  intro s c
  have hsupport := ha.sub hb
  have hfin (d : Vec3 ℝ) : (SupportPoint.along a b d).diff.lengthSq < Scalar.maxFinite :=
    hbound _ (ha.mem d) _ (hb.mem (-d))
  have hheld : s.Held a b := (held_start a b).search hfin Overlap.maxSteps
  have hpointA : c.pointA = weighted (·.onA) s.weightedPoints := combine_eq_weighted _ _ _
  have hpointB : c.pointB = weighted (·.onB) s.weightedPoints := combine_eq_weighted _ _ _
  have hmemA : c.pointA ∈ A := hpointA ▸ hheld.weighted_onA_mem hA ha
  have hmemB : c.pointB ∈ B := hpointB ▸ hheld.weighted_onB_mem hB hb
  have hdiff : c.pointA - c.pointB = -s.dir := by rw [hpointA, hpointB, hheld.weighted_onA_sub_onB]
  have hdistance : c.distance = if s.overlapping then 0 else (c.pointA - c.pointB).length := by
    rw [hdiff, ← hheld.sqrt_distSq]
    show (ofState s).distance = _
    simp only [ofState, Scalar.zero_real, Scalar.sqrt_real]
  refine ⟨search_ends _ _, hmemA, hmemB, hheld.map_fst_weightedPoints, fun pw hpw => hheld.exists_support hpw,
    hheld.map_snd_weightedPoints ▸ hheld.sum_eq, hpointA, hpointB, ?_, fun hzero => ?_,
    fun hstuck x hx y hy => ?_⟩
  · rw [hdistance]
    split
    · exact .inr rfl
    · exact .inl rfl
  · refine ⟨_, hmemA, _, hmemB, ?_⟩
    cases hover : s.overlapping with
    | true =>
      apply Overlap.length_lt_of_lengthSq_lt
      rw [hdiff, Vec3.lengthSq_neg, ← hheld.distSq_eq]
      exact hheld.near hover
    | false =>
      rw [hover, if_neg Bool.false_ne_true] at hdistance
      rw [← hdistance, hzero]
      norm_num
  · have hopen : s.overlapping = false := by
      rcases hstuck with hrepeated | hshort
      · exact (hasPoint_of_repeated hrepeated).1
      · exact (le_of_noProgress hshort).1
    rw [hdistance, hopen, if_neg Bool.false_ne_true, hdiff]
    exact hheld.le_length hsupport hstuck (Set.sub_mem_sub hx hy)

/-- A box of half size one, moved out along the main diagonal. -/
noncomputable def cornerBox : Support ℝ := Support.translate Overlap.unitBox ⟨5, 5, 5⟩

/-- Along every direction between the axes the nearest corners of the boxes are found. -/
theorem cornerBox_along {d : Vec3 ℝ} (hx : 0 < d.x) (hy : 0 < d.y) (hz : 0 < d.z) :
    (SupportPoint.along Overlap.unitBox cornerBox d).diff = ⟨-3, -3, -3⟩ := by
  have hcoord {v : ℝ} (hv : 0 < v) : signSelect v 1 - (signSelect (-v) 1 + 5) = -3 := by
    simp only [signSelect, Scalar.zero_real, if_pos hv, if_neg (not_lt.mpr (neg_nonpos.mpr hv.le))]
    norm_num
  ext
  · exact hcoord hx
  · exact hcoord hy
  · exact hcoord hz

/-- The search between the boxes ends at once, at a repeated point. -/
theorem cornerBox_repeated : ending? Overlap.unitBox cornerBox (search Overlap.unitBox cornerBox
    Overlap.maxSteps (start Overlap.unitBox cornerBox)) = some .repeated := by
  have hfirst : (SupportPoint.along Overlap.unitBox cornerBox (Vec3.splat 1)).diff = ⟨-3, -3, -3⟩ := by
    apply cornerBox_along <;> simp [Vec3.splat]
  have hdir : (start Overlap.unitBox cornerBox).dir = ⟨3, 3, 3⟩ := by
    simp only [start, Scalar.one_real, hfirst]
    ext <;> simp
  have hagain : (SupportPoint.along Overlap.unitBox cornerBox ⟨3, 3, 3⟩).diff = ⟨-3, -3, -3⟩ := by
    apply cornerBox_along <;> norm_num
  have hopen : (start Overlap.unitBox cornerBox).overlapping = false := by
    show decide ((start Overlap.unitBox cornerBox).dir.lengthSq < Overlap.containsOriginSq) = false
    rw [hdir]
    simp only [Vec3.lengthSq_eq, Vec3.dot_def, Overlap.containsOriginSq]
    norm_num
  have hrepeats : (start Overlap.unitBox cornerBox).simplex.hasPoint ⟨-3, -3, -3⟩ = true := by
    simp only [start, Scalar.one_real, Simplex.hasPoint, Simplex.duplicateSq, List.any_cons, hfirst, sub_self,
      Vec3.lengthSq_eq, Vec3.dot_zero]
    norm_num
  have hends : ending? Overlap.unitBox cornerBox (start Overlap.unitBox cornerBox) = some .repeated := by
    unfold ending?
    simp only [hdir, hagain, hopen, hrepeats, Bool.false_eq_true, if_false, if_true]
  have hnone : closer? Overlap.unitBox cornerBox (start Overlap.unitBox cornerBox) = none :=
    closer?_eq_none_iff.mpr (by rw [hends]; rfl)
  have hstays : search Overlap.unitBox cornerBox Overlap.maxSteps (start Overlap.unitBox cornerBox) =
      start Overlap.unitBox cornerBox := by
    rw [Overlap.maxSteps, search_succ, hnone]
  rw [hstays, hends]

/-- The nearest points of the boxes belong to them, and no two points are much nearer. -/
theorem cornerBox_consistent :
    let c := between Overlap.unitBox cornerBox
    c.pointA ∈ boxPoints ⟨1, 1, 1⟩ ∧ c.pointB ∈ (· + ⟨5, 5, 5⟩) '' boxPoints ⟨1, 1, 1⟩ ∧
      ∀ x ∈ boxPoints ⟨1, 1, 1⟩, ∀ y ∈ (· + ⟨5, 5, 5⟩) '' boxPoints ⟨1, 1, 1⟩,
        c.distance * (1 - 1e-6) - 1e-6 ≤ (x - y).length := by
  have hconvex : Convex ℝ ((· + (⟨5, 5, 5⟩ : Vec3 ℝ)) '' boxPoints ⟨1, 1, 1⟩) := by
    simpa only [add_comm] using (convex_boxPoints ⟨1, 1, 1⟩).translate ⟨5, 5, 5⟩
  have hsupport : IsSupport Overlap.unitBox (boxPoints ⟨1, 1, 1⟩) :=
    isSupport_box zero_le_one zero_le_one zero_le_one
  have hbound : ∀ x ∈ boxPoints ⟨1, 1, 1⟩, ∀ y ∈ (· + ⟨5, 5, 5⟩) '' boxPoints ⟨1, 1, 1⟩,
      (x - y).lengthSq < Scalar.maxFinite := by
    rintro x ⟨hx, hy, hz⟩ _ ⟨y, ⟨hx', hy', hz'⟩, rfl⟩
    have hmem : x - (y + ⟨5, 5, 5⟩) ∈ boxPoints ⟨7, 7, 7⟩ := by
      simp only [boxPoints, Set.mem_ofPred_eq, Vec3.sub_x, Vec3.sub_y, Vec3.sub_z, Vec3.add_x, Vec3.add_y,
        Vec3.add_z, abs_le] at *
      refine ⟨?_, ?_, ?_⟩ <;> constructor <;> linarith
    refine (lengthSq_le_of_mem_boxPoints hmem).trans_lt ?_
    simp only [Scalar.maxFinite, Scalar.ofNat_real, Vec3.lengthSq_eq, Vec3.dot_def]
    norm_num
  obtain ⟨-, hmemA, hmemB, -, -, -, -, -, -, -, hstuck⟩ := between_consistent (convex_boxPoints _) hconvex
    hsupport (hsupport.translate _) hbound
  exact ⟨hmemA, hmemB, hstuck (.inl cornerBox_repeated)⟩

end ConvexCollision.ClosestPoints
