import Mathlib.Algebra.BigOperators.Fin
import Mathlib.Analysis.Convex.StdSimplex
import Mathlib.Data.Finset.Max
import ConvexCollision.Proofs.Exact.Vector

/-!
# ConvexCollision.Proofs.Simplex.Nearest -- the point of a hull nearest the origin

Weights on finitely many points, none negative and with the sum one, give a point of their hull. It is
nearest the origin when no point is short of the plane through it (`IsNearest`). Two ways lead to such
weights:

* the origin's foot on the flat through the points is nearest, when it belongs to the hull
  (`IsFoot.isNearest`);
* when it does not lie strictly inside, the nearest point of the sides is
  (`IsFoot.isNearest_of_sides`), because walking from any point of the hull toward the foot brings one
  nearer to the origin until a side is reached.

The sides leave one of the points out each, and the nearest of their nearest points is nearest among
all of their points (`le_of_sides`).
-/

namespace ConvexCollision

variable {n : ℕ} {p : Fin n → Vec3 ℝ} {u w β : Fin n → ℝ} {v : Vec3 ℝ} {c : ℝ}

/-! ## § Weighted points -/

/-- The point with the given weights. -/
noncomputable def combine (p : Fin n → Vec3 ℝ) (w : Fin n → ℝ) : Vec3 ℝ := ∑ i, w i • p i

theorem dot_combine (v : Vec3 ℝ) (p : Fin n → Vec3 ℝ) (w : Fin n → ℝ) :
    v.dot (combine p w) = ∑ i, w i * v.dot (p i) := by
  change v.dotHom (combine p w) = _
  rw [combine, map_sum]
  exact Finset.sum_congr rfl fun i _ => v.dot_smul (p i) (w i)

/-- Weights between two choices of weights give the point between the two points. -/
theorem combine_between (p : Fin n → Vec3 ℝ) (u w : Fin n → ℝ) (t : ℝ) :
    combine p (fun i => (1 - t) * u i + t * w i) = (1 - t) • combine p u + t • combine p w := by
  simp only [combine, Finset.smul_sum, ← Finset.sum_add_distrib, add_smul, mul_smul]

theorem combine_single (p : Fin n → Vec3 ℝ) (i : Fin n) : combine p (Pi.single i 1) = p i := by
  rw [combine, Finset.sum_eq_single i]
  · rw [Pi.single_eq_same, one_smul]
  · intro j _ hj
    rw [Pi.single_eq_of_ne hj, zero_smul]
  · exact fun h => absurd (Finset.mem_univ i) h

theorem combine_two (a b : Vec3 ℝ) (x y : ℝ) : combine ![a, b] ![x, y] = x • a + y • b := by
  simp [combine, Fin.sum_univ_two]

theorem combine_four (a b c d : Vec3 ℝ) (x y z w : ℝ) :
    combine ![a, b, c, d] ![x, y, z, w] = x • a + y • b + z • c + w • d := by
  simp [combine, Fin.sum_univ_four]

theorem mem_stdSimplex_two {x y : ℝ} :
    ![x, y] ∈ stdSimplex ℝ (Fin 2) ↔ 0 ≤ x ∧ 0 ≤ y ∧ x + y = 1 := by
  simp [stdSimplex, Fin.forall_fin_two, and_assoc]

/-- What is not short of a plane at any of the points is not short of it at any point of the hull. -/
theorem le_dot_combine (hu : u ∈ stdSimplex ℝ (Fin n)) (h : ∀ i, c ≤ v.dot (p i)) :
    c ≤ v.dot (combine p u) := by
  rw [dot_combine]
  calc c = ∑ i, u i * c := by rw [← Finset.sum_mul, hu.2, one_mul]
    _ ≤ ∑ i, u i * v.dot (p i) :=
      Finset.sum_le_sum fun i _ => mul_le_mul_of_nonneg_left (h i) (hu.1 i)

/-- A vector that reaches as far along another one as that one itself is at least as long. -/
theorem Vec3.lengthSq_le_of_le_dot {a b : Vec3 ℝ} (h : a.lengthSq ≤ a.dot b) :
    a.lengthSq ≤ b.lengthSq := by
  rw [lengthSq_eq] at h ⊢
  rw [lengthSq_eq]
  have hsq := dot_self_nonneg (a - b)
  simp only [dot_sub, sub_dot, dot_comm b a] at hsq
  linarith

/-- When one comes no nearer to the origin on the way from `a` to `b`, then `b` reaches as far along `a`
as `a` itself. -/
theorem Vec3.lengthSq_le_dot_of_between {a b : Vec3 ℝ}
    (h : ∀ t : ℝ, 0 ≤ t → t ≤ 1 → a.lengthSq ≤ ((1 - t) • a + t • b).lengthSq) :
    a.lengthSq ≤ a.dot b := by
  by_contra hshort
  let gap := a.dot a - a.dot b
  have hgap : 0 < gap := sub_pos.mpr (not_le.mp hshort)
  let far := (b - a).dot (b - a)
  have hfar : 0 ≤ far := dot_self_nonneg _
  let t := gap / (gap + far)
  have hden : 0 < gap + far := add_pos_of_pos_of_nonneg hgap hfar
  have ht : 0 < t := div_pos hgap hden
  have ht1 : t ≤ 1 := (div_le_one hden).mpr (le_add_of_nonneg_right hfar)
  have hexpand : ((1 - t) • a + t • b).dot ((1 - t) • a + t • b) =
      a.dot a - 2 * t * gap + t * (t * far) := by
    simp only [gap, far, dot_add, add_dot, dot_smul, smul_dot, dot_sub, sub_dot, dot_comm b a]
    ring
  have hstep : t * far ≤ gap := by
    rw [div_mul_eq_mul_div, div_le_iff₀ hden]
    exact mul_le_mul_of_nonneg_left (le_add_of_nonneg_left hgap.le) hgap.le
  have hmul : t * (t * far) ≤ t * gap := mul_le_mul_of_nonneg_left hstep ht.le
  have hpos : 0 < t * gap := mul_pos ht hgap
  have hle := h t ht.le ht1
  rw [lengthSq_eq, lengthSq_eq, hexpand] at hle
  linarith

/-- A point of the hull is not as far from the origin as all of the points are bounded by. -/
theorem combine_lengthSq_lt {bound : ℝ} (hu : u ∈ stdSimplex ℝ (Fin n))
    (h : ∀ i, (p i).lengthSq < bound) : (combine p u).lengthSq < bound := by
  -- some of the points reaches as far along the point of the hull as that one itself
  have hsome : ∃ i, (combine p u).lengthSq ≤ (combine p u).dot (p i) := by
    by_contra hnone
    push Not at hnone
    obtain ⟨k, hk⟩ : ∃ k, 0 < u k := by
      by_contra hall
      push Not at hall
      have hsum := Finset.sum_nonpos fun i (_ : i ∈ Finset.univ) => hall i
      rw [hu.2] at hsum
      exact absurd hsum (not_le.mpr one_pos)
    have hlt : (combine p u).lengthSq < ∑ i, u i * (combine p u).lengthSq := by
      conv_lhs => rw [Vec3.lengthSq_eq, dot_combine]
      exact Finset.sum_lt_sum (fun i _ => mul_le_mul_of_nonneg_left (hnone i).le (hu.1 i))
        ⟨k, Finset.mem_univ k, mul_lt_mul_of_pos_left (hnone k) hk⟩
    rw [← Finset.sum_mul, hu.2, one_mul] at hlt
    exact lt_irrefl _ hlt
  obtain ⟨i, hi⟩ := hsome
  exact (Vec3.lengthSq_le_of_le_dot hi).trans_lt (h i)

/-! ## § The nearest point -/

/-- The weights are those of a point of the hull, and none of the points is short of the plane through
that point, square to the line from the origin. -/
structure IsNearest (p : Fin n → Vec3 ℝ) (w : Fin n → ℝ) : Prop where
  /-- None is negative, and their sum is one. -/
  weights : w ∈ stdSimplex ℝ (Fin n)
  /-- No point is short of the plane. -/
  le : ∀ i, (combine p w).lengthSq ≤ (combine p w).dot (p i)

/-- No point of the hull is nearer. -/
theorem IsNearest.le_combine (h : IsNearest p w) (hu : u ∈ stdSimplex ℝ (Fin n)) :
    (combine p w).lengthSq ≤ (combine p u).lengthSq :=
  Vec3.lengthSq_le_of_le_dot (le_dot_combine hu h.le)

/-- When no point of the hull is nearer, the weights are those of the nearest point. -/
theorem isNearest_of_le (hw : w ∈ stdSimplex ℝ (Fin n))
    (h : ∀ u ∈ stdSimplex ℝ (Fin n), (combine p w).lengthSq ≤ (combine p u).lengthSq) :
    IsNearest p w := by
  refine ⟨hw, fun i => ?_⟩
  -- on the way to a point that is short of the plane one would come nearer to the origin
  apply Vec3.lengthSq_le_dot_of_between
  intro t ht ht1
  have hmem : (fun j => (1 - t) * w j + t * (Pi.single i 1 : Fin n → ℝ) j) ∈ stdSimplex ℝ (Fin n) :=
    convex_stdSimplex ℝ (Fin n) hw (single_mem_stdSimplex ℝ i) (sub_nonneg.mpr ht1) ht
      (sub_add_cancel 1 t)
  have hle := h _ hmem
  rwa [combine_between, combine_single] at hle

/-! ## § The foot of the origin -/

/-- The weights, some of which may be negative, are those of the foot of the origin on the flat
through the points. -/
structure IsFoot (p : Fin n → Vec3 ℝ) (β : Fin n → ℝ) : Prop where
  /-- The sum of the weights is one. -/
  sum_eq : ∑ i, β i = 1
  /-- The line from the origin to the foot is square to the flat. -/
  dot_eq : ∀ i, (combine p β).dot (p i) = (combine p β).lengthSq

/-- A foot that belongs to the hull is its nearest point. -/
theorem IsFoot.isNearest (h : IsFoot p β) (hβ : ∀ i, 0 ≤ β i) : IsNearest p β :=
  ⟨⟨hβ, h.sum_eq⟩, fun i => (h.dot_eq i).ge⟩

/-- Walking toward the foot brings one nearer to the origin. -/
theorem IsFoot.nearer (h : IsFoot p β) (hu : ∑ i, u i = 1) {t : ℝ} (ht : 0 ≤ t) (ht1 : t ≤ 1) :
    (combine p fun i => (1 - t) * u i + t * β i).lengthSq ≤ (combine p u).lengthSq := by
  have hplane : (combine p β).dot (combine p u) = (combine p β).lengthSq := by
    rw [dot_combine _ p u]
    simp only [h.dot_eq]
    rw [← Finset.sum_mul, hu, one_mul]
  rw [combine_between]
  generalize combine p β = q at *
  generalize combine p u = y at *
  rw [Vec3.lengthSq_eq] at hplane ⊢
  have hpythagoras : ((1 - t) • y + t • q).dot ((1 - t) • y + t • q) =
      y.dot y - t * (2 - t) * (y.dot y - q.dot q) := by
    simp only [Vec3.dot_add, Vec3.add_dot, Vec3.dot_smul, Vec3.smul_dot, Vec3.dot_comm y q, hplane]
    ring
  have hfoot : q.dot q ≤ y.dot y := Vec3.lengthSq_le_of_le_dot hplane.ge
  have hdrop := mul_nonneg (mul_nonneg ht (by linarith : 0 ≤ 2 - t)) (sub_nonneg.mpr hfoot)
  rw [Vec3.lengthSq_eq, hpythagoras]
  linarith

/-- Between weights that are not negative and others of which one is not positive there are weights
with a zero among them. -/
theorem exists_zero_between (hu : ∀ i, 0 ≤ u i) {k : Fin n} (hk : β k ≤ 0) :
    ∃ t : ℝ, 0 ≤ t ∧ t ≤ 1 ∧ (∀ i, 0 ≤ (1 - t) * u i + t * β i) ∧
      ∃ j, (1 - t) * u j + t * β j = 0 := by
  by_cases hzero : ∃ j, u j = 0
  · obtain ⟨j, hj⟩ := hzero
    exact ⟨0, le_rfl, zero_le_one, fun i => by simpa using hu i, j, by simpa using hj⟩
  · -- of the weights that come down to zero, the one that does so first
    push Not at hzero
    have hpos (i : Fin n) : 0 < u i := lt_of_le_of_ne (hu i) (hzero i).symm
    have hdrop {i : Fin n} (hi : β i ≤ 0) : 0 < u i - β i := by linarith [hpos i]
    obtain ⟨j, hj, hfirst⟩ := Finset.exists_min_image (Finset.univ.filter fun i => β i ≤ 0)
      (fun i => u i / (u i - β i)) ⟨k, by simpa using hk⟩
    simp only [Finset.mem_filter, Finset.mem_univ, true_and] at hj hfirst
    let t := u j / (u j - β j)
    have ht1 : t ≤ 1 := (div_le_one (hdrop hj)).mpr (by linarith)
    have ht : 0 ≤ t := (div_pos (hpos j) (hdrop hj)).le
    refine ⟨t, ht, ht1, fun i => ?_, j, ?_⟩
    · by_cases hi : β i ≤ 0
      · have hle : t * (u i - β i) ≤ u i := (le_div_iff₀ (hdrop hi)).mp (hfirst i hi)
        linarith
      · exact add_nonneg (mul_nonneg (sub_nonneg.mpr ht1) (hu i))
          (mul_nonneg ht (not_le.mp hi).le)
    · have heq : t * (u j - β j) = u j := div_mul_cancel₀ _ (hdrop hj).ne'
      linarith

/-- **When the foot does not lie strictly inside, the nearest point of the sides is the nearest
point.** A side is made up of the points of the hull with one of the weights zero. -/
theorem IsFoot.isNearest_of_sides (h : IsFoot p β) {k : Fin n} (hk : β k ≤ 0)
    (hw : w ∈ stdSimplex ℝ (Fin n))
    (hsides : ∀ u ∈ stdSimplex ℝ (Fin n), (∃ j, u j = 0) →
      (combine p w).lengthSq ≤ (combine p u).lengthSq) : IsNearest p w := by
  refine isNearest_of_le hw fun u hu => ?_
  obtain ⟨t, ht, ht1, hnonneg, hzero⟩ := exists_zero_between hu.1 hk
  refine (hsides _ ⟨hnonneg, ?_⟩ hzero).trans (h.nearer hu.2 ht ht1)
  rw [Finset.sum_add_distrib, ← Finset.mul_sum, ← Finset.mul_sum, hu.2, h.sum_eq]
  ring

/-! ## § Sides -/

variable {P : Fin (n + 1) → Vec3 ℝ} {U W : Fin (n + 1) → ℝ} {j : Fin (n + 1)}

/-- What belongs to the side that leaves one place out, beginning after that place and going around. -/
def side {γ : Type} (f : Fin (n + 1) → γ) (j : Fin (n + 1)) : Fin n → γ := fun i => f (j + i.succ)

theorem sum_eq_add_side {M : Type} [AddCommMonoid M] (f : Fin (n + 1) → M) (j : Fin (n + 1)) :
    ∑ i, f i = f j + ∑ i, side f j i := by
  rw [← Equiv.sum_comp (Equiv.addLeft j) f, Fin.sum_univ_succ]
  simp [side]

theorem combine_side (hj : U j = 0) : combine P U = combine (side P j) (side U j) := by
  rw [combine, sum_eq_add_side _ j, hj, zero_smul, zero_add]
  rfl

theorem side_mem_stdSimplex (hU : U ∈ stdSimplex ℝ (Fin (n + 1))) (hj : U j = 0) :
    side U j ∈ stdSimplex ℝ (Fin n) := by
  refine ⟨fun i => hU.1 _, ?_⟩
  rw [← hU.2, sum_eq_add_side U j, hj, zero_add]

theorem mem_stdSimplex_of_side (hside : side U j ∈ stdSimplex ℝ (Fin n)) (hj : U j = 0) :
    U ∈ stdSimplex ℝ (Fin (n + 1)) := by
  refine ⟨fun i => ?_, by rw [sum_eq_add_side U j, hj, zero_add, hside.2]⟩
  rcases Fin.eq_zero_or_eq_succ (i - j) with hi | ⟨k, hk⟩
  · rw [sub_eq_zero.mp hi, hj]
  · rw [← add_sub_cancel j i, hk]
    exact hside.1 k

/-- The nearest of the nearest points of all sides is nearest among the points of all sides. -/
theorem le_of_sides {V : Fin (n + 1) → Fin (n + 1) → ℝ} (hzero : ∀ j, V j j = 0)
    (hV : ∀ j, IsNearest (side P j) (side (V j) j))
    (hW : ∀ j, (combine P W).lengthSq ≤ (combine P (V j)).lengthSq)
    (hU : U ∈ stdSimplex ℝ (Fin (n + 1))) (hj : ∃ j, U j = 0) :
    (combine P W).lengthSq ≤ (combine P U).lengthSq := by
  obtain ⟨j, hj⟩ := hj
  calc (combine P W).lengthSq
      ≤ (combine P (V j)).lengthSq := hW j
    _ = (combine (side P j) (side (V j) j)).lengthSq := by
      rw [combine_side (hzero j)]
    _ ≤ (combine (side P j) (side U j)).lengthSq :=
      (hV j).le_combine (side_mem_stdSimplex hU hj)
    _ = (combine P U).lengthSq := by rw [combine_side hj]

end ConvexCollision
