import ConvexCollision.Proofs.Exact.Convex
import ConvexCollision.Proofs.Exact.Support
import ConvexCollision.Proofs.Polytope.Growth
import ConvexCollision.Proofs.Polytope.Tetrahedron

/-!
# ConvexCollision.Proofs.Polytope.Depth -- the depth of an overlap is never over-reported

A polytope whose faces form a closed convex surface is the hull of its points (`BoundsHull`). At every
step of its growth the polytope inside the difference of two sets is of that kind. The face nearest the
origin therefore lies inside the difference, and the depth reported from it is at most the depth of
the overlap in every direction (`penetration_le_depth`): moving one set that far, or farther, along any
direction is what separating the sets takes.

Neither convexity nor compactness of the sets is used. What is used is that the support functions are
exact and that the difference contains the origin.
-/

namespace ConvexCollision

open scoped Pointwise

namespace Polytope

variable {a b : Support ℝ} {A B : Set (Vec3 ℝ)} {poly : Polytope ℝ} {f : PolytopeFace ℝ}

/-! ## § The hull of the points -/

/-- The points of a polytope. -/
def pointSet (poly : Polytope ℝ) : Set (Vec3 ℝ) := {x | ∃ p ∈ poly.points, p.diff = x}

/-- The faces of a polytope are the boundary of the hull of its points. -/
structure BoundsHull (poly : Polytope ℝ) : Prop where
  /-- Each directed edge of a face belongs to exactly one face. -/
  edge_once : ∀ f ∈ poly.faces, ∀ e ∈ f.edges, poly.edges.count e = 1
  /-- Its reverse belongs to exactly one face, which is another one. -/
  reverse_once : ∀ f ∈ poly.faces, ∀ e ∈ f.edges, poly.edges.count e.swap = 1 ∧ e.swap ∉ f.edges
  /-- The plane of each face is that through its corners, which are points of the polytope. -/
  fits : ∀ f ∈ poly.faces, f.Fits poly.points
  /-- The interior is strictly behind every face. -/
  interior_behind : ∀ f ∈ poly.faces, f.normal.dot poly.interior < f.distance
  /-- No point of the polytope is in front of any face. -/
  points_behind : ∀ f ∈ poly.faces, ∀ x ∈ poly.pointSet, f.normal.dot x ≤ f.distance
  /-- The hull of the points is what lies behind all faces. -/
  hull_eq : convexHull ℝ poly.pointSet = {y | ∀ f ∈ poly.faces, f.normal.dot y ≤ f.distance}

theorem mem_pointSet {x : Vec3 ℝ} :
    x ∈ poly.pointSet ↔ ∃ q < poly.points.size, place poly.points q = x := by
  constructor
  · rintro ⟨p, hp, rfl⟩
    obtain ⟨q, hq, rfl⟩ := Array.mem_iff_getElem.mp hp
    exact ⟨q, hq, by simp [place, point, Array.getD_eq_getD_getElem?, hq]⟩
  · rintro ⟨q, hq, rfl⟩
    exact ⟨poly.points[q], Array.getElem_mem hq,
      by simp [place, point, Array.getD_eq_getD_getElem?, hq]⟩

theorem pointSet_finite (poly : Polytope ℝ) : poly.pointSet.Finite := by
  refine (Set.finite_range fun q : Fin poly.points.size => place poly.points q).subset ?_
  intro x hx
  obtain ⟨q, hq, rfl⟩ := mem_pointSet.mp hx
  exact ⟨⟨q, hq⟩, rfl⟩

/-- What lies behind all faces of a closed convex surface belongs to the hull of its points. -/
theorem Hull.mem_convexHull (h : Hull poly) {y : Vec3 ℝ} (hy : ∀ f ∈ poly.faces, f.height y ≤ 0) :
    y ∈ convexHull ℝ poly.pointSet := by
  by_contra hout
  obtain ⟨d, u, hd, hu⟩ := Vec3.exists_dot_lt poly.pointSet_finite hout
  -- a point between `y` and the interior, still further along `d` than all corners
  let m := d.dot (y - poly.interior)
  have hgap : 0 < d.dot y - u := sub_pos.mpr hu
  have hden : 0 < d.dot y - u + |m| := add_pos_of_pos_of_nonneg hgap (abs_nonneg m)
  let t := (d.dot y - u) / (d.dot y - u + |m|)
  have ht : 0 < t := div_pos hgap hden
  have ht1 : t ≤ 1 := (div_le_one hden).mpr (le_add_of_nonneg_right (abs_nonneg m))
  let o := y + t • (poly.interior - y)
  have hline : o - y = t • (poly.interior - y) := add_sub_cancel_left _ _
  have hbehind : ∀ f ∈ poly.faces, f.height o < 0 := by
    intro f hf
    rw [PolytopeFace.height_of_sub_eq hline]
    exact add_neg_of_nonpos_of_neg
      (mul_nonpos_of_nonneg_of_nonpos (sub_nonneg.mpr ht1) (hy f hf))
      (mul_neg_of_pos_of_neg ht (h.interior_behind f hf))
  have hbeyond : u ≤ d.dot o := by
    have hshift : t * |m| ≤ d.dot y - u := by
      rw [div_mul_eq_mul_div, div_le_iff₀ hden]
      exact mul_le_mul_of_nonneg_left (le_add_of_nonneg_left hgap.le) hgap.le
    have hle : t * m ≤ t * |m| := mul_le_mul_of_nonneg_left (le_abs_self m) ht.le
    have ho : d.dot o = d.dot y - t * m := by
      simp only [o, m, Vec3.dot_add, Vec3.dot_smul, Vec3.dot_sub]
      ring
    linarith
  have hdne : d ≠ 0 := by
    rintro rfl
    obtain ⟨f, hf⟩ := List.exists_mem_of_ne_nil _ h.faces_ne
    have hcorner := hd _ (mem_pointSet.mpr ⟨f.i, (h.fits f hf).lt_size.1, rfl⟩)
    simp only [Vec3.zero_dot] at hcorner hu
    exact lt_asymm hcorner hu
  obtain ⟨i, hi, hle⟩ := exists_corner_ge h.closed h.fits h.faces_ne hbehind hdne
  exact absurd (hd _ (mem_pointSet.mpr ⟨i, hi, rfl⟩)) (not_lt.mpr (hbeyond.trans hle))

/-- A closed convex surface is the boundary of the hull of its points. -/
theorem Hull.boundsHull (h : Hull poly) : poly.BoundsHull where
  edge_once f hf e he := List.count_eq_one_of_mem h.closed.nodup (mem_edges.mpr ⟨f, hf, he⟩)
  reverse_once f hf e he := by
    have hback := h.closed.swap_mem e (mem_edges.mpr ⟨f, hf, he⟩)
    refine ⟨List.count_eq_one_of_mem h.closed.nodup hback, fun hboth => ?_⟩
    -- the three corners of a face are different points
    have hends : ∀ e ∈ f.edges, e.1 ≠ e.2 := fun e he => h.closed.ends_ne e (mem_edges.mpr ⟨f, hf, he⟩)
    simp only [PolytopeFace.edges, List.forall_mem_cons] at hends
    simp only [PolytopeFace.edges, List.mem_cons, List.not_mem_nil, or_false, Prod.ext_iff,
      Prod.fst_swap, Prod.snd_swap] at he hboth
    omega
  fits := h.fits
  interior_behind f hf := sub_neg.mp (h.interior_behind f hf)
  points_behind f hf x hx := by
    obtain ⟨q, hq, rfl⟩ := mem_pointSet.mp hx
    exact sub_nonpos.mp (h.points_behind f hf q hq)
  hull_eq := by
    refine Set.Subset.antisymm (convexHull_min ?_ ?_) ?_
    · intro x hx f hf
      obtain ⟨q, hq, rfl⟩ := mem_pointSet.mp hx
      exact sub_nonpos.mp (h.points_behind f hf q hq)
    · intro x hx y hy s t hs ht hst f hf
      simp only [Vec3.dot_add, Vec3.dot_smul]
      calc s * f.normal.dot x + t * f.normal.dot y
          ≤ s * f.distance + t * f.distance := add_le_add (mul_le_mul_of_nonneg_left (hx f hf) hs)
            (mul_le_mul_of_nonneg_left (hy f hf) ht)
        _ = f.distance := by rw [← add_mul, hst, one_mul]
    · intro y hy
      exact h.mem_convexHull fun f hf => sub_nonpos.mpr (hy f hf)

/-! ## § Growth -/

/-- At every step of its growth a closed convex polytope is closed and convex. -/
theorem Hull.expand (h : Hull poly) (n : Nat) : Hull (poly.expand a b n) :=
  expand_induction (fun _ _ _ h hinsert => h.insert hinsert) n h

/-- At every step its points belong to the difference of the two sets. -/
theorem pointSet_expand_subset (ha : IsSupport a A) (hb : IsSupport b B)
    (h : poly.pointSet ⊆ A - B) (n : Nat) : (poly.expand a b n).pointSet ⊆ A - B := by
  refine expand_induction (P := fun poly => poly.pointSet ⊆ A - B)
    (fun poly poly' d h hinsert => ?_) n h
  obtain ⟨-, new, -, rfl⟩ := insert?_eq_some hinsert
  rintro x ⟨p, hp, rfl⟩
  rcases Array.mem_push.mp hp with hp | rfl
  · exact h ⟨p, hp, rfl⟩
  · exact (ha.sub hb).mem d

/-! ## § The nearest face -/

/-- The nearest face is a face, and no face is nearer. -/
theorem nearestFace?_eq_some {faces : List (PolytopeFace ℝ)} (h : nearestFace? faces = some f) :
    f ∈ faces ∧ ∀ g ∈ faces, f.distance ≤ g.distance := by
  cases faces with
  | nil => cases h
  | cons first rest =>
    obtain rfl := Option.some.inj h
    exact foldl_least PolytopeFace.distance rest first

/-- What is reported comes from a nearest face. -/
theorem hit_eq_ok {r : Hit ℝ} (h : poly.hit = .ok r) :
    ∃ f, nearestFace? poly.faces = some f ∧ r.penetration = max f.distance 0 := by
  obtain ⟨f, hf, -, hdepth⟩ := nearest_of_hit h
  exact ⟨f, hf, hdepth.trans (by simp)⟩

/-- **A ball that every face leaves room for reaches no further than the points.** When the origin is
nearer than `depth` to no face, some point lies at least that far along a unit direction. -/
theorem Hull.exists_le_dot (h : Hull poly) {d : Vec3 ℝ} (hd : d.dot d = 1) {depth : ℝ}
    (hdepth : 0 ≤ depth) (hfaces : ∀ f ∈ poly.faces, depth < f.distance) :
    ∃ x ∈ poly.pointSet, depth ≤ d.dot x := by
  have hbehind : ∀ f ∈ poly.faces, f.height (depth • d) < 0 := by
    intro f hf
    have hunit : f.normal.dot d ≤ 1 := Vec3.dot_le_one (h.fits f hf).unit hd
    have hle : depth * f.normal.dot d ≤ depth := mul_le_of_le_one_right hdepth hunit
    rw [PolytopeFace.height, Vec3.dot_smul]
    linarith [hfaces f hf]
  have hdne : d ≠ 0 := by
    rintro rfl
    rw [Vec3.zero_dot] at hd
    exact zero_ne_one hd
  obtain ⟨i, hi, hle⟩ := exists_corner_ge h.closed h.fits h.faces_ne hbehind hdne
  rw [Vec3.dot_smul, hd, mul_one] at hle
  exact ⟨_, mem_pointSet.mpr ⟨i, hi, rfl⟩, hle⟩

end Polytope

open Polytope in
/-- **The depth of an overlap is never over-reported.** From four affinely independent points of the
difference of two overlapping sets, every step of the growth is the boundary of the hull of its
points, and the penetration reported at the end is at most the depth of the overlap along every unit
direction. -/
theorem penetration_le_depth {a b : Support ℝ} {A B : Set (Vec3 ℝ)} (ha : IsSupport a A)
    (hb : IsSupport b B) (h0 : (0 : Vec3 ℝ) ∈ A - B) {s : Simplex ℝ} (hlen : s.length = 4)
    (hmem : ∀ p ∈ s, p.diff ∈ A - B)
    (hind : AffineIndependent ℝ fun i : Fin s.length => (s.get i).diff) :
    (∀ poly, ofSimplex s = .ok poly → ∀ n, (poly.expand a b n).BoundsHull) ∧
      ∀ r, penetration a b s = .ok r → ∀ d : Vec3 ℝ, d.length = 1 →
        ∃ depth, IsGreatest {t | ∃ x ∈ A, ∃ y ∈ B, t = d.dot (x - y)} depth ∧
          r.penetration ≤ depth := by
  have hstart {poly : Polytope ℝ} (h : ofSimplex s = .ok poly) : Hull poly ∧ poly.pointSet ⊆ A - B := by
    refine ⟨hull_of_ofSimplex hlen hind h, ?_⟩
    rintro x ⟨p, hp, rfl⟩
    rw [(ofSimplex_eq_ok hlen h).1] at hp
    exact hmem p (by simpa using hp)
  refine ⟨fun poly h n => ((hstart h).1.expand n).boundsHull, fun r hr d hd => ?_⟩
  have hunit : d.dot d = 1 := by
    rwa [Vec3.length, Scalar.sqrt_real, Real.sqrt_eq_one] at hd
  have hsupport := ha.sub hb
  refine ⟨d.dot (SupportPoint.along a b d).diff, ⟨?_, ?_⟩, ?_⟩
  · exact ⟨a d, ha.mem d, b (-d), hb.mem (-d), rfl⟩
  · rintro _ ⟨x, hx, y, hy, rfl⟩
    exact hsupport.le d _ (Set.sub_mem_sub hx hy)
  · have horigin := hsupport.le d 0 h0
    rw [Vec3.dot_zero] at horigin
    generalize hM : d.dot (SupportPoint.along a b d).diff = M at *
    cases hpoly : ofSimplex s with
    | error e =>
      rw [penetration, hpoly] at hr
      cases hr
    | ok poly =>
      rw [penetration, hpoly] at hr
      obtain ⟨f, hnearest, hdepth⟩ := hit_eq_ok hr
      obtain ⟨-, hleast⟩ := nearestFace?_eq_some hnearest
      rw [hdepth]
      refine max_le ?_ horigin
      -- were the nearest face further away, a point would lie beyond the support point
      by_contra hfar
      have hmid : M < (M + f.distance) / 2 ∧ (M + f.distance) / 2 < f.distance := by
        constructor <;> linarith
      obtain ⟨x, hx, hle⟩ := ((hstart hpoly).1.expand maxSteps).exists_le_dot hunit
        (horigin.trans hmid.1.le) fun g hg => hmid.2.trans_le (hleast g hg)
      have hin := pointSet_expand_subset ha hb (hstart hpoly).2 maxSteps hx
      have hlast := hsupport.le d x hin
      linarith

/-! ## § A box sunk into the floor of another one -/

namespace Polytope

/-- A face whose listed corners wind toward the interior is turned around. Its distance comes from the
inner product of its normal with a corner. -/
theorem face?_of_inward {points : Array (SupportPoint ℝ)} {i j k : Nat} {z n : Vec3 ℝ}
    (hn : (place points j - place points i).cross (place points k - place points i) = n)
    (hin : n.dot (place points i - z) < 0) (harea : degenerateSq ≤ n.dot n) :
    face? points i j k z = some ⟨i, k, j, -((Real.sqrt (n.dot n))⁻¹ • n),
      -((Real.sqrt (n.dot n))⁻¹ * n.dot (place points i))⟩ := by
  have hplace (q : Nat) : (point points q).diff = place points q := rfl
  have hs : 0 < Real.sqrt (n.dot n) := Real.sqrt_pos.mpr (lt_of_lt_of_le degenerateSq_pos harea)
  simp only [face?, hplace, hn, Vec3.lengthSq_eq, Vec3.div_eq_smul, Scalar.sqrt_real, Scalar.zero_real]
  rw [if_neg (not_lt.mpr harea), if_pos]
  · rw [Vec3.neg_dot, Vec3.smul_dot]
  · rw [Vec3.smul_dot]
    exact mul_neg_of_pos_of_neg (inv_pos.mpr hs) hin

/-- Such a face is at least one away from the origin when its plane is. -/
theorem exists_face_of_inward {points : Array (SupportPoint ℝ)} {i j k : Nat} {z n : Vec3 ℝ}
    (hn : (place points j - place points i).cross (place points k - place points i) = n)
    (hin : n.dot (place points i - z) < 0) (harea : degenerateSq ≤ n.dot n)
    (hneg : n.dot (place points i) ≤ 0)
    (hfar : n.dot n ≤ n.dot (place points i) * n.dot (place points i)) :
    ∃ f, face? points i j k z = some f ∧ 1 ≤ f.distance := by
  refine ⟨_, face?_of_inward hn hin harea, ?_⟩
  have hs : 0 < Real.sqrt (n.dot n) := Real.sqrt_pos.mpr (lt_of_lt_of_le degenerateSq_pos harea)
  rw [← mul_neg, inv_mul_eq_div, one_le_div hs]
  exact Real.sqrt_le_iff.mpr ⟨neg_nonneg.mpr hneg, by rw [neg_sq, sq]; exact hfar⟩

/-- A box of half size nine about the origin. -/
noncomputable def largeBox : Support ℝ := (Shape.box ⟨9, 9, 9⟩).support

/-- A box of half size one that reaches through the floor of the large one. -/
noncomputable def sunkenBox : Support ℝ := Support.translate (Shape.box ⟨1, 1, 1⟩).support ⟨0, 0, -9⟩

/-- Four points of the difference of the two boxes, three of them on its floor. -/
noncomputable def sunkenStart : Simplex ℝ :=
  [⟨⟨-10, -10, -1⟩, ⟨-9, -9, -9⟩⟩, ⟨⟨10, -10, -1⟩, ⟨9, -9, -9⟩⟩, ⟨⟨0, 10, -1⟩, ⟨0, 9, -9⟩⟩,
    ⟨⟨0, 0, 19⟩, ⟨0, 0, 9⟩⟩]

/-- The points of the start are those of a point of each box. -/
theorem sunkenStart_parts : ∀ p ∈ sunkenStart,
    p.onA ∈ boxPoints ⟨9, 9, 9⟩ ∧ p.onB ∈ (· + ⟨0, 0, -9⟩) '' boxPoints ⟨1, 1, 1⟩ := by
  intro p hp
  have hparts : p.onA ∈ boxPoints ⟨9, 9, 9⟩ ∧ p.onB - ⟨0, 0, -9⟩ ∈ boxPoints ⟨1, 1, 1⟩ := by
    simp only [sunkenStart, List.mem_cons, List.not_mem_nil, or_false] at hp
    rcases hp with rfl | rfl | rfl | rfl <;> simp [boxPoints, SupportPoint.onB] <;> norm_num [abs_le]
  exact ⟨hparts.1, _, hparts.2, sub_add_cancel _ _⟩

/-- They belong to the difference of the boxes. -/
theorem sunkenStart_mem : ∀ p ∈ sunkenStart,
    p.diff ∈ boxPoints ⟨9, 9, 9⟩ - (· + ⟨0, 0, -9⟩) '' boxPoints ⟨1, 1, 1⟩ := by
  intro p hp
  obtain ⟨hA, hB⟩ := sunkenStart_parts p hp
  exact ⟨p.onA, hA, p.onB, hB, sub_sub_cancel _ _⟩

theorem sunkenStart_affineIndependent :
    AffineIndependent ℝ fun i : Fin sunkenStart.length => (sunkenStart.get i).diff := by
  refine Vec3.affineIndependent_iff_volume_ne_zero.mpr ?_
  change ((⟨10, -10, -1⟩ - ⟨-10, -10, -1⟩ : Vec3 ℝ).cross (⟨0, 10, -1⟩ - ⟨-10, -10, -1⟩)).dot
    (⟨0, 0, 19⟩ - ⟨-10, -10, -1⟩) ≠ 0
  simp [Vec3.dot_def, Vec3.cross_x, Vec3.cross_y, Vec3.cross_z]
  norm_num

/-- When the nearest face cannot be pushed out, nothing grows. -/
theorem expand_eq_self {a b : Support ℝ} {poly : Polytope ℝ} {f : PolytopeFace ℝ}
    (hf : nearestFace? poly.faces = some f)
    (hdone : f.normal.dot (SupportPoint.along a b f.normal).diff - f.distance < tolerance) (n : Nat) :
    poly.expand a b n = poly := by
  cases n with
  | zero => rfl
  | succ n =>
    unfold expand
    rw [hf]
    exact if_pos hdone

/-- The start is a tetrahedron with the floor as its nearest face, at a distance of one. -/
theorem sunkenStart_ofSimplex : ∃ poly, ofSimplex sunkenStart = .ok poly ∧
    poly.points = sunkenStart.toArray ∧ nearestFace? poly.faces = some ⟨0, 2, 1, ⟨0, 0, -1⟩, 1⟩ := by
  have p₀ : place sunkenStart.toArray 0 = ⟨-10, -10, -1⟩ := rfl
  have p₁ : place sunkenStart.toArray 1 = ⟨10, -10, -1⟩ := rfl
  have p₂ : place sunkenStart.toArray 2 = ⟨0, 10, -1⟩ := rfl
  have p₃ : place sunkenStart.toArray 3 = ⟨0, 0, 19⟩ := rfl
  let z : Vec3 ℝ := ⟨0, -5 / 2, 4⟩
  have hz : sunkenStart.foldl (fun sum p => sum + p.diff) Vec3.zero /
      (Scalar.ofInt sunkenStart.length : ℝ) = z := by
    ext <;> simp [sunkenStart, z] <;> norm_num
  have hfloor : face? sunkenStart.toArray 0 1 2 z = some ⟨0, 2, 1, ⟨0, 0, -1⟩, 1⟩ := by
    rw [face?_of_inward (n := ⟨0, 0, 400⟩)
      (by rw [p₀, p₁, p₂]; ext <;> simp [Vec3.cross_x, Vec3.cross_y, Vec3.cross_z]; norm_num)
      (by rw [p₀]; simp [Vec3.dot_def, z]; norm_num) (by simp [degenerateSq, Vec3.dot_def]; norm_num)]
    have hroot : Real.sqrt (Vec3.dot ⟨0, 0, 400⟩ ⟨0, 0, 400⟩) = 400 := by
      rw [show Vec3.dot ⟨0, 0, 400⟩ ⟨0, 0, 400⟩ = (400 : ℝ) ^ 2 by simp [Vec3.dot_def]; norm_num]
      exact Real.sqrt_sq (by norm_num)
    rw [hroot, p₀]
    simp [Vec3.dot_def, Vec3.ext_iff]
  have hwall₁ : ∃ f, face? sunkenStart.toArray 0 2 3 z = some f ∧ 1 ≤ f.distance :=
    exists_face_of_inward (n := ⟨400, -200, -100⟩)
      (by rw [p₀, p₂, p₃]; ext <;> simp [Vec3.cross_x, Vec3.cross_y, Vec3.cross_z] <;> norm_num)
      (by rw [p₀]; simp [Vec3.dot_def, z]; norm_num) (by simp [degenerateSq, Vec3.dot_def]; norm_num)
      (by rw [p₀]; simp [Vec3.dot_def]; norm_num) (by rw [p₀]; simp [Vec3.dot_def]; norm_num)
  have hwall₂ : ∃ f, face? sunkenStart.toArray 0 3 1 z = some f ∧ 1 ≤ f.distance :=
    exists_face_of_inward (n := ⟨0, 400, -200⟩)
      (by rw [p₀, p₁, p₃]; ext <;> simp [Vec3.cross_x, Vec3.cross_y, Vec3.cross_z] <;> norm_num)
      (by rw [p₀]; simp [Vec3.dot_def, z]; norm_num) (by simp [degenerateSq, Vec3.dot_def]; norm_num)
      (by rw [p₀]; simp [Vec3.dot_def]; norm_num) (by rw [p₀]; simp [Vec3.dot_def]; norm_num)
  have hwall₃ : ∃ f, face? sunkenStart.toArray 1 3 2 z = some f ∧ 1 ≤ f.distance :=
    exists_face_of_inward (n := ⟨-400, -200, -100⟩)
      (by rw [p₁, p₂, p₃]; ext <;> simp [Vec3.cross_x, Vec3.cross_y, Vec3.cross_z] <;> norm_num)
      (by rw [p₁]; simp [Vec3.dot_def, z]; norm_num) (by simp [degenerateSq, Vec3.dot_def]; norm_num)
      (by rw [p₁]; simp [Vec3.dot_def]; norm_num) (by rw [p₁]; simp [Vec3.dot_def]; norm_num)
  obtain ⟨f₁, h₁, hd₁⟩ := hwall₁
  obtain ⟨f₂, h₂, hd₂⟩ := hwall₂
  obtain ⟨f₃, h₃, hd₃⟩ := hwall₃
  refine ⟨⟨sunkenStart.toArray, [⟨0, 2, 1, ⟨0, 0, -1⟩, 1⟩, f₁, f₂, f₃], z⟩, ?_, rfl, ?_⟩
  · unfold ofSimplex
    rw [if_neg (show ¬sunkenStart.length < 4 from Nat.lt_irrefl 4)]
    simp only [hz, List.mapM_cons, List.mapM_nil]
    rw [hfloor, h₁, h₂, h₃]
    rfl
  · simp only [nearestFace?, List.foldl_cons, List.foldl_nil, if_neg (not_lt.mpr hd₁),
      if_neg (not_lt.mpr hd₂), if_neg (not_lt.mpr hd₃)]

/-- The floor cannot be pushed out. -/
theorem sunkenStart_expand {poly : Polytope ℝ}
    (hnearest : nearestFace? poly.faces = some ⟨0, 2, 1, ⟨0, 0, -1⟩, 1⟩) (n : Nat) :
    poly.expand largeBox sunkenBox n = poly := by
  refine expand_eq_self hnearest ?_ n
  simp [SupportPoint.along, largeBox, sunkenBox, Support.translate, Shape.support, signSelect,
    Vec3.dot_def, tolerance]
  norm_num

/-- The growth ends at once, with the depth of one by which the box is sunk. -/
theorem sunkenBox_hit :
    ∃ r, penetration largeBox sunkenBox sunkenStart = .ok r ∧ r.penetration = 1 := by
  obtain ⟨poly, hpoly, hpoints, hnearest⟩ := sunkenStart_ofSimplex
  rw [penetration, hpoly]
  change ∃ r, (poly.expand largeBox sunkenBox maxSteps).hit = .ok r ∧ _
  rw [sunkenStart_expand hnearest, hit, hnearest]
  have hfoot : barycentric? (⟨-10, -10, -1⟩ : Vec3 ℝ) ⟨0, 10, -1⟩ ⟨10, -10, -1⟩
      ((⟨0, 0, -1⟩ : Vec3 ℝ) * (1 : ℝ)) = some ⟨1 / 4, 1 / 2, 1 / 4⟩ := by
    simp [barycentric?, Vec3.dot_def, degenerateSq, Vec3.ext_iff]
    norm_num
  have hcorners : (point poly.points 0).diff = ⟨-10, -10, -1⟩ ∧
      (point poly.points 2).diff = ⟨0, 10, -1⟩ ∧ (point poly.points 1).diff = ⟨10, -10, -1⟩ := by
    rw [hpoints]
    exact ⟨rfl, rfl, rfl⟩
  dsimp only
  rw [hcorners.1, hcorners.2.1, hcorners.2.2, hfoot]
  exact ⟨_, rfl, by simp⟩

/-- The boxes overlap by one unit, and along no direction by less. -/
theorem sunkenBox_depth :
    (∃ poly, ofSimplex sunkenStart = .ok poly ∧ ∀ n, (poly.expand largeBox sunkenBox n).BoundsHull) ∧
      ∃ r, penetration largeBox sunkenBox sunkenStart = .ok r ∧ r.penetration = 1 ∧
        ∀ d : Vec3 ℝ, d.length = 1 → ∃ depth,
          IsGreatest {t | ∃ x ∈ boxPoints ⟨9, 9, 9⟩, ∃ y ∈ (· + ⟨0, 0, -9⟩) '' boxPoints ⟨1, 1, 1⟩,
            t = d.dot (x - y)} depth ∧ 1 ≤ depth := by
  obtain ⟨poly, hpoly, -, -⟩ := sunkenStart_ofSimplex
  obtain ⟨r, hr, hone⟩ := sunkenBox_hit
  have horigin : (0 : Vec3 ℝ) ∈ boxPoints ⟨9, 9, 9⟩ - (· + ⟨0, 0, -9⟩) '' boxPoints ⟨1, 1, 1⟩ :=
    ⟨⟨0, 0, -9⟩, by simp [boxPoints], ⟨0, 0, -9⟩, ⟨0, by simp [boxPoints], zero_add _⟩, sub_self _⟩
  obtain ⟨hsurface, hdepth⟩ := penetration_le_depth (isSupport_box (by simp) (by simp) (by simp))
    ((isSupport_box (by simp) (by simp) (by simp)).translate _) horigin rfl sunkenStart_mem
    sunkenStart_affineIndependent
  have hreport := hdepth r hr
  rw [hone] at hreport
  exact ⟨⟨poly, hpoly, hsurface poly hpoly⟩, r, hr, hone, hreport⟩

end Polytope

end ConvexCollision
