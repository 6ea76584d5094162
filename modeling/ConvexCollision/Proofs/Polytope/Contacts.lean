import ConvexCollision.Proofs.Polytope.Converged
import ConvexCollision.Proofs.Polytope.Depth
import ConvexCollision.Proofs.Polytope.Facet
import ConvexCollision.Proofs.Polytope.Watched

/-!
# ConvexCollision.Proofs.Polytope.Contacts -- where the contact points of an overlap lie

The contact points are taken from the nearest face, with the weights of its foot: the point of its plane
that is nearest the origin. The weights add up to one and make up the foot (`barycentric?_eq_some`), so the
two contact points are apart by the foot. They are points of the two sets when no weight is negative
(`TakenFrom.mem`), which is when the foot lies in the face and not merely in its plane (`TakenFrom.foot_eq`).

When the origin is behind all faces of a convex polytope, so is the foot of the nearest face. Then some face
of the same plane holds it (`Hull.exists_face_of_foot`), and the weights of a face that is alone in its plane
are not negative. When several faces share the plane, the first of them is taken, whether or not the foot
lies in it (`crossedBoxes_beside`).
-/

namespace ConvexCollision

/-! ## §A Weights in the plane of a triangle -/

namespace Vec3

/-- A vector in the plane of two others is made up of them. -/
theorem gram_smul {v w u : Vec3 ℝ} (h : (v.cross w).dot u = 0) :
    (v.dot v * w.dot w - v.dot w * v.dot w) • u =
      (w.dot w * u.dot v - v.dot w * u.dot w) • v + (v.dot v * u.dot w - v.dot w * u.dot v) • w := by
  simp only [dot_def, cross_x, cross_y, cross_z] at h
  ext <;> simp only [dot_def, add_x, add_y, add_z, smul_x, smul_y, smul_z]
  · linear_combination (v.y * w.z - w.y * v.z) * h
  · linear_combination (v.z * w.x - w.z * v.x) * h
  · linear_combination (v.x * w.y - w.x * v.y) * h

end Vec3

namespace Polytope

/-- The weights of a point in the plane of a triangle make it up. -/
theorem barycentric?_eq_some {a b c p w : Vec3 ℝ} (h : barycentric? a b c p = some w)
    (hplane : ((b - a).cross (c - a)).dot (p - a) = 0) :
    w.x + w.y + w.z = 1 ∧ w.x • a + w.y • b + w.z • c = p := by
  have hspan := Vec3.gram_smul hplane
  unfold barycentric? at h
  dsimp only at h
  generalize (c - a).dot (c - a) * (p - a).dot (b - a) - (b - a).dot (c - a) * (p - a).dot (c - a) = v
    at h hspan
  generalize (b - a).dot (b - a) * (p - a).dot (c - a) - (b - a).dot (c - a) * (p - a).dot (b - a) = u
    at h hspan
  generalize (b - a).dot (b - a) * (c - a).dot (c - a) - (b - a).dot (c - a) * (b - a).dot (c - a) = det
    at h hspan
  split at h
  · cases h
  · next harea =>
    have hdet : det ≠ 0 := by
      rintro rfl
      apply harea
      rw [Scalar.abs_real, abs_zero]
      exact mul_pos degenerateSq_pos degenerateSq_pos
    cases h
    simp only [Scalar.one_real]
    have hfoot : (v / det) • (b - a) + (u / det) • (c - a) = p - a := by
      rw [div_eq_inv_mul, div_eq_inv_mul, mul_smul, mul_smul, ← smul_add, ← hspan, smul_smul,
        inv_mul_cancel₀ hdet, one_smul]
    refine ⟨by ring, ?_⟩
    calc (1 - v / det - u / det) • a + (v / det) • b + (u / det) • c
        = a + ((v / det) • (b - a) + (u / det) • (c - a)) := by module
      _ = p := by rw [hfoot, add_sub_cancel]

end Polytope

/-! ## §B Contact points and the foot of a face -/

section Taken

variable {α : Type} [Scalar α] {poly : Polytope α} {r : Hit α}

/-- The point of the face's plane that is nearest the origin. -/
def PolytopeFace.foot (f : PolytopeFace α) : Vec3 α := f.normal * f.distance

namespace Polytope

/-- The answer takes its contact points from a nearest face, with the weights of its foot. -/
structure TakenFrom (poly : Polytope α) (f : PolytopeFace α) (w : Vec3 α) (r : Hit α) : Prop where
  /-- The face is the first of the nearest ones. -/
  nearest : nearestFace? poly.faces = some f
  /-- The weights are those of the foot. -/
  weights : barycentric? (point poly.points f.i).diff (point poly.points f.j).diff
    (point poly.points f.k).diff f.foot = some w
  /-- The normal is that of the face. -/
  normal : r.normal = f.normal
  /-- The contact point on the first set. -/
  contactA : r.contactA = (point poly.points f.i).onA * w.x + (point poly.points f.j).onA * w.y +
    (point poly.points f.k).onA * w.z
  /-- The contact point on the second set. -/
  contactB : r.contactB = (point poly.points f.i).onB * w.x + (point poly.points f.j).onB * w.y +
    (point poly.points f.k).onB * w.z

/-- Every answer is taken from a face. -/
theorem exists_takenFrom (h : poly.hit = .ok r) : ∃ f w, poly.TakenFrom f w r := by
  unfold hit at h
  split at h
  · cases h
  · next f hf =>
    dsimp only at h
    split at h
    · cases h
    · next w hw =>
      cases h
      exact ⟨f, w, hf, hw, rfl, rfl, rfl⟩

end Polytope

end Taken

namespace Polytope

variable {poly : Polytope ℝ} {f : PolytopeFace ℝ} {w : Vec3 ℝ} {r : Hit ℝ}

/-- The foot lies in the plane of the face. -/
theorem height_foot (h : f.Fits poly.points) : f.height f.foot = 0 := by
  rw [PolytopeFace.height, PolytopeFace.foot, Vec3.mul_eq_smul, Vec3.dot_smul, h.unit, mul_one, sub_self]

/-- **What the contact points make up.** The weights add up to one, the contact points are apart by the foot
of the face, and no weight is negative exactly when the foot lies in the face. -/
theorem TakenFrom.foot_eq (h : poly.TakenFrom f w r) (hfits : f.Fits poly.points) :
    w.x + w.y + w.z = 1 ∧ r.contactA - r.contactB = f.foot ∧
      (w.Nonneg ↔ f.foot ∈ (f.triangle poly.points).points) := by
  obtain ⟨s, hs, hwinds⟩ := hfits.winds
  obtain ⟨hcorner, -, -⟩ := hfits.height_corners
  have harea : (place poly.points f.j - place poly.points f.i).cross
      (place poly.points f.k - place poly.points f.i) ≠ 0 := by
    rw [hwinds]
    intro hzero
    have hunit := hfits.unit
    rw [(smul_eq_zero.mp hzero).resolve_left hs.ne', Vec3.dot_zero] at hunit
    exact zero_ne_one hunit
  have hplane : ((place poly.points f.j - place poly.points f.i).cross
      (place poly.points f.k - place poly.points f.i)).dot (f.foot - place poly.points f.i) = 0 := by
    rw [hwinds, Vec3.smul_dot, ← PolytopeFace.height_eq hcorner, height_foot hfits, mul_zero]
  obtain ⟨hsum, hfoot⟩ := barycentric?_eq_some h.weights hplane
  refine ⟨hsum, ?_, Vec3.nonneg_iff_mem_convexHull harea hsum hfoot⟩
  have hdiff (i : Nat) :
      (point poly.points i).diff = (point poly.points i).onA - (point poly.points i).onB :=
    (sub_sub_cancel _ _).symm
  rw [h.contactA, h.contactB, ← hfoot]
  simp only [hdiff, Vec3.mul_eq_smul]
  module

/-! ## §C Faces that fit and points of the two sets -/

/-- The numbers of every face belong together. -/
def AllFit (poly : Polytope ℝ) : Prop := ∀ f ∈ poly.faces, f.Fits poly.points

/-- Faces on corners in the table fit. -/
theorem fits_of_mapM_face? {points : Array (SupportPoint ℝ)} {z : Vec3 ℝ}
    {corners : List (Nat × Nat × Nat)} {fs : List (PolytopeFace ℝ)}
    (h : corners.mapM (fun t => face? points t.1 t.2.1 t.2.2 z) = some fs)
    (hcorners : ∀ t ∈ corners, t.1 < points.size ∧ t.2.1 < points.size ∧ t.2.2 < points.size) :
    ∀ f ∈ fs, f.Fits points := by
  intro f hf
  obtain ⟨t, ht, hface⟩ := exists_of_forall₂_of_mem (forall₂_of_mapM_eq_some h) hf
  obtain ⟨hi, hj, hk⟩ := hcorners t ht
  exact (face?_eq_some hface hi hj hk).1

/-- The faces of the start fit, whether or not its points span a volume. -/
theorem allFit_of_ofSimplex {s : Simplex ℝ} (h : ofSimplex s = .ok poly) : poly.AllFit := by
  obtain ⟨hlength, hpoints, -, hfaces⟩ := parts_of_ofSimplex h
  refine fits_of_mapM_face? hfaces (tetrahedron_corners ?_)
  rwa [hpoints, List.size_toArray]

/-- The start has at least four points, and they are those of the simplex. -/
theorem points_of_ofSimplex {s : Simplex ℝ} (h : ofSimplex s = .ok poly) :
    4 ≤ s.length ∧ poly.points = s.toArray := by
  obtain ⟨hlength, hpoints, -⟩ := parts_of_ofSimplex h
  exact ⟨not_lt.mp hlength, hpoints⟩

/-- They fit when a point has been added. -/
theorem AllFit.insert? {p : SupportPoint ℝ} {grown : Polytope ℝ} (h : poly.AllFit)
    (hindexed : poly.Indexed) (hgrown : poly.insert? p = some grown) : grown.AllFit := by
  have hrim : poly.rim p.diff ≠ [] := (insert?_eq_some hgrown).1
  rw [insert?_of_rim hrim] at hgrown
  obtain ⟨new, hnew, rfl⟩ := Option.map_eq_some_iff.mp hgrown
  intro f hf
  rcases List.mem_append.mp hf with hf | hf
  · exact (h f (List.mem_of_mem_filter hf)).push p
  · exact fits_of_mapM_face? hnew (hindexed.newCorners p) f hf

/-- They fit at every step of the growth. -/
theorem AllFit.expand {a b : Support ℝ} (h : poly.AllFit) (hindexed : poly.Indexed) (steps : Nat) :
    (poly.expand a b steps).AllFit := by
  refine (expand_induction (P := fun poly => poly.Indexed ∧ poly.AllFit) ?_ steps ⟨hindexed, h⟩).2
  rintro poly grown d ⟨hindexed, h⟩ hgrown
  exact ⟨hindexed.insert? hgrown, h.insert? hindexed hgrown⟩

end Polytope

/-- The point belongs to the difference of two sets as the difference of a point of each. -/
def SupportPoint.Between (A B : Set (Vec3 ℝ)) (p : SupportPoint ℝ) : Prop := p.onA ∈ A ∧ p.onB ∈ B

variable {a b : Support ℝ} {A B : Set (Vec3 ℝ)}

theorem SupportPoint.between_along (ha : IsSupport a A) (hb : IsSupport b B) (d : Vec3 ℝ) :
    (SupportPoint.along a b d).Between A B := by
  refine ⟨ha.mem d, ?_⟩
  show a d - (a d - b (-d)) ∈ B
  rw [sub_sub_cancel]
  exact hb.mem (-d)

/-- The points that the test for overlap ends with are those of two points of the sets. -/
theorem between_of_find? (ha : IsSupport a A) (hb : IsSupport b B) {direction : Vec3 ℝ} {s : Simplex ℝ}
    (h : Overlap.find? a b direction = some s) : s.length ≤ 4 ∧ ∀ p ∈ s, p.Between A B := by
  obtain ⟨first, searched, completed, -, -, -, hdrawn⟩ := Watched.find_yields a b direction
  refine ⟨(hdrawn s h).length_le, fun p hp => ?_⟩
  obtain ⟨d, -, rfl⟩ := (hdrawn s h).exists_along p hp
  exact SupportPoint.between_along ha hb d

namespace Polytope

variable {poly : Polytope ℝ} {f : PolytopeFace ℝ} {w : Vec3 ℝ} {r : Hit ℝ}

/-- The points of a growing polytope stay points of the two sets. -/
theorem between_expand (ha : IsSupport a A) (hb : IsSupport b B) (h : ∀ p ∈ poly.points, p.Between A B)
    (steps : Nat) : ∀ p ∈ (poly.expand a b steps).points, p.Between A B := by
  refine expand_induction (P := fun poly => ∀ p ∈ poly.points, p.Between A B) ?_ steps h
  intro poly grown d h hgrown p hp
  obtain ⟨-, new, -, rfl⟩ := insert?_eq_some hgrown
  rcases Array.mem_push.mp hp with hp | rfl
  · exact h p hp
  · exact SupportPoint.between_along ha hb d

/-- With weights of which none is negative, the contact points belong to the sets. -/
theorem TakenFrom.mem (h : poly.TakenFrom f w r) (hfits : f.Fits poly.points)
    (hpoints : ∀ p ∈ poly.points, p.Between A B) (hA : Convex ℝ A) (hB : Convex ℝ B) (hw : w.Nonneg) :
    r.contactA ∈ A ∧ r.contactB ∈ B := by
  obtain ⟨hsum, -, -⟩ := h.foot_eq hfits
  have hcorner {i : Nat} (hi : i < poly.points.size) : (point poly.points i).Between A B := by
    have hget : point poly.points i = poly.points[i] := by
      simp [point, Array.getD_eq_getD_getElem?, hi]
    rw [hget]
    exact hpoints _ (Array.getElem_mem hi)
  obtain ⟨hi, hj, hk⟩ := hfits.lt_size
  rw [h.contactA, h.contactB]
  simp only [Vec3.mul_eq_smul]
  exact ⟨hw.mem hsum hA (hcorner hi).1 (hcorner hj).1 (hcorner hk).1,
    hw.mem hsum hB (hcorner hi).2 (hcorner hj).2 (hcorner hk).2⟩

/-! ## §D Faces that share a plane -/

/-- The foot of a nearest face is behind all faces, when the origin is. -/
theorem Hull.height_foot_nonpos (h : Hull poly) (hnearest : nearestFace? poly.faces = some f)
    (horigin : 0 ≤ f.distance) : ∀ g ∈ poly.faces, g.height f.foot ≤ 0 := by
  obtain ⟨hf, hleast⟩ := nearestFace?_eq_some hnearest
  intro g hg
  have hunit : g.normal.dot f.normal ≤ 1 := Vec3.dot_le_one (h.fits g hg).unit (h.fits f hf).unit
  rw [PolytopeFace.height, PolytopeFace.foot, Vec3.mul_eq_smul, Vec3.dot_smul, sub_nonpos]
  exact (mul_le_of_le_one_right horigin hunit).trans (hleast g hg)

/-- The foot of a nearest face lies in a face of the same plane. -/
theorem Hull.exists_face_of_foot (h : Hull poly) (hnearest : nearestFace? poly.faces = some f)
    (horigin : 0 ≤ f.distance) :
    ∃ g ∈ poly.faces, g.normal = f.normal ∧ f.foot ∈ (g.triangle poly.points).points := by
  obtain ⟨hf, -⟩ := nearestFace?_eq_some hnearest
  exact h.exists_face_of_behind hf (height_foot (h.fits f hf)) (h.height_foot_nonpos hnearest horigin)

end Polytope

open Polytope in
/-- **Where the contact points of an overlap lie.** The test for overlap finds up to four points, each the
difference of a point of either set. From any such points an answer takes its contact points from a nearest
face, with weights that add up to one, and they are apart by the foot of the face. No weight is negative
exactly when the foot lies in the face, and then the contact points belong to the two convex sets.

From four affinely independent points, with the origin behind all faces, the foot lies in some face of the
same plane. So the contact points belong to the sets when no other face shares the plane. -/
theorem penetration_contacts (ha : IsSupport a A) (hb : IsSupport b B) (hA : Convex ℝ A)
    (hB : Convex ℝ B) :
    (∀ direction s, Overlap.find? a b direction = some s → s.length ≤ 4 ∧ ∀ p ∈ s, p.Between A B) ∧
      ∀ s r, (∀ p ∈ s, p.Between A B) → penetration a b s = .ok r →
        ∃ start poly f w, ofSimplex s = .ok start ∧ start.expand a b maxSteps = poly ∧
          poly.TakenFrom f w r ∧ w.x + w.y + w.z = 1 ∧ r.contactA - r.contactB = f.foot ∧
          (w.Nonneg ↔ f.foot ∈ (f.triangle poly.points).points) ∧
          (w.Nonneg → r.contactA ∈ A ∧ r.contactB ∈ B) ∧
          (s.length ≤ 4 → AffineIndependent ℝ (fun i : Fin s.length => (s.get i).diff) →
            0 ≤ f.distance →
              (∃ g ∈ poly.faces, g.normal = f.normal ∧ f.foot ∈ (g.triangle poly.points).points) ∧
              ((∀ g ∈ poly.faces, g.normal = f.normal → g = f) → w.Nonneg)) := by
  refine ⟨fun direction s hs => between_of_find? ha hb hs, fun s r hs hr => ?_⟩
  obtain ⟨start, hstart, hhit⟩ := exists_hit_of_penetration hr
  obtain ⟨hfour, hpoints⟩ := points_of_ofSimplex hstart
  obtain ⟨f, w, htaken⟩ := exists_takenFrom hhit
  have hfit := (allFit_of_ofSimplex hstart).expand (a := a) (b := b) (indexed_of_ofSimplex hstart) maxSteps
  have hfits := hfit f (nearestFace?_eq_some htaken.nearest).1
  obtain ⟨hsum, hsub, hiff⟩ := htaken.foot_eq hfits
  refine ⟨start, _, f, w, hstart, rfl, htaken, hsum, hsub, hiff, ?_, fun hlen hind horigin => ?_⟩
  · refine htaken.mem hfits (between_expand ha hb ?_ maxSteps) hA hB
    intro p hp
    rw [hpoints] at hp
    exact hs p (by simpa using hp)
  · have hlength : s.length = 4 := le_antisymm hlen hfour
    have hhull := (hull_of_ofSimplex hlength hind hstart).expand (a := a) (b := b) maxSteps
    obtain ⟨g, hg, hnormal, hfoot⟩ := hhull.exists_face_of_foot htaken.nearest horigin
    refine ⟨⟨g, hg, hnormal, hfoot⟩, fun halone => hiff.mpr ?_⟩
    rwa [halone g hg hnormal] at hfoot

namespace Polytope

/-- A face that is made on three points of the table has all of them in its plane. -/
theorem height_eq_zero_of_face? {points : Array (SupportPoint ℝ)} {i j k : Nat} {z : Vec3 ℝ}
    (h : face? points i j k z = some f) (hi : i < points.size) (hj : j < points.size)
    (hk : k < points.size) : f.height (place points j) = 0 ∧ f.height (place points k) = 0 := by
  obtain ⟨hfits, -, hwind⟩ := face?_eq_some h hi hj hk
  obtain ⟨-, hsecond, hthird⟩ := hfits.height_corners
  split at hwind
  · rw [hwind.1] at hsecond
    rw [hwind.2] at hthird
    exact ⟨hthird, hsecond⟩
  · rw [hwind.1] at hsecond
    rw [hwind.2] at hthird
    exact ⟨hsecond, hthird⟩

/-- In the plane of the floor of the sunken box there is no other face. -/
theorem sunkenStart_alone {start : Polytope ℝ} (h : ofSimplex sunkenStart = .ok start)
    (hf : f ∈ start.faces) (hfloor : f.normal = ⟨0, 0, -1⟩) (hdistance : f.distance = 1) :
    ∀ g ∈ start.faces, g.normal = f.normal → g = f := by
  have hhull := hull_of_ofSimplex rfl sunkenStart_affineIndependent h
  obtain ⟨hpoints, -, f₀, f₁, f₂, f₃, hfaces, -, h₁, h₂, h₃⟩ := ofSimplex_eq_ok rfl h
  have hsize : start.points.size = 4 := by
    rw [hpoints]
    rfl
  -- the other faces have the top as a corner, which is not in the plane of the floor
  have htop {g : PolytopeFace ℝ} (hg : g ∈ start.faces) (hcorner : g.height (place start.points 3) = 0) :
      g.normal ≠ f.normal := by
    intro hnormal
    have hplace : place start.points 3 = ⟨0, 0, 19⟩ := by
      rw [hpoints]
      rfl
    rw [PolytopeFace.height, hhull.distance_eq hf hg hnormal, hnormal, hfloor, hdistance, hplace] at hcorner
    norm_num [Vec3.dot_def] at hcorner
  have hfirst : ∀ g ∈ start.faces, g.normal = f.normal → g = f₀ := by
    intro g hg hnormal
    have hg' := hg
    rw [hfaces] at hg'
    simp only [List.mem_cons, List.not_mem_nil, or_false] at hg'
    rcases hg' with rfl | rfl | rfl | rfl
    · rfl
    · have hcorner := (height_eq_zero_of_face? h₁ (by omega) (by omega) (by omega)).2
      exact absurd hnormal (htop hg hcorner)
    · have hcorner := (height_eq_zero_of_face? h₂ (by omega) (by omega) (by omega)).1
      exact absurd hnormal (htop hg hcorner)
    · have hcorner := (height_eq_zero_of_face? h₃ (by omega) (by omega) (by omega)).1
      exact absurd hnormal (htop hg hcorner)
  intro g hg hnormal
  rw [hfirst g hg hnormal, hfirst f hf rfl]

end Polytope

open Polytope in
/-- The contact points of the sunken box belong to the boxes, and they are apart by the foot of the floor. -/
theorem sunkenBox_contacts : ∃ r, penetration largeBox sunkenBox sunkenStart = .ok r ∧
    r.contactA - r.contactB = ⟨0, 0, -1⟩ ∧ r.contactA ∈ boxPoints ⟨9, 9, 9⟩ ∧
      r.contactB ∈ (· + ⟨0, 0, -9⟩) '' boxPoints ⟨1, 1, 1⟩ := by
  obtain ⟨r, hr, -⟩ := sunkenBox_hit
  have hsmall : Convex ℝ ((· + ⟨0, 0, -9⟩) '' boxPoints ⟨1, 1, 1⟩) := by
    simpa only [add_comm] using (convex_boxPoints ⟨1, 1, 1⟩).translate ⟨0, 0, -9⟩
  obtain ⟨start, poly, f, w, hstart, hgrown, htaken, -, hsub, -, hmem, hplane⟩ :=
    (penetration_contacts (isSupport_box (by simp) (by simp) (by simp))
      ((isSupport_box (by simp) (by simp) (by simp)).translate _) (convex_boxPoints _) hsmall).2
      sunkenStart r sunkenStart_parts hr
  obtain ⟨start', hstart', -, hnearest⟩ := sunkenStart_ofSimplex
  obtain rfl : start = start' := Except.ok.inj (hstart.symm.trans hstart')
  obtain rfl : start = poly := (sunkenStart_expand hnearest maxSteps).symm.trans hgrown
  obtain rfl : f = ⟨0, 2, 1, ⟨0, 0, -1⟩, 1⟩ := Option.some.inj (htaken.nearest.symm.trans hnearest)
  obtain ⟨hA, hB⟩ := hmem ((hplane (le_refl 4) sunkenStart_affineIndependent zero_le_one).2
    (sunkenStart_alone hstart (nearestFace?_eq_some hnearest).1 rfl rfl))
  refine ⟨r, hr, ?_, hA, hB⟩
  rw [hsub, PolytopeFace.foot, Vec3.mul_eq_smul, one_smul]

/-- Contact points can lie beside both sets. Two boxes overlap by two units along the last axis, and the side
of their difference there is made up of several faces. The first one of these does not hold its foot, so that
two of the weights are negative: the contact points are half a unit and more beside the boxes. -/
theorem crossedBoxes_beside :
    let a := boxAt ⟨3, 2, 1⟩ ⟨0, 0, 0⟩
    let b := boxAt ⟨1, 3, 1⟩ ⟨-1.5, 1.5, 0⟩
    ∃ s r start poly f w, Overlap.find? a b ⟨0, -1, 0⟩ = some s ∧ penetration a b s = .ok r ∧
      Polytope.ofSimplex s = .ok start ∧ start.expand a b Polytope.maxSteps = poly ∧ poly.TakenFrom f w r ∧
      w.x < -0.2 ∧ w.z < -0.2 ∧ r.contactA.y < -2.5 ∧ r.contactB.y < -2 := by
  intro a b
  have hrun : ((Overlap.find? a b ⟨0, -1, 0⟩).bind fun s => (Polytope.ofSimplex s).toOption.bind fun start =>
      let poly := start.expand a b Polytope.maxSteps
      poly.hit.toOption.bind fun r => (Polytope.nearestFace? poly.faces).bind fun f =>
        (Polytope.barycentric? (Polytope.point poly.points f.i).diff (Polytope.point poly.points f.j).diff
          (Polytope.point poly.points f.k).diff f.foot).map fun w =>
            decide (w.x < -0.2 ∧ w.z < -0.2 ∧ r.contactA.y < -2.5 ∧ r.contactB.y < -2)) = some true := by
    decide +kernel
  obtain ⟨s, hs, hrun⟩ := Option.bind_eq_some_iff.mp hrun
  obtain ⟨start, hstart, hrun⟩ := Option.bind_eq_some_iff.mp hrun
  obtain ⟨r, hr, hrun⟩ := Option.bind_eq_some_iff.mp hrun
  obtain ⟨f, hf, hrun⟩ := Option.bind_eq_some_iff.mp hrun
  obtain ⟨w, hw, hrun⟩ := Option.map_eq_some_iff.mp hrun
  have hpenetration : penetration a b s = .ok r := by
    unfold penetration
    rw [eq_ok_of_toOption hstart]
    exact eq_ok_of_toOption hr
  obtain ⟨f', w', htaken⟩ := Polytope.exists_takenFrom (eq_ok_of_toOption hr)
  obtain rfl : f = f' := Option.some.inj (hf.symm.trans htaken.nearest)
  obtain rfl : w = w' := Option.some.inj (hw.symm.trans htaken.weights)
  exact ⟨s, r, start, _, f, w, hs, hpenetration, eq_ok_of_toOption hstart, rfl, htaken,
    of_decide_eq_true hrun⟩

end ConvexCollision
