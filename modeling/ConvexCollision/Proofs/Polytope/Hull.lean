import ConvexCollision.Proofs.Except
import ConvexCollision.Proofs.Polytope.Surface
import ConvexCollision.Proofs.Polytope.Visibility

/-!
# ConvexCollision.Proofs.Polytope.Hull -- a growing polytope stays closed and convex

`Hull` says that the faces of a polytope form a closed convex surface around its interior. Adding a
point keeps that up (`Hull.insert`): the faces that the point sees leave a hole, whose rim it is joined
to. That the new faces wind away from the interior and have every point behind them follows from
`Vec3.exists_between`; that the rim leaves no point twice, so that the surface closes again, follows
from `Vec3.exists_smul_of_two_edges`. The latter needs that no point of the table lies on an edge
that leaves the same corner, which is part of the invariant (`Hull.spread`).
-/

namespace ConvexCollision.Polytope

/-- The faces of a polytope form a closed convex surface around its interior. -/
structure Hull (poly : Polytope ℝ) : Prop where
  /-- Each directed edge occurs once, together with its reverse. -/
  closed : Closed poly.edges
  /-- There are faces. -/
  faces_ne : poly.faces ≠ []
  /-- The numbers of each face belong together. -/
  fits : ∀ f ∈ poly.faces, f.Fits poly.points
  /-- The interior is strictly behind every face. -/
  interior_behind : ∀ f ∈ poly.faces, f.height poly.interior < 0
  /-- No point of the table is in front of a face. -/
  points_behind : ∀ f ∈ poly.faces, ∀ q < poly.points.size, f.height (place poly.points q) ≤ 0
  /-- No point of the table lies on an edge, apart from the corner where the edge starts. -/
  spread : ∀ e ∈ poly.edges, ∀ q < poly.points.size, q ≠ e.2 → ∀ t : ℝ, 0 < t → t ≤ 1 →
    place poly.points q - place poly.points e.1 ≠
      t • (place poly.points e.2 - place poly.points e.1)

/-! ## § Making a face -/

variable {points : Array (SupportPoint ℝ)} {i j k : Nat} {z : Vec3 ℝ} {f : PolytopeFace ℝ}

theorem degenerateSq_pos : (0 : ℝ) < degenerateSq := by
  simp only [degenerateSq]
  norm_num

/-- A face that is made belongs to its corners. It is turned around when it would wind toward the
interior. -/
theorem face?_eq_some (h : face? points i j k z = some f) (hi : i < points.size)
    (hj : j < points.size) (hk : k < points.size) :
    f.Fits points ∧ f.i = i ∧
      if ((place points j - place points i).cross (place points k - place points i)).dot
          (place points i - z) < 0 then f.j = k ∧ f.k = j else f.j = j ∧ f.k = k := by
  have hplace (q : Nat) : (point points q).diff = place points q := rfl
  simp only [face?, hplace, Vec3.lengthSq_eq, Vec3.div_eq_smul, Scalar.sqrt_real, Scalar.zero_real] at h
  generalize hn : (place points j - place points i).cross (place points k - place points i) = n at *
  by_cases harea : n.dot n < degenerateSq
  · rw [if_pos harea] at h
    cases h
  · rw [if_neg harea] at h
    have hnn : 0 < n.dot n := lt_of_lt_of_le degenerateSq_pos (not_lt.mp harea)
    have hs : 0 < Real.sqrt (n.dot n) := Real.sqrt_pos.mpr hnn
    generalize hu : (Real.sqrt (n.dot n))⁻¹ • n = u at *
    have hnu : n = Real.sqrt (n.dot n) • u := by
      rw [← hu, smul_smul, mul_inv_cancel₀ hs.ne', one_smul]
    have hunit : u.dot u = 1 := by
      rw [← hu, Vec3.smul_dot, Vec3.dot_smul]
      field_simp
      exact (Real.sq_sqrt hnn.le).symm
    have hturn : n.dot (place points i - z) < 0 ↔ u.dot (place points i - z) < 0 := by
      rw [hnu, Vec3.smul_dot]
      exact ⟨fun hneg => neg_of_mul_neg_right hneg hs.le, mul_neg_of_pos_of_neg hs⟩
    by_cases hflip : u.dot (place points i - z) < 0
    · rw [if_pos hflip] at h
      obtain rfl := Option.some.inj h
      refine ⟨⟨⟨hi, hk, hj⟩, ⟨_, hs, ?_⟩, by simpa using hunit, rfl⟩, rfl, ?_⟩
      · rw [Vec3.cross_comm, hn, smul_neg, ← hnu]
      · rw [if_pos (hturn.mpr hflip)]
        exact ⟨rfl, rfl⟩
    · rw [if_neg hflip] at h
      obtain rfl := Option.some.inj h
      refine ⟨⟨⟨hi, hj, hk⟩, ⟨_, hs, hn.trans hnu⟩, hunit, rfl⟩, rfl, ?_⟩
      rw [if_neg (mt hturn.mp hflip)]
      exact ⟨rfl, rfl⟩

/-! ## § The rim -/

variable {poly poly' : Polytope ℝ} {p : SupportPoint ℝ} {e : Nat × Nat} {y : Vec3 ℝ}

/-- A face sees exactly the points in front of it. -/
theorem sees_iff (hf : f.Fits points) : sees points f y = true ↔ 0 < f.height y := by
  have hplace : (point points f.i).diff = place points f.i := rfl
  simp only [sees, hplace, decide_eq_true_eq, Scalar.zero_real, Vec3.dot_sub, PolytopeFace.height,
    hf.distance_eq]

theorem mem_edges : e ∈ poly.edges ↔ ∃ f ∈ poly.faces, e ∈ f.edges := List.mem_flatMap

/-- The edges of the faces that see a point. -/
noncomputable def seenEdges (poly : Polytope ℝ) (y : Vec3 ℝ) : List (Nat × Nat) :=
  (poly.faces.filter fun f => sees poly.points f y).flatMap PolytopeFace.edges

/-- The edges of the faces that do not see a point. -/
noncomputable def keptEdges (poly : Polytope ℝ) (y : Vec3 ℝ) : List (Nat × Nat) :=
  (poly.faces.filter fun f => !sees poly.points f y).flatMap PolytopeFace.edges

theorem mem_seenEdges (h : Hull poly) :
    e ∈ poly.seenEdges y ↔ ∃ f ∈ poly.faces, 0 < f.height y ∧ e ∈ f.edges := by
  simp only [seenEdges, List.mem_flatMap, List.mem_filter, and_assoc]
  exact exists_congr fun f => and_congr_right fun hf => and_congr_left fun _ => sees_iff (h.fits f hf)

theorem mem_keptEdges (h : Hull poly) :
    e ∈ poly.keptEdges y ↔ ∃ f ∈ poly.faces, f.height y ≤ 0 ∧ e ∈ f.edges := by
  simp only [keptEdges, List.mem_flatMap, List.mem_filter, and_assoc, Bool.not_eq_true']
  refine exists_congr fun f => and_congr_right fun hf => and_congr_left fun _ => ?_
  rw [← not_lt, ← sees_iff (h.fits f hf), Bool.not_eq_true]

/-- Every face either sees the point or does not. -/
theorem edges_perm (poly : Polytope ℝ) (y : Vec3 ℝ) :
    poly.edges.Perm (poly.seenEdges y ++ poly.keptEdges y) := by
  rw [seenEdges, keptEdges, ← List.flatMap_append]
  exact ((List.filter_append_perm _ _).symm).flatMap_right _

/-- The rim is the border of the faces that see the point. -/
theorem Hull.rim_perm (h : Hull poly) : (poly.rim y).Perm (border (poly.seenEdges y)) := by
  have hsplit := h.closed.congr (poly.edges_perm y)
  have hfold : poly.rim y = (poly.seenEdges y).foldl (fun es e => addEdge es e.1 e.2) [] := by
    rw [seenEdges, List.foldl_flatMap]
    rfl
  rw [hfold]
  refine foldl_addEdge_perm _ (List.nodup_append.mp hsplit.nodup).1 fun e he heq => ?_
  exact hsplit.ends_ne e (List.mem_append_left _ he) (congrArg Prod.snd heq)

/-- Each edge of the rim runs between a face that sees the point and one that does not. -/
theorem Hull.exists_faces_of_mem_rim (h : Hull poly) (he : e ∈ poly.rim y) :
    ∃ f ∈ poly.faces, ∃ g ∈ poly.faces, e ∈ f.edges ∧ e.swap ∈ g.edges ∧ 0 < f.height y ∧
      g.height y ≤ 0 := by
  have hsplit := h.closed.congr (poly.edges_perm y)
  obtain ⟨hseen, hborder⟩ := mem_border.mp (h.rim_perm.mem_iff.mp he)
  obtain ⟨f, hf, hfy, hfe⟩ := (mem_seenEdges h).mp hseen
  have hback := hsplit.swap_mem e (List.mem_append_left _ hseen)
  obtain ⟨g, hg, hgy, hge⟩ := (mem_keptEdges h).mp ((List.mem_append.mp hback).resolve_left hborder)
  exact ⟨f, hf, g, hg, hfe, hge, hfy, hgy⟩

/-- The plane through an edge of the rim and the point lies between the planes of the two faces that
meet in the edge. -/
theorem Hull.exists_rim_plane (h : Hull poly) (he : e ∈ poly.rim y) :
    ∃ f ∈ poly.faces, ∃ g ∈ poly.faces, ∃ s t : ℝ, 0 ≤ s ∧ 0 < t ∧ ∀ q,
      ((place poly.points e.2 - place poly.points e.1).cross (y - place poly.points e.1)).dot
        (q - place poly.points e.1) = s * f.height q + t * g.height q := by
  obtain ⟨f, hf, g, hg, hfe, hge, hfy, hgy⟩ := h.exists_faces_of_mem_rim he
  obtain ⟨w, -, ⟨k, hk, hn⟩, hf0, -, -⟩ := (h.fits f hf).edge hfe
  obtain ⟨w', hw', hwinds, -, hg0, -⟩ := (h.fits g hg).edge hge
  obtain ⟨l, hl, hm⟩ := hwinds.rotate
  have hfq := PolytopeFace.height_eq hf0
  have hgq := PolytopeFace.height_eq hg0
  obtain ⟨s, t, hs, ht, hplane⟩ := Vec3.exists_between hk hn hl hm
    ((hfq _).symm.trans_le (h.points_behind f hf w' hw')) (hfy.trans_eq (hfq y))
    ((hgq y).symm.trans_le hgy) ((hfq _).symm.trans_lt (h.interior_behind f hf))
    ((hgq _).symm.trans_lt (h.interior_behind g hg))
  refine ⟨f, hf, g, hg, s, t, hs, ht, fun q => ?_⟩
  rw [hplane, Vec3.add_dot, Vec3.smul_dot, Vec3.smul_dot, hfq q, hgq q]

/-- No point of the table is in front of the plane through an edge of the rim and the point. -/
theorem Hull.rim_plane_nonpos (h : Hull poly) (he : e ∈ poly.rim y) {q : Nat}
    (hq : q < poly.points.size) :
    ((place poly.points e.2 - place poly.points e.1).cross (y - place poly.points e.1)).dot
      (place poly.points q - place poly.points e.1) ≤ 0 := by
  obtain ⟨f, hf, g, hg, s, t, hs, ht, hplane⟩ := h.exists_rim_plane he
  rw [hplane]
  exact add_nonpos (mul_nonpos_of_nonneg_of_nonpos hs (h.points_behind f hf q hq))
    (mul_nonpos_of_nonneg_of_nonpos ht.le (h.points_behind g hg q hq))

/-- The interior is strictly behind that plane. -/
theorem Hull.rim_plane_interior (h : Hull poly) (he : e ∈ poly.rim y) :
    ((place poly.points e.2 - place poly.points e.1).cross (y - place poly.points e.1)).dot
      (poly.interior - place poly.points e.1) < 0 := by
  obtain ⟨f, hf, g, hg, s, t, hs, ht, hplane⟩ := h.exists_rim_plane he
  rw [hplane]
  exact add_neg_of_nonpos_of_neg (mul_nonpos_of_nonneg_of_nonpos hs (h.interior_behind f hf).le)
    (mul_neg_of_pos_of_neg ht (h.interior_behind g hg))

/-- The corners of an edge are points of the table. -/
theorem Hull.lt_size (h : Hull poly) (he : e ∈ poly.edges) :
    e.1 < poly.points.size ∧ e.2 < poly.points.size := by
  obtain ⟨f, hf, hfe⟩ := mem_edges.mp he
  obtain ⟨hi, hj, hk⟩ := (h.fits f hf).lt_size
  simp only [PolytopeFace.edges, List.mem_cons, List.not_mem_nil, or_false] at hfe
  rcases hfe with rfl | rfl | rfl
  · exact ⟨hi, hj⟩
  · exact ⟨hj, hk⟩
  · exact ⟨hk, hi⟩

theorem Hull.mem_edges_of_mem_rim (h : Hull poly) (he : e ∈ poly.rim y) : e ∈ poly.edges := by
  obtain ⟨f, hf, -, -, hfe, -⟩ := h.exists_faces_of_mem_rim he
  exact mem_edges.mpr ⟨f, hf, hfe⟩

/-- What is known of the end of an edge of the rim, from a face that sees the point. -/
theorem Hull.exists_seen_face (h : Hull poly) (he : e ∈ poly.rim y) :
    ∃ n : Vec3 ℝ, n.dot (place poly.points e.2 - place poly.points e.1) = 0 ∧
      0 < n.dot (y - place poly.points e.1) ∧
      ∀ q < poly.points.size, n.dot (place poly.points q - place poly.points e.1) ≤ 0 := by
  obtain ⟨f, hf, -, -, hfe, -, hfy, -⟩ := h.exists_faces_of_mem_rim he
  obtain ⟨-, -, -, hf0, hfa, -⟩ := (h.fits f hf).edge hfe
  have hfq := PolytopeFace.height_eq hf0
  exact ⟨f.normal, (hfq _).symm.trans hfa, hfy.trans_eq (hfq y), fun q hq =>
    (hfq _).symm.trans_le (h.points_behind f hf q hq)⟩

/-- **The rim leaves no point twice.** -/
theorem Hull.rim_fst_nodup (h : Hull poly) : ((poly.rim y).map Prod.fst).Nodup := by
  have hseen := (List.nodup_append.mp (h.closed.congr (poly.edges_perm y)).nodup).1
  refine List.Nodup.map_on ?_ (h.rim_perm.nodup_iff.mpr (border_nodup hseen))
  rintro ⟨x, a⟩ ha ⟨_, b⟩ hb rfl
  by_contra hne
  have hab : a ≠ b := fun hab => hne (by rw [hab])
  have hae := h.mem_edges_of_mem_rim ha
  have hbe := h.mem_edges_of_mem_rim hb
  have hasize : a < poly.points.size := (h.lt_size hae).2
  have hbsize : b < poly.points.size := (h.lt_size hbe).2
  obtain ⟨n, hna, hny, hnq⟩ := h.exists_seen_face ha
  obtain ⟨m, hmb, hmy, hmq⟩ := h.exists_seen_face hb
  have hplaneb := h.rim_plane_nonpos ha hbsize
  have hplanea := h.rim_plane_nonpos hb hasize
  have hinna := h.rim_plane_interior ha
  have hinnb := h.rim_plane_interior hb
  have hnb := hnq b hbsize
  have hma := hmq a hasize
  dsimp only at hna hny hnb hmb hmy hma hplanea hplaneb hinna hinnb
  obtain ⟨t, ht, hdir⟩ := Vec3.exists_smul_of_two_edges hna hny hnb hmb hmy hma hplaneb hplanea
    hinna hinnb
  -- the nearer of the two ends would lie on the other edge
  rcases le_total t 1 with hle | hge
  · exact h.spread _ hae b hbsize hab.symm t ht hle hdir
  · refine h.spread _ hbe a hasize hab t⁻¹ (inv_pos.mpr ht) (inv_le_one_of_one_le₀ hge) ?_
    rw [hdir, smul_smul, inv_mul_cancel₀ ht.ne', one_smul]

/-! ## § Adding a point -/

/-- What adding a point does: the faces that do not see it stay, and each edge of the rim gets a face
to it. -/
theorem insert?_eq_some (h : poly.insert? p = some poly') : poly.rim p.diff ≠ [] ∧
    ∃ new, List.Forall₂ (fun e g =>
        face? (poly.points.push p) e.1 e.2 poly.points.size poly.interior = some g)
      (poly.rim p.diff) new ∧
      poly' = ⟨poly.points.push p,
        (poly.faces.filter fun f => !sees poly.points f p.diff) ++ new, poly.interior⟩ := by
  unfold insert? at h
  by_cases hne : (poly.rim p.diff).isEmpty = true
  · rw [if_pos hne] at h
    cases h
  · rw [if_neg hne] at h
    obtain ⟨new, hnew, rfl⟩ := Option.map_eq_some_iff.mp h
    exact ⟨fun hnil => hne (by rw [hnil]; rfl), new, forall₂_of_mapM_eq_some hnew, rfl⟩

/-- A face from an edge of the rim to the new point is wound the right way, and it lies in the plane
through the edge and the point. -/
theorem Hull.new_face (h : Hull poly) (he : e ∈ poly.rim p.diff)
    (hf : face? (poly.points.push p) e.1 e.2 poly.points.size poly.interior = some f) :
    f.Fits (poly.points.push p) ∧ f.edges = cone poly.points.size e ∧
      ∃ s : ℝ, 0 < s ∧ ∀ q,
        ((place poly.points e.2 - place poly.points e.1).cross
          (p.diff - place poly.points e.1)).dot (q - place poly.points e.1) = s * f.height q := by
  obtain ⟨h₁, h₂⟩ := h.lt_size (h.mem_edges_of_mem_rim he)
  have hsize : (poly.points.push p).size = poly.points.size + 1 := Array.size_push _
  obtain ⟨hfits, hi, hwind⟩ := face?_eq_some hf (by omega) (by omega) (by omega)
  have hinside := h.rim_plane_interior he
  rw [place_push_lt h₁, place_push_lt h₂, place_push_size, if_neg] at hwind
  · obtain ⟨hj, hk⟩ := hwind
    have hedges : f.edges = cone poly.points.size e := by
      rw [PolytopeFace.edges, cone, hi, hj, hk]
    obtain ⟨s, hs, heq⟩ := hfits.winds
    rw [hi, hj, hk, place_push_lt h₁, place_push_lt h₂, place_push_size] at heq
    have hzero : f.height (place poly.points e.1) = 0 := by
      rw [PolytopeFace.height, hfits.distance_eq, hi, place_push_lt h₁, sub_self]
    refine ⟨hfits, hedges, s, hs, fun q => ?_⟩
    rw [heq, Vec3.smul_dot, PolytopeFace.height_eq hzero]
  · rw [not_lt, ← neg_sub poly.interior, Vec3.dot_neg]
    linarith

/-- A corner of the rim lies in the plane of a face that has the point in front. -/
theorem Hull.exists_face_of_corner (h : Hull poly) (he : e ∈ poly.rim y) {v : Nat}
    (hv : v = e.1 ∨ v = e.2) : v < poly.points.size ∧
      ∃ f ∈ poly.faces, f.height (place poly.points v) = 0 ∧ 0 < f.height y := by
  obtain ⟨h₁, h₂⟩ := h.lt_size (h.mem_edges_of_mem_rim he)
  obtain ⟨f, hf, -, -, hfe, -, hfy, -⟩ := h.exists_faces_of_mem_rim he
  obtain ⟨-, -, -, hf₁, hf₂, -⟩ := (h.fits f hf).edge hfe
  rcases hv with rfl | rfl
  · exact ⟨h₁, f, hf, hf₁, hfy⟩
  · exact ⟨h₂, f, hf, hf₂, hfy⟩

/-- The new point lies on no edge of the surface: it is in front of a face, and the edges are not. -/
theorem Hull.point_not_on_edge (h : Hull poly) (hne : poly.rim y ≠ []) (he : e ∈ poly.edges) {t : ℝ}
    (ht : 0 < t) (ht1 : t ≤ 1) :
    y - place poly.points e.1 ≠ t • (place poly.points e.2 - place poly.points e.1) := by
  intro hline
  obtain ⟨e', he'⟩ := List.exists_mem_of_ne_nil _ hne
  obtain ⟨-, f, hf, -, hfy⟩ := h.exists_face_of_corner he' (Or.inl rfl)
  obtain ⟨h₁, h₂⟩ := h.lt_size he
  rw [PolytopeFace.height_of_sub_eq hline] at hfy
  have hstart := mul_nonpos_of_nonneg_of_nonpos (sub_nonneg.mpr ht1) (h.points_behind f hf _ h₁)
  have hend := mul_nonpos_of_nonneg_of_nonpos ht.le (h.points_behind f hf _ h₂)
  linarith

/-- With the new point in the table, still no point lies on an edge, apart from the corner where the
edge starts. -/
theorem Hull.spread_push (h : Hull poly) (hne : poly.rim p.diff ≠ [])
    (he : e ∈ poly.edges ∨ ∃ e' ∈ poly.rim p.diff,
      e = (e'.2, poly.points.size) ∨ e = (poly.points.size, e'.1)) {q : Nat}
    (hq : q < poly.points.size + 1) (hqe : q ≠ e.2) {t : ℝ} (ht : 0 < t) (ht1 : t ≤ 1) :
    place (poly.points.push p) q - place (poly.points.push p) e.1 ≠
      t • (place (poly.points.push p) e.2 - place (poly.points.push p) e.1) := by
  intro hline
  rcases he with he | ⟨e', he', rfl | rfl⟩
  · obtain ⟨h₁, h₂⟩ := h.lt_size he
    rw [place_push_lt h₁, place_push_lt h₂] at hline
    rcases Nat.lt_succ_iff_lt_or_eq.mp hq with hq | rfl
    · rw [place_push_lt hq] at hline
      exact h.spread e he q hq hqe t ht ht1 hline
    · rw [place_push_size] at hline
      exact h.point_not_on_edge hne he ht ht1 hline
  · -- toward the new point: everything on the way is in front of a face at the corner
    obtain ⟨hv, f, hf, hfv, hfp⟩ := h.exists_face_of_corner he' (Or.inr rfl)
    have hq : q < poly.points.size := (Nat.lt_succ_iff_lt_or_eq.mp hq).resolve_right hqe
    rw [place_push_lt hq, place_push_lt hv, place_push_size] at hline
    have hbehind := h.points_behind f hf q hq
    rw [PolytopeFace.height_of_sub_eq hline, hfv, mul_zero, zero_add] at hbehind
    exact absurd hbehind (not_le.mpr (mul_pos ht hfp))
  · -- away from it: the same, except at the corner itself, where the rim comes in
    obtain ⟨hv, f, hf, hfv, hfp⟩ := h.exists_face_of_corner he' (Or.inl rfl)
    rw [place_push_size, place_push_lt hv] at hline
    rcases Nat.lt_succ_iff_lt_or_eq.mp hq with hq | rfl
    · rw [place_push_lt hq] at hline
      rcases ht1.lt_or_eq with hlt | rfl
      · have hbehind := h.points_behind f hf q hq
        rw [PolytopeFace.height_of_sub_eq hline, hfv, mul_zero, add_zero] at hbehind
        exact absurd hbehind (not_le.mpr (mul_pos (sub_pos.mpr hlt) hfp))
      · have hback := h.closed.swap_mem e' (h.mem_edges_of_mem_rim he')
        refine h.spread e'.swap hback q hq hqe 1 one_pos le_rfl ?_
        rw [one_smul, sub_left_inj] at hline ⊢
        exact hline
    · rw [place_push_size, sub_self, eq_comm, smul_eq_zero, or_iff_right ht.ne', sub_eq_zero] at hline
      rw [← hline, hfv] at hfp
      exact lt_irrefl _ hfp

/-- **Adding a point keeps the surface closed and convex.** -/
theorem Hull.insert (h : Hull poly) (hp : poly.insert? p = some poly') : Hull poly' := by
  obtain ⟨hne, new, hnew, rfl⟩ := insert?_eq_some hp
  have hface := fun {g : PolytopeFace ℝ} (hg : g ∈ new) => exists_of_forall₂_of_mem hnew hg
  have hedges : new.flatMap PolytopeFace.edges =
      (poly.rim p.diff).flatMap (cone poly.points.size) := by
    rw [List.flatMap_def, List.flatMap_def]
    exact congrArg List.flatten
      (map_eq_map_of_forall₂ hnew fun e he g hg => ((h.new_face he hg).2.1).symm).symm
  have hsize : (poly.points.push p).size = poly.points.size + 1 := Array.size_push _
  constructor
  case closed =>
    have hclosed := (h.closed.congr (poly.edges_perm p.diff)).patch (edges_balanced _) h.rim_perm
      h.rim_fst_nodup fun e he =>
        ((h.lt_size ((poly.edges_perm p.diff).mem_iff.mpr he)).1).ne
    rw [edges, List.flatMap_append, hedges]
    exact hclosed
  case faces_ne =>
    intro hnil
    have hlen := hnew.length_eq
    rw [(List.append_eq_nil_iff.mp hnil).2] at hlen
    exact hne (List.length_eq_zero_iff.mp hlen)
  case fits =>
    intro g hg
    rcases List.mem_append.mp hg with hg | hg
    · exact (h.fits g (List.mem_filter.mp hg).1).push p
    · obtain ⟨e, he, hmade⟩ := hface hg
      exact (h.new_face he hmade).1
  case interior_behind =>
    intro g hg
    rcases List.mem_append.mp hg with hg | hg
    · exact h.interior_behind g (List.mem_filter.mp hg).1
    · obtain ⟨e, he, hmade⟩ := hface hg
      obtain ⟨-, -, s, hs, hplane⟩ := h.new_face he hmade
      have hbehind := h.rim_plane_interior he
      rw [hplane] at hbehind
      exact neg_of_mul_neg_right hbehind hs.le
  case points_behind =>
    intro g hg q hq
    rw [hsize] at hq
    rcases List.mem_append.mp hg with hg | hg
    · obtain ⟨hold, hunseen⟩ := List.mem_filter.mp hg
      rcases Nat.lt_succ_iff_lt_or_eq.mp hq with hq | rfl
      · rw [place_push_lt hq]
        exact h.points_behind g hold q hq
      · rw [place_push_size, ← not_lt, ← sees_iff (h.fits g hold)]
        simpa using hunseen
    · obtain ⟨e, he, hmade⟩ := hface hg
      obtain ⟨-, -, s, hs, hplane⟩ := h.new_face he hmade
      refine nonpos_of_mul_nonpos_right ?_ hs
      rcases Nat.lt_succ_iff_lt_or_eq.mp hq with hq | rfl
      · rw [place_push_lt hq, ← hplane]
        exact h.rim_plane_nonpos he hq
      · rw [place_push_size, ← hplane, Vec3.cross_dot_self_right]
  case spread =>
    intro e he q hq hqe t ht ht1
    rw [edges, List.flatMap_append, hedges] at he
    refine h.spread_push hne ?_ (hq.trans_eq hsize) hqe ht ht1
    rcases List.mem_append.mp he with he | he
    · exact Or.inl ((poly.edges_perm p.diff).mem_iff.mpr (List.mem_append_right _ he))
    · obtain ⟨e', he', hcone⟩ := List.mem_flatMap.mp he
      simp only [cone, List.mem_cons, List.not_mem_nil, or_false] at hcone
      rcases hcone with rfl | hto | haway
      · exact Or.inl (h.mem_edges_of_mem_rim he')
      · exact Or.inr ⟨e', he', Or.inl hto⟩
      · exact Or.inr ⟨e', he', Or.inr haway⟩

end ConvexCollision.Polytope
