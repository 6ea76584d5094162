import ConvexCollision.Proofs.Except
import ConvexCollision.Proofs.Overlap.Watched
import ConvexCollision.Proofs.Polytope.Growth
import ConvexCollision.Proofs.Removal
import ConvexCollision.Proofs.Single.Positive

/-!
# ConvexCollision.Proofs.Polytope.Watched -- the growth of a polytope, watched

The growth of a polytope is written once more as a watched computation that reads its table of points one at a
time and expects a nearest face in each step. It comes to what growth comes to, for all support functions
whatever (`penetration_yields`). Two things carry this through every step (`Indexed`): there is a face, as a
step that takes faces away puts at least one in for each edge of their rim, which is not empty, and the
corners of all faces are in the table, as new faces are made of edges of old ones and of the point that has
just come in.

With the two searches this makes the narrow phase safe for support functions of any kind, convex or not,
with undefined and infinite values (`narrowPhase_safe`).
-/

namespace ConvexCollision

variable {α : Type} [Scalar α]

namespace Watched

/-! ## §A The watched growth -/

/-- The face on three points of the table. -/
def face (points : Array (SupportPoint α)) (i j k : Nat) (interior : Vec3 α) :
    Watched α (Option (PolytopeFace α)) := do
  let _ ← read points i
  let _ ← read points j
  let _ ← read points k
  pure (Polytope.face? points i j k interior)

/-- Faces on several triples of points; nothing from the first one on that spans no area. -/
def faces (points : Array (SupportPoint α)) (interior : Vec3 α) :
    List (Nat × Nat × Nat) → Watched α (Option (List (PolytopeFace α)))
  | [] => pure (some [])
  | (i, j, k) :: rest => do
    match ← face points i j k interior with
    | none => pure none
    | some f =>
      match ← faces points interior rest with
      | none => pure none
      | some new => pure (some (f :: new))

/-- The edges around the faces that a point can see, added to those found before. -/
def rim (points : Array (SupportPoint α)) (p : Vec3 α) :
    List (PolytopeFace α) → List (Nat × Nat) → Watched α (List (Nat × Nat))
  | [], edges => pure edges
  | f :: rest, edges => do
    let _ ← read points f.i
    rim points p rest
      (if Polytope.sees points f p then
        Polytope.addEdge (Polytope.addEdge (Polytope.addEdge edges f.i f.j) f.j f.k) f.k f.i
      else edges)

/-- The polytope with a point added. -/
def insert (poly : Polytope α) (p : SupportPoint α) : Watched α (Option (Polytope α)) := do
  let edges ← rim poly.points p.diff poly.faces []
  if edges.isEmpty then pure none
  else do
    let points := poly.points.push p
    let new ← faces points poly.interior (edges.map fun e => (e.1, e.2, poly.points.size))
    pure (new.map fun new =>
      { poly with
        points
        faces := (poly.faces.filter fun f => !Polytope.sees poly.points f p.diff) ++ new })

/-- The nearest face. -/
def nearest (fs : List (PolytopeFace α)) : Watched α (PolytopeFace α) :=
  match Polytope.nearestFace? fs with
  | some f => pure f
  | none => throw .noFace

/-- The growth of a polytope. -/
def expand (a b : Support α) : Nat → Polytope α → Watched α (Polytope α)
  | 0, poly => pure poly
  | steps + 1, poly => do
    let f ← nearest poly.faces
    let p ← ask a b f.normal
    if f.normal.dot p.diff - f.distance < Polytope.tolerance then pure poly
    else
      match ← insert poly p with
      | none => pure poly
      | some grown => expand a b steps grown

/-- The tetrahedron on the first four points of a simplex. -/
def tetrahedron (simplex : Simplex α) : Watched α (Except PenetrationFailure (Polytope α)) :=
  if simplex.length < 4 then pure (.error (.flatSimplex simplex.length))
  else do
    let points := simplex.toArray
    let interior := (simplex.foldl (fun sum p => sum + p.diff) Vec3.zero) /
      (Scalar.ofInt simplex.length : α)
    match ← faces points interior [(0, 1, 2), (0, 2, 3), (0, 3, 1), (1, 3, 2)] with
    | none => pure (.error .degenerateTetrahedron)
    | some fs => pure (.ok { points, faces := fs, interior })

/-- What the nearest face says. -/
def hit (poly : Polytope α) : Watched α (Except PenetrationFailure (Hit α)) := do
  let f ← nearest poly.faces
  let _ ← read poly.points f.i
  let _ ← read poly.points f.j
  let _ ← read poly.points f.k
  pure poly.hit

/-- How deep two overlapping sets reach into each other. -/
def penetration (a b : Support α) (simplex : Simplex α) :
    Watched α (Except PenetrationFailure (Hit α)) := do
  match ← tetrahedron simplex with
  | .error e => pure (.error e)
  | .ok poly => do
    let grown ← expand a b Polytope.maxSteps poly
    hit grown

end Watched

/-! ## §B Faces and their corners -/

/-- The corners of the face are below a number. -/
structure PolytopeFace.Within (f : PolytopeFace α) (n : Nat) : Prop where
  /-- The first corner. -/
  i_lt : f.i < n
  /-- The second corner. -/
  j_lt : f.j < n
  /-- The third corner. -/
  k_lt : f.k < n

/-- There is a face, and the corners of all faces are in the table. -/
structure Polytope.Indexed (poly : Polytope α) : Prop where
  /-- There is a face. -/
  faces_ne : poly.faces ≠ []
  /-- The corners are in the table. -/
  within : ∀ f ∈ poly.faces, f.Within poly.points.size

namespace Polytope

variable {points : Array (SupportPoint α)} {i j k n : Nat} {z p : Vec3 α} {f : PolytopeFace α}
  {poly : Polytope α}

/-- A face has the corners that it is made on. -/
theorem within_of_face? (h : face? points i j k z = some f) (hi : i < n) (hj : j < n) (hk : k < n) :
    f.Within n := by
  unfold face? at h
  dsimp only at h
  split at h
  · cases h
  · split at h
    · cases h
      exact ⟨hi, hk, hj⟩
    · cases h
      exact ⟨hi, hj, hk⟩

theorem mem_addEdge {edges : List (Nat × Nat)} {x y : Nat} {e : Nat × Nat}
    (h : e ∈ addEdge edges x y) : e ∈ edges ∨ e = (x, y) := by
  unfold addEdge at h
  split at h
  · next q hq =>
    have hlt : q < edges.length := (List.findIdx?_eq_some_iff_findIdx_eq.mp hq).1
    exact .inl (List.mem_of_mem_eraseIdx ((swapRemove_perm hlt).mem_iff.mp h))
  · rcases List.mem_append.mp h with h | h
    · exact .inl h
    · exact .inr (List.mem_singleton.mp h)

omit [Scalar α] in
/-- The edges of the rim are edges of faces. -/
theorem lt_of_mem_foldl_addEdge {n : Nat} {fs : List (PolytopeFace α)} (h : ∀ f ∈ fs, f.Within n)
    {edges : List (Nat × Nat)} (hedges : ∀ e ∈ edges, e.1 < n ∧ e.2 < n) :
    ∀ e ∈ fs.foldl (fun edges f => addEdge (addEdge (addEdge edges f.i f.j) f.j f.k) f.k f.i) edges,
      e.1 < n ∧ e.2 < n := by
  induction fs generalizing edges with
  | nil => exact hedges
  | cons f fs ih =>
    have hf := h f List.mem_cons_self
    refine ih (fun g hg => h g (List.mem_cons_of_mem f hg)) fun e he => ?_
    rcases mem_addEdge he with he | rfl
    · rcases mem_addEdge he with he | rfl
      · rcases mem_addEdge he with he | rfl
        · exact hedges e he
        · exact ⟨hf.i_lt, hf.j_lt⟩
      · exact ⟨hf.j_lt, hf.k_lt⟩
    · exact ⟨hf.k_lt, hf.i_lt⟩

theorem Indexed.lt_of_mem_rim (h : poly.Indexed) {e : Nat × Nat} (he : e ∈ poly.rim p) :
    e.1 < poly.points.size ∧ e.2 < poly.points.size := by
  refine lt_of_mem_foldl_addEdge (fun f hf => h.within f (List.mem_of_mem_filter hf)) ?_ e he
  exact fun e he => absurd he List.not_mem_nil

/-- There is a nearest face, and it is one of the faces. -/
theorem Indexed.exists_nearestFace? (h : poly.Indexed) :
    ∃ f ∈ poly.faces, nearestFace? poly.faces = some f := by
  obtain ⟨first, rest, hfaces⟩ := List.exists_cons_of_ne_nil h.faces_ne
  rw [hfaces]
  refine ⟨_, inv_foldl_passed (fun passed best => best ∈ first :: passed) ?_
    (List.mem_singleton_self first), rfl⟩
  rintro passed f rest best - hmem
  rw [← List.cons_append]
  split
  · exact List.mem_append_right _ (List.mem_singleton_self f)
  · exact List.mem_append_left _ hmem

/-- Faces on corners in the table have their corners there. -/
theorem within_of_mapM_face? {corners : List (Nat × Nat × Nat)} {fs : List (PolytopeFace α)}
    (h : corners.mapM (fun t => face? points t.1 t.2.1 t.2.2 z) = some fs)
    (hcorners : ∀ t ∈ corners, t.1 < n ∧ t.2.1 < n ∧ t.2.2 < n) : ∀ f ∈ fs, f.Within n := by
  intro f hf
  obtain ⟨t, ht, hface⟩ := exists_of_forall₂_of_mem (forall₂_of_mapM_eq_some h) hf
  obtain ⟨hi, hj, hk⟩ := hcorners t ht
  exact within_of_face? hface hi hj hk

/-- The new faces that a point makes with the rim. -/
theorem Indexed.newCorners (h : poly.Indexed) (p : SupportPoint α) : ∀ t ∈ (poly.rim p.diff).map
    (fun e => (e.1, e.2, poly.points.size)), t.1 < (poly.points.push p).size ∧
      t.2.1 < (poly.points.push p).size ∧ t.2.2 < (poly.points.push p).size := by
  intro t ht
  obtain ⟨e, he, rfl⟩ := List.mem_map.mp ht
  obtain ⟨h₁, h₂⟩ := h.lt_of_mem_rim he
  rw [Array.size_push]
  exact ⟨Nat.lt_succ_of_lt h₁, Nat.lt_succ_of_lt h₂, Nat.lt_succ_self _⟩

theorem insert?_of_rim {p : SupportPoint α} (h : poly.rim p.diff ≠ []) : poly.insert? p =
    (((poly.rim p.diff).map fun e => (e.1, e.2, poly.points.size)).mapM fun t =>
      face? (poly.points.push p) t.1 t.2.1 t.2.2 poly.interior).map fun new =>
        { poly with
          points := poly.points.push p
          faces := (poly.faces.filter fun f => !sees poly.points f p.diff) ++ new } := by
  unfold insert?
  dsimp only
  rw [if_neg (by simpa using h), List.mapM_map]
  rfl

/-- **A polytope that a point is added to keeps a face, and its corners in the table.** -/
theorem Indexed.insert? {p : SupportPoint α} {grown : Polytope α} (h : poly.Indexed)
    (hgrown : poly.insert? p = some grown) : grown.Indexed := by
  by_cases hrim : poly.rim p.diff = []
  · have hnone : poly.insert? p = none := if_pos (by rw [hrim]; rfl)
    rw [hnone] at hgrown
    cases hgrown
  · rw [insert?_of_rim hrim] at hgrown
    obtain ⟨new, hnew, rfl⟩ := Option.map_eq_some_iff.mp hgrown
    have hlength : new.length = (poly.rim p.diff).length := by
      have heq := (forall₂_of_mapM_eq_some hnew).length_eq
      rw [List.length_map] at heq
      exact heq.symm
    constructor
    · intro hempty
      have hnil := (List.append_eq_nil_iff.mp hempty).2
      rw [hnil] at hlength
      exact hrim (List.length_eq_zero_iff.mp hlength.symm)
    · intro f hf
      rcases List.mem_append.mp hf with hf | hf
      · have hold := h.within f (List.mem_of_mem_filter hf)
        have hle : poly.points.size ≤ (poly.points.push p).size := by
          rw [Array.size_push]
          exact Nat.le_succ _
        exact ⟨Nat.lt_of_lt_of_le hold.i_lt hle, Nat.lt_of_lt_of_le hold.j_lt hle,
          Nat.lt_of_lt_of_le hold.k_lt hle⟩
      · exact within_of_mapM_face? hnew (h.newCorners p) f hf

theorem Indexed.expand {a b : Support α} (h : poly.Indexed) (steps : Nat) :
    (poly.expand a b steps).Indexed :=
  expand_induction (fun _ _ _ h hgrown => h.insert? hgrown) steps h

/-- The corners of a tetrahedron on the first four points are in a table of four or more. -/
theorem tetrahedron_corners (h : ¬ n < 4) : ∀ t ∈ [(0, 1, 2), (0, 2, 3), (0, 3, 1), (1, 3, 2)],
    t.1 < n ∧ t.2.1 < n ∧ t.2.2 < n := by
  intro t ht
  fin_cases ht <;> refine ⟨?_, ?_, ?_⟩ <;> exact Nat.lt_of_lt_of_le (by decide) (Nat.le_of_not_lt h)

/-- The first four points of a simplex make faces with their corners in the table. -/
theorem indexed_of_ofSimplex {simplex : Simplex α} (h : ofSimplex simplex = .ok poly) : poly.Indexed := by
  obtain ⟨hlength, hpoints, -, hfaces⟩ := parts_of_ofSimplex h
  constructor
  · intro hnone
    have hfour := (forall₂_of_mapM_eq_some hfaces).length_eq
    rw [hnone] at hfour
    cases hfour
  · refine within_of_mapM_face? hfaces (tetrahedron_corners ?_)
    rwa [hpoints, List.size_toArray]

end Polytope

/-! ## §C The watched growth comes to the same -/

namespace Watched

variable {points : Array (SupportPoint α)} {poly : Polytope α} {a b : Support α}

theorem face_yields {i j k : Nat} (z : Vec3 α) (hi : i < points.size) (hj : j < points.size)
    (hk : k < points.size) : Yields (face points i j k z) (Polytope.face? points i j k z) [] := by
  refine (yields_read hi).bind_silent ?_
  refine (yields_read hj).bind_silent ?_
  refine (yields_read hk).bind_silent ?_
  exact Yields.pure _

theorem faces_yields (z : Vec3 α) {corners : List (Nat × Nat × Nat)}
    (h : ∀ t ∈ corners, t.1 < points.size ∧ t.2.1 < points.size ∧ t.2.2 < points.size) :
    Yields (faces points z corners)
      (corners.mapM fun t => Polytope.face? points t.1 t.2.1 t.2.2 z) [] := by
  induction corners with
  | nil => exact Yields.pure _
  | cons t rest ih =>
    obtain ⟨hi, hj, hk⟩ := h t List.mem_cons_self
    have hfirst := face_yields z hi hj hk
    have hrest := ih fun t ht => h t (List.mem_cons_of_mem _ ht)
    rw [List.mapM_cons]
    show Yields (face points t.1 t.2.1 t.2.2 z >>= _) _ []
    cases hface : Polytope.face? points t.1 t.2.1 t.2.2 z with
    | none =>
      rw [hface] at hfirst
      exact hfirst.bind_silent (Yields.pure none)
    | some f =>
      rw [hface] at hfirst
      refine hfirst.bind_silent ?_
      cases hnew : rest.mapM fun t => Polytope.face? points t.1 t.2.1 t.2.2 z with
      | none =>
        rw [hnew] at hrest
        exact hrest.bind_silent (Yields.pure none)
      | some new =>
        rw [hnew] at hrest
        exact hrest.bind_silent (Yields.pure (some (f :: new)))

theorem rim_yields (p : Vec3 α) {fs : List (PolytopeFace α)} (h : ∀ f ∈ fs, f.i < points.size)
    (edges : List (Nat × Nat)) :
    Yields (rim points p fs edges)
      ((fs.filter fun f => Polytope.sees points f p).foldl (fun edges f =>
        Polytope.addEdge (Polytope.addEdge (Polytope.addEdge edges f.i f.j) f.j f.k) f.k f.i) edges) [] := by
  induction fs generalizing edges with
  | nil => exact Yields.pure _
  | cons f fs ih =>
    refine (yields_read (h f List.mem_cons_self)).bind_silent ?_
    have hrest := ih fun g hg => h g (List.mem_cons_of_mem f hg)
    cases hsees : Polytope.sees points f p with
    | true =>
      rw [if_pos rfl, List.filter_cons, if_pos hsees]
      exact hrest _
    | false =>
      have hblind : ¬ Polytope.sees points f p = true := by
        rw [hsees]
        exact Bool.false_ne_true
      rw [if_neg Bool.false_ne_true, List.filter_cons, if_neg hblind]
      exact hrest _

/-- A point is added with all that is read in the table. -/
theorem insert_yields (h : poly.Indexed) (p : SupportPoint α) :
    Yields (insert poly p) (poly.insert? p) [] := by
  have hrim : Yields (rim poly.points p.diff poly.faces []) (poly.rim p.diff) [] :=
    rim_yields p.diff (fun f hf => (h.within f hf).i_lt) []
  refine hrim.bind_silent ?_
  by_cases hnone : poly.rim p.diff = []
  · have hempty : (poly.rim p.diff).isEmpty = true := by rw [hnone]; rfl
    have hplain : poly.insert? p = none := if_pos hempty
    rw [if_pos hempty, hplain]
    exact Yields.pure none
  · rw [if_neg (by simpa using hnone), Polytope.insert?_of_rim hnone]
    exact (faces_yields poly.interior (h.newCorners p)).bind_silent (Yields.pure _)

theorem nearest_yields {f : PolytopeFace α} {fs : List (PolytopeFace α)}
    (h : Polytope.nearestFace? fs = some f) : Yields (nearest fs) f [] := by
  unfold nearest
  rw [h]
  exact Yields.pure f

/-- **Growth reads only what is in the table, and always has a nearest face.** It asks once in each step. -/
theorem expand_meets (steps : Nat) {before : List (Vec3 α)} (h : poly.Indexed) :
    Meets before (expand a b steps poly) (poly.expand a b steps) steps fun _ => True := by
  induction steps generalizing poly before with
  | zero => exact .pure poly trivial
  | succ steps ih =>
    obtain ⟨f, -, hnearest⟩ := h.exists_nearestFace?
    have hface : Meets before (nearest poly.faces) f 0 fun _ => True :=
      .of_yields (nearest_yields hnearest) trivial
    refine hface.bind fun before₁ _ => ?_
    refine (meets_ask (a := a) (b := b) (Q := fun _ => True) trivial).bind fun before₂ _ => ?_
    unfold Polytope.expand
    rw [hnearest]
    dsimp only
    split
    · exact .pure poly trivial
    · have hinsert := insert_yields h (SupportPoint.along a b f.normal)
      cases hgrown : poly.insert? (SupportPoint.along a b f.normal) with
      | none =>
        rw [hgrown] at hinsert
        exact .of_yields (hinsert.bind_silent (Yields.pure poly)) trivial
      | some grown =>
        rw [hgrown] at hinsert
        have hsilent : Meets before₂ (insert poly (SupportPoint.along a b f.normal)) (some grown) 0
          fun _ => True := .of_yields hinsert trivial
        exact hsilent.bind fun _ _ => ih (h.insert? hgrown)

theorem tetrahedron_yields (simplex : Simplex α) :
    Yields (tetrahedron simplex) (Polytope.ofSimplex simplex) [] := by
  unfold tetrahedron Polytope.ofSimplex
  split
  · exact Yields.pure _
  · next hlength =>
    have hfaces := faces_yields
      ((simplex.foldl (fun sum p => sum + p.diff) Vec3.zero) / (Scalar.ofInt simplex.length : α))
      (Polytope.tetrahedron_corners hlength)
    dsimp only
    split
    · next hnone =>
      rw [hnone] at hfaces
      exact hfaces.bind_silent (Yields.pure _)
    · next fs hsome =>
      rw [hsome] at hfaces
      exact hfaces.bind_silent (Yields.pure _)

theorem hit_yields (h : poly.Indexed) : Yields (hit poly) poly.hit [] := by
  obtain ⟨f, hmem, hnearest⟩ := h.exists_nearestFace?
  obtain ⟨hi, hj, hk⟩ := h.within f hmem
  refine (nearest_yields hnearest).bind_silent ?_
  refine (yields_read hi).bind_silent ?_
  refine (yields_read hj).bind_silent ?_
  refine (yields_read hk).bind_silent ?_
  exact Yields.pure _

/-- **The solver for the depth is safe for every pair of support functions and every simplex.** It takes at
most 64 steps, with one direction asked about in each. -/
theorem penetration_yields (a b : Support α) (simplex : Simplex α) : ∃ asked,
    Yields (penetration a b simplex) (ConvexCollision.penetration a b simplex) asked ∧
      asked.length ≤ 64 := by
  have hstart := tetrahedron_yields simplex
  unfold penetration ConvexCollision.penetration
  cases hpoly : Polytope.ofSimplex simplex with
  | error e =>
    rw [hpoly] at hstart
    exact ⟨[], hstart.bind_silent (Yields.pure _), Nat.zero_le 64⟩
  | ok poly =>
    rw [hpoly] at hstart
    have hindexed := Polytope.indexed_of_ofSimplex hpoly
    have hmeets : Meets [] (expand a b Polytope.maxSteps poly) (poly.expand a b Polytope.maxSteps)
        Polytope.maxSteps fun _ => True := expand_meets Polytope.maxSteps hindexed
    obtain ⟨asked, hgrowth, hlength, -⟩ := hmeets
    refine ⟨asked, hstart.bind_silent ?_, hlength⟩
    rw [← List.append_nil asked]
    exact hgrowth.bind (hit_yields (hindexed.expand Polytope.maxSteps))

end Watched

/-! ## §D The narrow phase is safe -/

/-- What a polytope answers is at least zero, and so not undefined. -/
theorem penetration_nonneg [Scalar.Signed α] {a b : Support α} {simplex : Simplex α} {r : Hit α}
    (h : penetration a b simplex = .ok r) : 0 ≤ r.penetration := by
  obtain ⟨poly, -, hhit⟩ := exists_hit_of_penetration h
  obtain ⟨f, -, -, hdepth⟩ := Polytope.nearest_of_hit hhit
  rw [hdepth]
  exact Scalar.le_maxNum_right (Scalar.Ordered.defined_left Scalar.Signed.zero_le_one)

/-- **The narrow phase is safe for every pair of support functions**, whether or not they belong to convex
sets, with undefined and infinite values. The test for overlap and the search for the nearest points never put
a fifth point into a simplex and take at most 32 turns; the points of the simplex that they end with belong
to directions that were asked about. From any simplex the growth of a polytope takes at most 64 steps, reads
no point that is not in its table, never runs out of faces, and answers with a depth that is not negative. -/
theorem narrowPhase_safe [Scalar.Signed α] (a b : Support α) :
    (∀ firstDirection, ∃ first searched completed,
      (Watched.find a b firstDirection).run [] =
          .ok (Overlap.find? a b firstDirection, [first] ++ (searched ++ completed)) ∧
        searched.length ≤ 32 ∧ completed.length ≤ 8 ∧
        ∀ s, Overlap.find? a b firstDirection = some s → s.length ≤ 4 ∧
          ∀ p ∈ s, ∃ d ∈ [first] ++ (searched ++ completed), p.diff = a d - b (-d) ∧ p.onA = a d) ∧
    (∃ first searched s,
      (Watched.between a b).run [] = .ok (ClosestPoints.between a b, [first] ++ searched) ∧
        searched.length ≤ 32 ∧ ClosestPoints.between a b = ClosestPoints.ofState s ∧
        s.simplex.length ≤ 4 ∧
          ∀ p ∈ s.simplex, ∃ d ∈ [first] ++ searched, p.diff = a d - b (-d) ∧ p.onA = a d) ∧
    ∀ simplex, ∃ asked,
      (Watched.penetration a b simplex).run [] = .ok (penetration a b simplex, asked) ∧
        asked.length ≤ 64 ∧ ∀ r, penetration a b simplex = .ok r → 0 ≤ r.penetration := by
  have hsupport {asked : List (Vec3 α)} {s : Simplex α} (h : s.Drawn a b asked) :
      ∀ p ∈ s, ∃ d ∈ asked, p.diff = a d - b (-d) ∧ p.onA = a d := by
    intro p hp
    obtain ⟨d, hd, rfl⟩ := h.exists_along p hp
    exact ⟨d, hd, rfl, rfl⟩
  refine ⟨fun firstDirection => ?_, ?_, fun simplex => ?_⟩
  · obtain ⟨first, searched, completed, hyields, hsearched, hcompleted, hdrawn⟩ :=
      Watched.find_yields a b firstDirection
    exact ⟨first, searched, completed, hyields [], hsearched, hcompleted,
      fun s hs => ⟨(hdrawn s hs).length_le, hsupport (hdrawn s hs)⟩⟩
  · obtain ⟨first, searched, s, hyields, hsearched, hstate, hdrawn⟩ := Watched.between_yields a b
    exact ⟨first, searched, s, hyields [], hsearched, hstate, hdrawn.length_le, hsupport hdrawn⟩
  · obtain ⟨asked, hyields, hlength⟩ := Watched.penetration_yields a b simplex
    exact ⟨asked, hyields [], hlength, fun r => penetration_nonneg⟩

/-- A support function of no set, with infinite and undefined values. -/
def lopsided : Support Float32 := fun d => ⟨d.x / d.y, d.z, d.x⟩

/-- Another one. -/
def skewed : Support Float32 := fun d => ⟨d.z, d.x, -d.y / d.z⟩

/-- The test for overlap finds four points for them, and the growth of a polytope from these an answer. -/
theorem lopsided_safe : ∃ s r asked, Overlap.find? lopsided skewed ⟨1, 1, 1⟩ = some s ∧ s.length ≤ 4 ∧
    (Watched.penetration lopsided skewed s).run [] = .ok (.ok r, asked) ∧ asked.length ≤ 64 ∧
      0 ≤ r.penetration := by
  obtain ⟨hfind, -, hgrowth⟩ := narrowPhase_safe lopsided skewed
  have hrun : ((Overlap.find? lopsided skewed ⟨1, 1, 1⟩).bind fun s =>
      (penetration lopsided skewed s).toOption.map fun _ => ()) = some () := by
    decide +kernel
  obtain ⟨s, hs, hrun⟩ := Option.bind_eq_some_iff.mp hrun
  obtain ⟨r, hr, -⟩ := exists_eq_ok_of_map hrun
  obtain ⟨first, searched, completed, -, -, -, hdrawn⟩ := hfind ⟨1, 1, 1⟩
  obtain ⟨asked, hwatched, hlength, hdepth⟩ := hgrowth s
  rw [hr] at hwatched
  exact ⟨s, r, asked, hs, (hdrawn s hs).1, hwatched, hlength, hdepth r hr⟩

end ConvexCollision
