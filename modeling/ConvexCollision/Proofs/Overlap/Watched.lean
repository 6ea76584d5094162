import ConvexCollision.Proofs.Distance.Turn
import ConvexCollision.Proofs.Overlap.Turn
import ConvexCollision.Proofs.Watched

/-!
# ConvexCollision.Proofs.Overlap.Watched -- the two searches, watched

The search for overlap, the completion of its simplex to a tetrahedron, and the search for the nearest points
are written once more as watched computations, with the points put in one by one. They come to what the
searches come to, for all support functions whatever (`find_yields`, `between_yields`): the searches leave a
full simplex at once, so that there is always room for the next point, and each point they hold is one that
they asked for. No property of the support functions and no law of numbers is used.
-/

namespace ConvexCollision.Watched

variable {α : Type} [Scalar α]

/-! ## §A The watched searches -/

/-- One turn of the search for overlap. -/
def turn (a b : Support α) (s : Overlap.State α) : Watched α (Overlap.Outcome α) := do
  let p ← ask a b s.dir
  if s.simplex.hasPoint p.diff then pure .apart
  else if s.dir.dot p.diff < 0 then pure .apart
  else do
    let grown ← push s.simplex p
    let (v, weights) := grown.nearest
    if v.lengthSq < Overlap.containsOriginSq then pure (.overlap grown)
    else if s.closest ≤ v.lengthSq then pure .apart
    else
      let kept := (grown.retain weights).1
      if kept.length = 4 then pure (.overlap kept) else pure (.onward ⟨kept, -v, v.lengthSq⟩)

/-- The search for overlap. -/
def search (a b : Support α) : Nat → Overlap.State α → Watched α (Option (Simplex α))
  | 0, _ => pure none
  | steps + 1, s => do
    match ← turn a b s with
    | .overlap found => pure (some found)
    | .apart => pure none
    | .onward s' => search a b steps s'

/-- The first of the points along some directions that a simplex does not hold. Directions that are too
short are skipped. -/
def pushFirst (a b : Support α) (s : Simplex α) : List (Vec3 α) → Watched α (Option (Simplex α))
  | [] => pure none
  | d :: rest =>
    if d.lengthSq < Simplex.degenerateSq then pushFirst a b s rest
    else do
      let p ← ask a b d
      if s.hasPoint p.diff then pushFirst a b s rest
      else do
        let grown ← push s p
        pure (some grown)

/-- A new point along a direction or against it. -/
def pushUnique (a b : Support α) (s : Simplex α) (dir : Vec3 α) : Watched α (Option (Simplex α)) :=
  pushFirst a b s [dir, -dir]

/-- A second point for a simplex of one. -/
def widenPoint (a b : Support α) : Simplex α → Watched α (Option (Simplex α))
  | [p] => pushUnique a b [p] (if Simplex.degenerateSq < p.diff.lengthSq then -p.diff else Vec3.unitX)
  | s => pure (some s)

/-- A third point for a simplex of two. -/
def widenSegment (a b : Support α) : Simplex α → Watched α (Option (Simplex α))
  | [p, q] => do
    let along := q.diff - p.diff
    let across := along.anyOrthogonal
    match ← pushUnique a b [p, q] across with
    | some s => pure (some s)
    | none => pushUnique a b [p, q] (across.cross along)
  | s => pure (some s)

/-- A fourth point for a simplex of three, if there is one. -/
def widenTriangle (a b : Support α) : Simplex α → Watched α (Simplex α)
  | [p, q, r] => do
    match ← pushUnique a b [p, q, r] ((q.diff - p.diff).cross (r.diff - p.diff)) with
    | some s => pure s
    | none => pure [p, q, r]
  | s => pure s

/-- The completion of a simplex toward a tetrahedron. -/
def completeTetrahedron (a b : Support α) (s : Simplex α) : Watched α (Simplex α) := do
  match ← widenPoint a b s with
  | none => pure s
  | some s =>
    match ← widenSegment a b s with
    | none => pure s
    | some s => widenTriangle a b s

/-- The search for overlap from a first simplex. It is over at once when that is near the origin. -/
def searchFrom (a b : Support α) (first : Simplex α) (dir : Vec3 α) : Watched α (Option (Simplex α)) :=
  if dir.lengthSq < Overlap.containsOriginSq then pure (some first)
  else search a b Overlap.maxSteps ⟨first, dir, Scalar.maxFinite⟩

/-- The search for overlap, from a first direction to the simplex that shows it. -/
def find (a b : Support α) (firstDirection : Vec3 α) : Watched α (Option (Simplex α)) := do
  let first ← ask a b
    (if Simplex.degenerateSq < firstDirection.lengthSq then firstDirection else Vec3.unitX)
  let simplex ← push [] first
  match ← searchFrom a b simplex (-first.diff) with
  | none => pure none
  | some s => do
    let completed ← completeTetrahedron a b s
    pure (some completed)

/-- One turn of the search for the nearest points; nothing when it ends the search. -/
def approach (a b : Support α) (s : ClosestPoints.State α) : Watched α (Option (ClosestPoints.State α)) :=
  if s.overlapping then pure none
  else do
    let p ← ask a b s.dir
    if s.simplex.hasPoint p.diff then pure none
    else if s.distSq + s.dir.dot p.diff ≤ s.distSq * ClosestPoints.progress then pure none
    else do
      let grown ← push s.simplex p
      let (v, weights) := grown.nearest
      if s.distSq ≤ v.lengthSq then pure none
      else
        let (simplex, weights) := grown.retain weights
        pure (some {
          simplex, weights, distSq := v.lengthSq
          dir := -v
          overlapping := decide (v.lengthSq < Overlap.containsOriginSq) || simplex.length == 4 })

/-- The search for the nearest points, to the state in which it ends. -/
def approachAll (a b : Support α) : Nat → ClosestPoints.State α → Watched α (ClosestPoints.State α)
  | 0, s => pure s
  | steps + 1, s => do
    match ← approach a b s with
    | none => pure s
    | some s' => approachAll a b steps s'

/-- The nearest points. -/
def between (a b : Support α) : Watched α (ClosestPoints α) := do
  let first ← ask a b (Vec3.splat 1)
  let simplex ← push [] first
  let dir := -first.diff
  let distSq := dir.lengthSq
  let s ← approachAll a b Overlap.maxSteps {
    simplex, weights := [1], dir, distSq
    overlapping := decide (distSq < Overlap.containsOriginSq) }
  pure (ClosestPoints.ofState s)

variable {a b : Support α} {before : List (Vec3 α)}

/-! ## §B The search for overlap -/

theorem turn_yields {s : Overlap.State α} (h : s.simplex.length < 4) :
    Yields (turn a b s) (Overlap.turn a b s) [s.dir] := by
  show Yields _ _ ([s.dir] ++ [])
  refine (yields_ask a b s.dir).bind ?_
  refine Yields.ite (Yields.pure _) (Yields.ite (Yields.pure _) ?_)
  refine (yields_push h _).bind_silent ?_
  exact Yields.ite (Yields.pure _) (Yields.ite (Yields.pure _) (Yields.ite (Yields.pure _) (Yields.pure _)))

/-- What a turn finds, or goes on with, was asked for. It goes on only with room for one more point. -/
theorem turn_drawn {s : Overlap.State α} (h : s.simplex.Drawn a b before) (hroom : s.simplex.length < 4) :
    (∀ found, Overlap.turn a b s = .overlap found → found.Drawn a b (before ++ [s.dir])) ∧
      ∀ s', Overlap.turn a b s = .onward s' →
        s'.simplex.Drawn a b (before ++ [s.dir]) ∧ s'.simplex.length < 4 := by
  have hgrown : (s.grown a b).Drawn a b (before ++ [s.dir]) := h.push hroom s.dir
  have hkept : (s.kept a b).Drawn a b (before ++ [s.dir]) := hgrown.sublist (Simplex.retain_sublist _ _)
  constructor
  · intro found hturn
    unfold Overlap.turn at hturn
    split_ifs at hturn
    · exact Overlap.Outcome.overlap.inj hturn ▸ hgrown
    · exact Overlap.Outcome.overlap.inj hturn ▸ hkept
  · intro s' hturn
    obtain ⟨-, -, -, hfour, rfl⟩ := Overlap.turn_onward hturn
    exact ⟨hkept, Nat.lt_of_le_of_ne hkept.length_le hfour⟩

/-- **The search for overlap always has room for its next point**, asks once in each turn, and finds only
what it asked for. -/
theorem search_meets (steps : Nat) {s : Overlap.State α} (h : s.simplex.Drawn a b before)
    (hroom : s.simplex.length < 4) :
    Meets before (search a b steps s) (Overlap.search a b steps s.simplex s.dir s.closest) steps
      fun asked => ∀ found ∈ Overlap.search a b steps s.simplex s.dir s.closest, found.Drawn a b asked := by
  induction steps generalizing s before with
  | zero => exact .pure none fun found hfound => nomatch hfound
  | succ steps ih =>
    have hturn : Meets before (turn a b s) (Overlap.turn a b s) 1 (· = before ++ [s.dir]) :=
      ⟨[s.dir], turn_yields hroom, Nat.le_refl 1, rfl⟩
    obtain ⟨hfound, honward⟩ := turn_drawn h hroom
    rw [Overlap.search_succ]
    cases houtcome : Overlap.turn a b s with
    | overlap found =>
      rw [houtcome] at hturn
      refine hturn.bind ?_
      rintro _ rfl
      refine .pure (some found) ?_
      rintro _ ⟨⟩
      exact hfound found houtcome
    | apart =>
      rw [houtcome] at hturn
      refine hturn.bind fun _ _ => ?_
      exact .pure none fun found hnone => nomatch hnone
    | onward s' =>
      rw [houtcome] at hturn
      obtain ⟨hdrawn, hroom'⟩ := honward s' houtcome
      refine hturn.bind ?_
      rintro _ rfl
      exact ih hdrawn hroom'

/-! ## §C The completion to a tetrahedron -/

/-- A simplex with the point along a direction, if the direction is not too short and the point is new. -/
def extended? (a b : Support α) (s : Simplex α) (d : Vec3 α) : Option (Simplex α) :=
  if d.lengthSq < Simplex.degenerateSq then none
  else
    let p := SupportPoint.along a b d
    if s.hasPoint p.diff then none else some (s ++ [p])

/-- A simplex and what it grows to, if it does, were asked for. -/
def Grown (a b : Support α) (s : Simplex α) (found : Option (Simplex α)) (asked : List (Vec3 α)) : Prop :=
  s.Drawn a b asked ∧ ∀ s' ∈ found, s'.Drawn a b asked

theorem Grown.none {s : Simplex α} (h : s.Drawn a b before) : Grown a b s none before :=
  ⟨h, fun _ hfound => nomatch hfound⟩

theorem Grown.some {s s' : Simplex α} (h : s.Drawn a b before) (h' : s'.Drawn a b before) :
    Grown a b s (some s') before := by
  refine ⟨h, ?_⟩
  rintro _ ⟨⟩
  exact h'

/-- Trying some directions asks about each of them at most once. -/
theorem pushFirst_meets (dirs : List (Vec3 α)) {s : Simplex α} (h : s.Drawn a b before)
    (hroom : s.length < 4) :
    Meets before (pushFirst a b s dirs) (dirs.findSome? (extended? a b s)) dirs.length
      (Grown a b s (dirs.findSome? (extended? a b s))) := by
  induction dirs generalizing before with
  | nil => exact .pure none (.none h)
  | cons d rest ih =>
    unfold pushFirst
    rw [List.findSome?_cons]
    by_cases hshort : d.lengthSq < Simplex.degenerateSq
    · have hskip : extended? a b s d = none := if_pos hshort
      rw [if_pos hshort, hskip]
      exact (ih h).mono (Nat.le_succ _) fun _ hgrown => hgrown
    · rw [if_neg hshort]
      refine (meets_ask (Q := (· = before ++ [d])) rfl).bind ?_
      rintro _ rfl
      by_cases hknown : s.hasPoint (SupportPoint.along a b d).diff = true
      · have hskip : extended? a b s d = none := (if_neg hshort).trans (if_pos hknown)
        rw [if_pos hknown, hskip]
        exact ih (h.append [d])
      · have hnew : extended? a b s d = some (s ++ [SupportPoint.along a b d]) :=
          (if_neg hshort).trans (if_neg hknown)
        rw [if_neg hknown, hnew]
        exact .of_yields ((yields_push hroom _).bind_silent (Yields.pure _))
          (.some (h.append [d]) (h.push hroom d))

theorem pushUnique_meets (dir : Vec3 α) {s : Simplex α} (h : s.Drawn a b before) (hroom : s.length < 4) :
    Meets before (pushUnique a b s dir) (s.pushUnique? a b dir) 2 (Grown a b s (s.pushUnique? a b dir)) :=
  pushFirst_meets [dir, -dir] h hroom

theorem widenPoint_meets {s : Simplex α} (h : s.Drawn a b before) :
    Meets before (widenPoint a b s) (s.widenPoint? a b) 2 (Grown a b s (s.widenPoint? a b)) := by
  rcases s with _ | ⟨p, _ | ⟨q, rest⟩⟩
  · exact .pure _ (.some h h)
  · exact pushUnique_meets _ h (show 1 < 4 by decide)
  · exact .pure _ (.some h h)

theorem widenSegment_meets {s : Simplex α} (h : s.Drawn a b before) :
    Meets before (widenSegment a b s) (s.widenSegment? a b) 4 (Grown a b s (s.widenSegment? a b)) := by
  rcases s with _ | ⟨p, _ | ⟨q, _ | ⟨r, rest⟩⟩⟩
  · exact .pure _ (.some h h)
  · exact .pure _ (.some h h)
  · have hroom : [p, q].length < 4 := show 2 < 4 by decide
    have hacross := pushUnique_meets (q.diff - p.diff).anyOrthogonal h hroom
    show Meets before (pushUnique a b [p, q] _ >>= _) (Option.or _ _) (2 + 2) (Grown a b _ (Option.or _ _))
    cases hfirst : Simplex.pushUnique? a b [p, q] (q.diff - p.diff).anyOrthogonal with
    | some s' =>
      rw [hfirst] at hacross
      exact hacross.bind fun _ hgrown => .pure _ hgrown
    | none =>
      rw [hfirst] at hacross
      exact hacross.bind fun _ hgrown => pushUnique_meets _ hgrown.1 hroom
  · exact .pure _ (.some h h)

theorem widenTriangle_meets {s : Simplex α} (h : s.Drawn a b before) :
    Meets before (widenTriangle a b s) (s.widenTriangle a b) 2 ((s.widenTriangle a b).Drawn a b) := by
  rcases s with _ | ⟨p, _ | ⟨q, _ | ⟨r, _ | ⟨t, rest⟩⟩⟩⟩
  · exact .pure _ h
  · exact .pure _ h
  · exact .pure _ h
  · have hpush := pushUnique_meets ((q.diff - p.diff).cross (r.diff - p.diff)) h (show 3 < 4 by decide)
    show Meets before (pushUnique a b [p, q, r] _ >>= _) (Option.getD _ _) (0 + 2)
      (Simplex.Drawn a b · (Option.getD _ _))
    cases hfound : Simplex.pushUnique? a b [p, q, r] ((q.diff - p.diff).cross (r.diff - p.diff)) with
    | some s' =>
      rw [hfound] at hpush
      exact hpush.bind fun _ hgrown => .pure _ (hgrown.2 s' rfl)
    | none =>
      rw [hfound] at hpush
      exact hpush.bind fun _ hgrown => .pure _ hgrown.1
  · exact .pure _ h

/-- **The completion always has room for its next point**, asks about no more than eight directions, and
adds only what it asked for. -/
theorem completeTetrahedron_meets {s : Simplex α} (h : s.Drawn a b before) :
    Meets before (completeTetrahedron a b s) (s.completeTetrahedron a b) 8
      ((s.completeTetrahedron a b).Drawn a b) := by
  have hpoint := widenPoint_meets h
  show Meets before (widenPoint a b s >>= _) _ ((2 + 4) + 2) _
  unfold Simplex.completeTetrahedron
  cases hsecond : s.widenPoint? a b with
  | none =>
    rw [hsecond] at hpoint
    exact hpoint.bind fun _ hgrown => .pure s hgrown.1
  | some s₂ =>
    rw [hsecond] at hpoint
    refine hpoint.bind fun before₂ hgrown => ?_
    have hsegment := widenSegment_meets (hgrown.2 s₂ rfl)
    dsimp only
    cases hthird : s₂.widenSegment? a b with
    | none =>
      rw [hthird] at hsegment
      exact hsegment.bind fun _ hgrown => .pure s₂ hgrown.1
    | some s₃ =>
      rw [hthird] at hsegment
      exact hsegment.bind fun _ hgrown => widenTriangle_meets (hgrown.2 s₃ rfl)

/-! ## §D The whole test for overlap -/

/-- One point that was asked for. -/
theorem drawn_single (d : Vec3 α) : Simplex.Drawn a b [d] [SupportPoint.along a b d] :=
  ⟨show 1 ≤ 4 by decide, fun _ hp => ⟨d, List.mem_singleton_self d, List.mem_singleton.mp hp⟩⟩

/-- **The test for overlap is safe for every pair of support functions.** It asks about one direction first,
about one in each of at most 32 turns, and about at most eight to complete its simplex. What it finds was
asked for. -/
theorem find_yields (a b : Support α) (firstDirection : Vec3 α) : ∃ first searched completed,
    Yields (find a b firstDirection) (Overlap.find? a b firstDirection) ([first] ++ (searched ++ completed)) ∧
      searched.length ≤ 32 ∧ completed.length ≤ 8 ∧
      ∀ s ∈ Overlap.find? a b firstDirection, s.Drawn a b ([first] ++ (searched ++ completed)) := by
  let first := if Simplex.degenerateSq < firstDirection.lengthSq then firstDirection else Vec3.unitX
  let p := SupportPoint.along a b first
  let found : Option (Simplex α) :=
    if (-p.diff).lengthSq < Overlap.containsOriginSq then some [p]
    else Overlap.search a b Overlap.maxSteps [p] (-p.diff) Scalar.maxFinite
  have hfirst : Simplex.Drawn a b [first] [p] := drawn_single first
  have hsearch : Meets [first] (searchFrom a b [p] (-p.diff)) found 32
      fun asked => ∀ s ∈ found, s.Drawn a b asked := by
    unfold found searchFrom
    split
    · refine .pure _ ?_
      rintro _ ⟨⟩
      exact hfirst
    · exact search_meets 32 (s := ⟨[p], -p.diff, Scalar.maxFinite⟩) hfirst (show 1 < 4 by decide)
  obtain ⟨searched, hsearched, hlength, hdrawn⟩ := hsearch
  have hcomplete : Meets ([first] ++ searched)
      (match found with
        | none => pure none
        | some s => completeTetrahedron a b s >>= fun completed => pure (some completed))
      (found.map (Simplex.completeTetrahedron a b)) (0 + 8)
      fun asked => ∀ s ∈ found.map (Simplex.completeTetrahedron a b), s.Drawn a b asked := by
    cases hfound : found with
    | none => exact .pure _ fun _ hnone => nomatch hnone
    | some s =>
      refine (completeTetrahedron_meets (hdrawn s hfound)).bind fun _ hcompleted => .pure _ ?_
      rintro _ ⟨⟩
      exact hcompleted
  obtain ⟨completed, hcompleted, hlength', hdrawn'⟩ := hcomplete
  refine ⟨first, searched, completed, ?_, hlength, hlength', ?_⟩
  · refine (yields_ask a b first).bind ?_
    exact (yields_push (s := []) (show 0 < 4 by decide) p).bind_silent (hsearched.bind hcompleted)
  · rw [← List.append_assoc]
    exact hdrawn'

/-! ## §E The search for the nearest points -/

/-- The state was asked for, and there is room for one more point unless the search is over. -/
structure Open (a b : Support α) (asked : List (Vec3 α)) (s : ClosestPoints.State α) : Prop where
  /-- The points were asked for. -/
  drawn : s.simplex.Drawn a b asked
  /-- Only a search that is over may hold four of them. -/
  room : s.overlapping = false → s.simplex.length < 4

theorem approach_yields {s : ClosestPoints.State α} (hover : s.overlapping = false)
    (hroom : s.simplex.length < 4) : Yields (approach a b s) (ClosestPoints.closer? a b s) [s.dir] := by
  have hopen : ¬ s.overlapping = true := by
    rw [hover]
    exact Bool.false_ne_true
  unfold approach ClosestPoints.closer?
  rw [if_neg hopen]
  dsimp only
  rw [if_neg hopen]
  show Yields _ _ ([s.dir] ++ [])
  refine (yields_ask a b s.dir).bind ?_
  refine Yields.ite (Yields.pure _) (Yields.ite (Yields.pure _) ?_)
  refine (yields_push hroom _).bind_silent ?_
  exact Yields.ite (Yields.pure _) (Yields.pure _)

/-- What a turn goes on with was asked for, and leaves room or ends the search. -/
theorem closer?_open {s s' : ClosestPoints.State α} (h : Open a b before s)
    (hs' : s' ∈ ClosestPoints.closer? a b s) : Open a b (before ++ [s.dir]) s' := by
  replace hs' : ClosestPoints.closer? a b s = some s' := hs'
  unfold ClosestPoints.closer? at hs'
  dsimp only at hs'
  split_ifs at hs' with hover
  have hgrown := h.drawn.push (h.room (Bool.eq_false_iff.mpr hover)) s.dir
  have hkept := hgrown.sublist (Simplex.retain_sublist _
    (s.simplex ++ [SupportPoint.along a b s.dir]).nearest.2)
  obtain rfl := Option.some.inj hs'
  refine ⟨hkept, fun hfalse => Nat.lt_of_le_of_ne hkept.length_le fun hfour => ?_⟩
  obtain ⟨-, hlength⟩ := Bool.or_eq_false_iff.mp hfalse
  exact absurd hfour (by simpa using hlength)

/-- **The search for the nearest points always has room for its next point**, asks once in each turn, and
holds only what it asked for. -/
theorem approachAll_meets (steps : Nat) {s : ClosestPoints.State α} (h : Open a b before s) :
    Meets before (approachAll a b steps s) (ClosestPoints.search a b steps s) steps
      fun asked => Open a b asked (ClosestPoints.search a b steps s) := by
  induction steps generalizing s before with
  | zero => exact .pure s h
  | succ steps ih =>
    rw [ClosestPoints.search_succ]
    cases hover : s.overlapping with
    | true =>
      have hends : ClosestPoints.closer? a b s = none := if_pos hover
      have hturn : approach a b s = pure none := if_pos hover
      rw [hends]
      unfold approachAll
      rw [hturn]
      exact .pure s h
    | false =>
      have hturn : Meets before (approach a b s) (ClosestPoints.closer? a b s) 1 (· = before ++ [s.dir]) :=
        ⟨[s.dir], approach_yields hover (h.room hover), Nat.le_refl 1, rfl⟩
      cases hcloser : ClosestPoints.closer? a b s with
      | none =>
        rw [hcloser] at hturn
        refine hturn.bind ?_
        rintro _ rfl
        exact .pure s ⟨h.drawn.append _, h.room⟩
      | some s' =>
        rw [hcloser] at hturn
        refine hturn.bind ?_
        rintro _ rfl
        exact ih (closer?_open h hcloser)

/-- **The search for the nearest points is safe for every pair of support functions.** It asks about the main
diagonal first and about one direction in each of at most 32 turns. The nearest points are combined from a
simplex that was asked for. -/
theorem between_yields (a b : Support α) : ∃ first searched s,
    Yields (between a b) (ClosestPoints.between a b) ([first] ++ searched) ∧ searched.length ≤ 32 ∧
      ClosestPoints.between a b = ClosestPoints.ofState s ∧ s.simplex.Drawn a b ([first] ++ searched) := by
  let first : Vec3 α := Vec3.splat 1
  have hstart : Open a b [first] (ClosestPoints.start a b) :=
    ⟨drawn_single first, fun _ => show 1 < 4 by decide⟩
  obtain ⟨searched, hsearched, hlength, hopen⟩ := approachAll_meets Overlap.maxSteps hstart
  refine ⟨first, searched, _, ?_, hlength, rfl, hopen.drawn⟩
  refine (yields_ask a b first).bind ?_
  refine (yields_push (s := []) (show 0 < 4 by decide) _).bind_silent ?_
  rw [← List.append_nil searched]
  exact hsearched.bind (Yields.pure _)

end ConvexCollision.Watched
