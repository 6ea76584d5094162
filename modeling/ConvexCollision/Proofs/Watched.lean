import ConvexCollision.Simplex

/-!
# ConvexCollision.Proofs.Watched -- computations that are watched while they ask for support points

The narrow phase gets at its two sets through their support functions, and keeps what it learns in a simplex
of four places and in a growing table of points. A watched computation (`Watched`) writes down every
direction that it asks about, and ends in a slip when it would put a fifth point into a simplex, read a point
that is not in the table, or look for the nearest of no faces (`Slip`). That a watched computation yields a
value says all of this at once: there is no slip, the value is the one said, and so are the directions
(`Yields`).
-/

namespace ConvexCollision

variable {α β γ : Type}

/-- What must not happen. -/
inductive Slip where
  /-- A point for a simplex that has four. -/
  | fullSimplex
  /-- A point that is not in the table. -/
  | missingPoint (i : Nat)
  /-- The nearest face of none. -/
  | noFace
deriving DecidableEq

/-- A computation with the directions that it has asked about so far. -/
abbrev Watched (α β : Type) := StateT (List (Vec3 α)) (Except Slip) β

/-! ## §A Watched computations -/

namespace Watched

/-- Without a slip, the computation comes to a value and asks about some directions on the way. -/
def Yields (m : Watched α β) (r : β) (asked : List (Vec3 α)) : Prop :=
  ∀ before, m.run before = .ok (r, before ++ asked)

theorem Yields.pure (r : β) : Yields (Pure.pure r : Watched α β) r [] := by
  intro before
  rw [List.append_nil]
  rfl

/-- One after the other, two computations ask about the directions of both. -/
theorem Yields.bind {m : Watched α β} {r : β} {asked : List (Vec3 α)} {f : β → Watched α γ} {r' : γ}
    {asked' : List (Vec3 α)} (h : Yields m r asked) (h' : Yields (f r) r' asked') :
    Yields (m >>= f) r' (asked ++ asked') := by
  intro before
  rw [StateT.run_bind, h before]
  show (f r).run (before ++ asked) = _
  rw [h', List.append_assoc]

/-- What asks about nothing leaves no trace in what follows. -/
theorem Yields.bind_silent {m : Watched α β} {r : β} {f : β → Watched α γ} {r' : γ} {asked : List (Vec3 α)}
    (h : Yields m r []) (h' : Yields (f r) r' asked) : Yields (m >>= f) r' asked :=
  h.bind h'

/-- Both ways of a choice. -/
theorem Yields.ite {c : Prop} [Decidable c] {m m' : Watched α β} {r r' : β} {asked : List (Vec3 α)}
    (h : Yields m r asked) (h' : Yields m' r' asked) :
    Yields (if c then m else m') (if c then r else r') asked := by
  split
  · exact h
  · exact h'

/-- Puts a point into a simplex. -/
def push (s : Simplex α) (p : SupportPoint α) : Watched α (Simplex α) :=
  if s.length < 4 then pure (s ++ [p]) else throw .fullSimplex

/-- Reads a point of a table. -/
def read (points : Array (SupportPoint α)) (i : Nat) : Watched α (SupportPoint α) :=
  if h : i < points.size then pure points[i] else throw (.missingPoint i)

theorem yields_push {s : Simplex α} (h : s.length < 4) (p : SupportPoint α) :
    Yields (push s p) (s ++ [p]) [] := by
  unfold push
  rw [if_pos h]
  exact Yields.pure _

theorem yields_read {points : Array (SupportPoint α)} {i : Nat} (h : i < points.size) :
    Yields (read points i) points[i] [] := by
  unfold read
  rw [dif_pos h]
  exact Yields.pure _

/-- Asks for the point of the difference furthest along a direction. -/
def ask [Scalar α] (a b : Support α) (dir : Vec3 α) : Watched α (SupportPoint α) := fun asked =>
  .ok (SupportPoint.along a b dir, asked ++ [dir])

theorem yields_ask [Scalar α] (a b : Support α) (dir : Vec3 α) :
    Yields (ask a b dir) (SupportPoint.along a b dir) [dir] := fun _ => rfl

end Watched

/-! ## §B How much is asked -/

namespace Watched

/-- After the directions `before`, the computation comes to a value without a slip. It asks about no more
than `bound` directions, and what holds of all of them by then is `Q`. -/
def Meets (before : List (Vec3 α)) (m : Watched α β) (r : β) (bound : Nat)
    (Q : List (Vec3 α) → Prop) : Prop :=
  ∃ asked, Yields m r asked ∧ asked.length ≤ bound ∧ Q (before ++ asked)

namespace Meets

variable {before : List (Vec3 α)} {m : Watched α β} {r : β} {bound bound' : Nat}
  {Q Q' : List (Vec3 α) → Prop}

theorem of_yields (h : Yields m r []) (hQ : Q before) : Meets before m r bound Q :=
  ⟨[], h, Nat.zero_le bound, by rwa [List.append_nil]⟩

theorem pure (r : β) (hQ : Q before) : Meets before (Pure.pure r) r bound Q :=
  of_yields (Yields.pure r) hQ

/-- The second of two computations starts from what the first one has asked about. -/
theorem bind {f : β → Watched α γ} {r' : γ} (h : Meets before m r bound Q)
    (h' : ∀ before', Q before' → Meets before' (f r) r' bound' Q') :
    Meets before (m >>= f) r' (bound' + bound) Q' := by
  obtain ⟨asked, hyields, hlength, hQ⟩ := h
  obtain ⟨asked', hyields', hlength', hQ'⟩ := h' _ hQ
  refine ⟨asked ++ asked', hyields.bind hyields', ?_, ?_⟩
  · rw [List.length_append, Nat.add_comm]
    exact Nat.add_le_add hlength' hlength
  · rw [← List.append_assoc]
    exact hQ'

theorem mono (h : Meets before m r bound Q) (hbound : bound ≤ bound')
    (hQ : ∀ asked, Q asked → Q' asked) : Meets before m r bound' Q' := by
  obtain ⟨asked, hyields, hlength, hall⟩ := h
  exact ⟨asked, hyields, Nat.le_trans hlength hbound, hQ _ hall⟩

end Meets

theorem meets_ask [Scalar α] {a b : Support α} {before : List (Vec3 α)} {dir : Vec3 α}
    {Q : List (Vec3 α) → Prop} (hQ : Q (before ++ [dir])) :
    Meets before (ask a b dir) (SupportPoint.along a b dir) 1 Q :=
  ⟨[dir], yields_ask a b dir, Nat.le_refl 1, hQ⟩

end Watched

/-! ## §C Where the points of a simplex come from -/

variable [Scalar α]

/-- The simplex has no more than four points, and each of them was asked for. -/
structure Simplex.Drawn (a b : Support α) (asked : List (Vec3 α)) (s : Simplex α) : Prop where
  /-- There is room for its points. -/
  length_le : s.length ≤ 4
  /-- Each of them is the furthest one along a direction that was asked about. -/
  exists_along : ∀ p ∈ s, ∃ d ∈ asked, p = SupportPoint.along a b d

namespace Simplex.Drawn

variable {a b : Support α} {asked : List (Vec3 α)} {s : Simplex α}

/-- Asking on takes nothing back. -/
theorem append (h : s.Drawn a b asked) (more : List (Vec3 α)) : s.Drawn a b (asked ++ more) := by
  refine ⟨h.length_le, fun p hp => ?_⟩
  obtain ⟨d, hd, heq⟩ := h.exists_along p hp
  exact ⟨d, List.mem_append_left more hd, heq⟩

/-- The point that was asked for last may come in while there is room. -/
theorem push (h : s.Drawn a b asked) (hroom : s.length < 4) (d : Vec3 α) :
    (s ++ [SupportPoint.along a b d]).Drawn a b (asked ++ [d]) := by
  refine ⟨by rw [List.length_append]; exact hroom, fun p hp => ?_⟩
  rcases List.mem_append.mp hp with hp | hp
  · exact (h.append [d]).exists_along p hp
  · exact ⟨d, List.mem_append_right asked (List.mem_singleton_self d), List.mem_singleton.mp hp⟩

/-- Leaving points out leaves the others. -/
theorem sublist (h : s.Drawn a b asked) {s' : Simplex α} (hsub : s'.Sublist s) : s'.Drawn a b asked :=
  ⟨Nat.le_trans hsub.length_le h.length_le, fun p hp => h.exists_along p (hsub.subset hp)⟩

end Simplex.Drawn

theorem map_fst_zip_sublist {β γ : Type} (l : List β) (l' : List γ) :
    ((l.zip l').map Prod.fst).Sublist l := by
  induction l generalizing l' with
  | nil => exact List.nil_sublist []
  | cons x l ih =>
    cases l' with
    | nil => exact List.nil_sublist (x :: l)
    | cons y l' => exact (ih l').cons_cons x

/-- Only points of the simplex are retained. -/
theorem Simplex.retain_sublist (s : Simplex α) (weights : List α) : (s.retain weights).1.Sublist s := by
  unfold Simplex.retain
  rw [List.unzip_eq_map]
  exact (List.filter_sublist.map Prod.fst).trans (map_fst_zip_sublist s weights)

end ConvexCollision
