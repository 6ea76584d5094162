import ConvexCollision.Proofs.Approach.Times

/-!
# ConvexCollision.Proofs.Approach.Found -- every contact was found while the sets were apart

An approach may report a contact turns after it was seen: when the sets are then found to overlap, or when
the turns are used up, the last position at which they were apart stands in. Either way the contact is that
of some turn before, and that turn found the sets apart, a direction between them, and the mover closing in
(`State.Finds`). `sweep_found` names the turn, so that what is known of its nearest points is known of the
contact.
-/

namespace ConvexCollision.Approach

variable {α : Type} [Scalar α] {a b : Support α} {motion : Vec3 α} {s : State α}

/-! ## §A One turn -/

/-- The turn at a state finds a contact: the sets are apart, some direction leads from one to the other, and
the mover closes in faster than grazing. -/
structure State.Finds (a b : Support α) (motion : Vec3 α) (s : State α) : Prop where
  /-- The sets are apart. -/
  apart : ¬ (s.closest a b motion).distance ≤ 0
  /-- There is a direction. -/
  directed : ¬ (s.closest a b motion).normal.same Vec3.zero = true
  /-- The mover closes in. -/
  closes : ¬ s.closing a b motion ≤ motion.length * grazing

/-- A turn reports no contact but the one that it came with and the one that it finds, and it takes only the
latter on. -/
theorem turn_found (a b : Support α) (motion : Vec3 α) (s : State α) :
    match turn a b motion s with
    | .ended result => ∀ hit, result.hit? = some hit →
        s.lastApart = some hit ∨ s.Finds a b motion ∧ hit = s.hit a b motion
    | .onward s' => s.Finds a b motion ∧ s'.lastApart = some (s.hit a b motion) := by
  have hturn := turn_cases a b motion s
  generalize turn a b motion s = outcome at hturn ⊢
  cases hturn with
  | overlaps =>
    intro hit hhit
    left
    rwa [← hit?_ofLastApart s.lastApart]
  | grazes => exact fun hit hhit => nomatch hhit
  | touches apart directed closes =>
    intro hit hhit
    cases hhit
    exact .inr ⟨⟨apart, directed, closes⟩, rfl⟩
  | passes => exact fun hit hhit => nomatch hhit
  | advances apart directed closes => exact ⟨⟨apart, directed, closes⟩, rfl⟩

/-- A turn that finds a contact ends the approach with it, or after its motion, or goes on. -/
theorem turn_of_finds (h : s.Finds a b motion) : turn a b motion s =
    if (s.closest a b motion).distance < touching then .ended (.touches (s.hit a b motion))
    else if 1 < s.reached a b motion then .ended .misses
    else .onward ⟨s.reached a b motion, some (s.hit a b motion)⟩ := by
  unfold turn
  rw [if_neg h.apart, if_neg (not_or.mpr ⟨h.directed, h.closes⟩)]

/-! ## §B The whole advance -/

/-- A contact that is reported within so many turns from a state on was seen before, or one of these turns
found it. -/
theorem advance_found (n : Nat) {hit : Hit α}
    (hhit : (advance a b motion n s.time s.lastApart).hit? = some hit) :
    s.lastApart = some hit ∨ ∃ k < n, ∃ s', after a b motion k s = some s' ∧ s'.Finds a b motion ∧
      hit = s'.hit a b motion := by
  induction n generalizing s with
  | zero => exact .inl hhit
  | succ n ih =>
    have hfound := turn_found a b motion s
    rw [advance_succ] at hhit
    cases hturn : turn a b motion s with
    | ended result =>
      rw [hturn] at hfound hhit
      refine (hfound hit hhit).imp_right ?_
      exact fun h => ⟨0, Nat.succ_pos n, s, rfl, h⟩
    | onward s' =>
      rw [hturn] at hfound hhit
      right
      rcases ih hhit with hlast | ⟨k, hk, s₂, hafter, h⟩
      · -- the contact came with the later state, so this turn found it
        obtain ⟨hfinds, hseen⟩ := hfound
        exact ⟨0, Nat.succ_pos n, s, rfl, hfinds, Option.some.inj (hlast.symm.trans hseen)⟩
      · refine ⟨k + 1, Nat.succ_lt_succ hk, s₂, ?_, h⟩
        rw [after, hturn]
        exact hafter

/-- **Every contact was found.** Whatever the two sets and the motion are, the contact that an approach
reports is that of a turn that found it. -/
theorem sweep_found {hit : Hit α} (h : (sweep a b motion).hit? = some hit) :
    ∃ k < maxSteps, ∃ s, after a b motion k initial = some s ∧ s.Finds a b motion ∧
      hit = s.hit a b motion :=
  (advance_found (s := initial) maxSteps h).resolve_left fun hnone => nomatch hnone

/-- An approach that takes two turns reports what the second one ends with, and comes to no other states. -/
theorem sweep_of_two_turns {result : Approach α} (hfirst : turn a b motion initial = .onward s)
    (hsecond : turn a b motion s = .ended result) : sweep a b motion = result ∧
      ∀ k s', after a b motion k initial = some s' → s' = initial ∨ s' = s := by
  constructor
  · show advance a b motion (14 + 1 + 1) initial.time initial.lastApart = result
    rw [advance_succ, hfirst]
    show advance a b motion (14 + 1) s.time s.lastApart = result
    rw [advance_succ, hsecond]
  · intro k s' hafter
    match k with
    | 0 => exact .inl (Option.some.inj hafter).symm
    | 1 =>
      rw [after, hfirst] at hafter
      exact .inr (Option.some.inj hafter).symm
    | k + 2 =>
      rw [after, hfirst] at hafter
      simp only [after, hsecond] at hafter
      cases hafter

end ConvexCollision.Approach
