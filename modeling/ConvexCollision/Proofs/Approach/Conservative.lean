import ConvexCollision.Proofs.Approach.Separation

/-!
# ConvexCollision.Proofs.Approach.Conservative -- an approach passes nothing

While the sets are apart, the mover cannot come to the set at rest before it has closed in by their
distance along the line between the nearest points, and a turn of the advance stays short of that by the
skin. So the sets are apart at every time up to the one that the advance has come to
(`State.Inv`), and with exact nearest points only one thing ends an approach while the sets may still
come to touch: that the motion grazes, closing in but slowly (`State.Grazes`).

What the approach reports is then right (`sweep_conservative`). With a contact, the sets are apart up to
the time of the contact. Without one they touch from the start, or some turn grazed, or they are apart
all the way.
-/

namespace ConvexCollision.Approach

variable (a b : Support ℝ) (motion : Vec3 ℝ)

/-! ## §A Apart at a time -/

/-- The sets share no point at a time. -/
def ApartAt (time : ℝ) : Prop := Disjoint (Support.solid a) (Support.solid (placed b motion time))

/-- The sets share no point at any time from the start to the given one. -/
def ApartUntil (time : ℝ) : Prop := ∀ t, 0 ≤ t → t ≤ time → ApartAt a b motion t

namespace State

variable (s : State ℝ)

/-- The answer that a turn uses is right. -/
def IsExact : Prop :=
  (s.closest a b motion).IsExact (Support.solid a) (Support.solid (placed b motion s.time))

/-- The sets are apart, and the mover closes in, but within the cosine that counts as grazing. -/
def Grazes : Prop :=
  0 < (s.closest a b motion).distance ∧ 0 < s.closing a b motion ∧
    s.closing a b motion ≤ motion.length * grazing

/-- The time has not run out, and the sets have been apart up to it; at the start nothing is known. -/
structure Inv : Prop where
  /-- The time lies within the motion. -/
  nonneg : 0 ≤ s.time
  /-- The time lies within the motion. -/
  le_one : s.time ≤ 1
  /-- Nothing is known at the start only. -/
  start : s.lastApart = none → s.time = 0
  /-- The contact was seen on the way. -/
  seen : ∀ hit, s.lastApart = some hit → 0 ≤ hit.time ∧ hit.time ≤ s.time ∧ ApartUntil a b motion s.time

end State

/-- Between two times the mover has moved by so much of the motion. -/
theorem solid_placed (time later : ℝ) : Support.solid (placed b motion later) =
    (· + (later - time) • motion) '' Support.solid (placed b motion time) := by
  have hplaced (t : ℝ) (x : Vec3 ℝ) :
      x ∈ Support.solid (placed b motion t) ↔ x - (t - 1) • motion ∈ Support.solid b := by
    unfold placed
    rw [Support.mem_solid_translate, Scalar.one_real, Vec3.mul_eq_smul]
  ext x
  rw [hplaced]
  constructor
  · intro hx
    refine ⟨x - (later - time) • motion, ?_, sub_add_cancel _ _⟩
    rw [hplaced, sub_sub, ← add_smul, sub_add_sub_cancel]
    exact hx
  · rintro ⟨y, hy, rfl⟩
    rw [hplaced] at hy
    rw [show y + (later - time) • motion - (later - 1) • motion = y - (time - 1) • motion by module]
    exact hy

variable {a b motion} {s s' : State ℝ} {n : Nat}

/-- From a time on at which the sets are apart, they stay so while the mover closes in by less than
their distance. -/
theorem State.IsExact.apartAt (h : s.IsExact a b motion) (hpos : 0 < (s.closest a b motion).distance)
    {t : ℝ} (hclosing : (t - s.time) * s.closing a b motion < (s.closest a b motion).distance) :
    ApartAt a b motion t := by
  unfold ApartAt
  rw [solid_placed b motion s.time t]
  apply ClosestPoints.IsExact.disjoint_of_closing_lt h hpos (Support.convex_solid _)
    (Support.convex_solid _)
  rw [Vec3.dot_smul, Vec3.dot_comm, ← mul_neg]
  exact hclosing

theorem State.IsExact.normal_ne (h : s.IsExact a b motion)
    (hpos : 0 < (s.closest a b motion).distance) :
    ¬(s.closest a b motion).normal.same Vec3.zero = true :=
  ClosestPoints.IsExact.not_same_zero h hpos

/-! ## §B One turn -/

theorem skin_pos : (0 : ℝ) < skin := by
  unfold skin
  norm_num

theorem skin_lt_touching : (skin : ℝ) < touching := by
  unfold skin touching
  norm_num

/-- No contact is missed, and none is reported late: what the sets do on the way, by what is reported.
Whether some turn grazed is left open. -/
def Right (a b : Support ℝ) (motion : Vec3 ℝ) (grazed : Prop) (reported : Option (Hit ℝ)) : Prop :=
  match reported with
  | some hit => 0 ≤ hit.time ∧ hit.time ≤ 1 ∧ ApartUntil a b motion hit.time
  | none => ¬ApartAt a b motion 0 ∨ grazed ∨ ApartUntil a b motion 1

theorem Right.mono {grazed grazed' : Prop} {reported : Option (Hit ℝ)} (himp : grazed → grazed')
    (h : Right a b motion grazed reported) : Right a b motion grazed' reported := by
  cases reported with
  | none => exact h.imp_right fun h => h.imp_left himp
  | some hit => exact h

namespace State.Inv

/-- While the contact was seen on the way, reporting it is right. -/
theorem right_lastApart (h : s.Inv a b motion) {hit : Hit ℝ} (hlast : s.lastApart = some hit)
    (grazed : Prop) : Right a b motion grazed (some hit) := by
  obtain ⟨hnonneg, hle, hapart⟩ := h.seen hit hlast
  exact ⟨hnonneg, hle.trans h.le_one, fun t ht htle => hapart t ht (htle.trans hle)⟩

variable (h : s.Inv a b motion) (hexact : s.IsExact a b motion)
  (hpos : 0 < (s.closest a b motion).distance)

include h hexact hpos

/-- The sets are apart up to a later time when until then the mover closes in by less than their
distance. -/
theorem apartUntil {later : ℝ} (hclosing : ∀ t, s.time < t → t ≤ later →
    (t - s.time) * s.closing a b motion < (s.closest a b motion).distance) :
    ApartUntil a b motion later := by
  intro t ht htle
  rcases lt_trichotomy t s.time with hbefore | rfl | hafter
  · -- a time before the one that the advance has come to, which is then not the start
    cases hlast : s.lastApart with
    | none => exact absurd hbefore (not_lt.mpr (h.start hlast ▸ ht))
    | some hit => exact (h.seen hit hlast).2.2 t ht hbefore.le
  · apply hexact.apartAt hpos
    rw [sub_self, zero_mul]
    exact hpos
  · exact hexact.apartAt hpos (hclosing t hafter htle)

/-- The time that the mover can advance to comes before the sets can touch. -/
theorem apartUntil_of_le_reached (hcloses : 0 < s.closing a b motion) {later : ℝ}
    (hlater : later ≤ s.reached a b motion) : ApartUntil a b motion later := by
  apply h.apartUntil hexact hpos
  intro t _ htle
  have hadvance : t - s.time ≤ ((s.closest a b motion).distance - skin) / s.closing a b motion :=
    sub_le_iff_le_add'.mpr (htle.trans hlater)
  rw [le_div_iff₀ hcloses] at hadvance
  exact hadvance.trans_lt (sub_lt_self _ skin_pos)

end State.Inv

/-- **A turn is conservative.** With a right answer, a turn that ends the approach reports what is
right, and one that does not leaves the sets apart up to the time that it goes on at. -/
theorem State.Inv.turn (h : s.Inv a b motion) (hexact : s.IsExact a b motion) :
    match turn a b motion s with
    | .ended result => Right a b motion (s.Grazes a b motion) result.hit?
    | .onward s' => s'.Inv a b motion ∧ s'.lastApart ≠ none := by
  have hclosing (closes : ¬ s.closing a b motion ≤ motion.length * grazing) :
      0 < s.closing a b motion := by
    refine lt_of_le_of_lt (mul_nonneg motion.length_nonneg ?_) (not_le.mp closes)
    unfold grazing
    norm_num
  have hturn := turn_cases a b motion s
  generalize Approach.turn a b motion s = outcome at hturn ⊢
  cases hturn with
  | overlaps near =>
    -- overlapping: at the start, or else the last contact is reported
    rw [Scalar.zero_real] at near
    cases hlast : s.lastApart with
    | some hit => exact h.right_lastApart hlast _
    | none =>
      left
      intro hapart
      have hshared := hexact.overlap near
      rw [h.start hlast] at hshared
      exact Set.not_disjoint_iff_nonempty_inter.mpr hshared hapart
  | grazes apart slow =>
    -- grazing, or even moving away
    rw [Scalar.zero_real] at apart
    have hpos : 0 < (s.closest a b motion).distance := not_le.mp apart
    right
    by_cases hcloses : 0 < s.closing a b motion
    · exact Or.inl ⟨hpos, hcloses, slow.resolve_left (hexact.normal_ne hpos)⟩
    · right
      apply h.apartUntil hexact hpos
      intro t ht _
      exact (mul_nonpos_of_nonneg_of_nonpos (sub_pos.mpr ht).le (not_lt.mp hcloses)).trans_lt hpos
  | touches apart =>
    rw [Scalar.zero_real] at apart
    have hapart := h.apartUntil hexact (not_le.mp apart) fun t ht htle => absurd ht htle.not_gt
    exact ⟨h.nonneg, h.le_one, hapart⟩
  | passes apart _ closes _ late =>
    rw [Scalar.zero_real] at apart
    rw [Scalar.one_real] at late
    exact Or.inr (Or.inr (h.apartUntil_of_le_reached hexact (not_le.mp apart) (hclosing closes) late.le))
  | advances apart _ closes far onWay =>
    rw [Scalar.zero_real] at apart
    rw [Scalar.one_real] at onWay
    have hcloses := hclosing closes
    have hskin : skin < (s.closest a b motion).distance := skin_lt_touching.trans_le (not_lt.mp far)
    have hadvance : s.time ≤ s.reached a b motion :=
      le_add_of_nonneg_right (div_pos (sub_pos.mpr hskin) hcloses).le
    refine ⟨⟨h.nonneg.trans hadvance, not_lt.mp onWay, fun hnone => (nomatch hnone), ?_⟩,
      Option.some_ne_none _⟩
    intro hit hhit
    cases hhit
    exact ⟨h.nonneg, hadvance,
      h.apartUntil_of_le_reached hexact (not_le.mp apart) hcloses (le_refl _)⟩

/-! ## §C The approach -/

variable (a b motion) in
/-- Some turn, out of so many from a state on, grazes. -/
def GrazesWithin (n : Nat) (s : State ℝ) : Prop :=
  ∃ k < n, ∃ s', after a b motion k s = some s' ∧ s'.Grazes a b motion

variable (a b motion) in
/-- Every answer that is used in so many turns from a state on is right. -/
def ExactWithin (n : Nat) (s : State ℝ) : Prop :=
  ∀ k < n, ∀ s', after a b motion k s = some s' → s'.IsExact a b motion

theorem after_succ_of_turn (hturn : turn a b motion s = .onward s') (k : Nat) :
    after a b motion (k + 1) s = after a b motion k s' := by
  rw [after, hturn]

theorem GrazesWithin.of_turn (hturn : turn a b motion s = .onward s')
    (h : GrazesWithin a b motion n s') : GrazesWithin a b motion (n + 1) s := by
  obtain ⟨k, hk, s₂, hafter, hgrazes⟩ := h
  exact ⟨k + 1, Nat.succ_lt_succ hk, s₂, (after_succ_of_turn hturn k).trans hafter, hgrazes⟩

theorem ExactWithin.of_turn (h : ExactWithin a b motion (n + 1) s)
    (hturn : turn a b motion s = .onward s') : ExactWithin a b motion n s' :=
  fun k hk s₂ hafter => h (k + 1) (Nat.succ_lt_succ hk) s₂ ((after_succ_of_turn hturn k).trans hafter)

/-- An advance that has begun reports what is right. -/
theorem advance_right (h : s.Inv a b motion) (hexact : ExactWithin a b motion n s)
    (hbegun : s.lastApart = none → 0 < n) :
    Right a b motion (GrazesWithin a b motion n s) (advance a b motion n s.time s.lastApart).hit? := by
  induction n generalizing s with
  | zero =>
    -- the turns are used up, and the last contact is reported
    cases hlast : s.lastApart with
    | none => exact absurd (hbegun hlast) (lt_irrefl 0)
    | some hit => exact h.right_lastApart hlast _
  | succ n ih =>
    have hfirst := h.turn (hexact 0 (Nat.succ_pos n) s rfl)
    rw [advance_succ]
    cases hturn : turn a b motion s with
    | ended result =>
      rw [hturn] at hfirst
      exact hfirst.mono fun hgrazes => ⟨0, Nat.succ_pos n, s, rfl, hgrazes⟩
    | onward s' =>
      rw [hturn] at hfirst
      have hlater := ih hfirst.1 (hexact.of_turn hturn) fun hnone => absurd hnone hfirst.2
      exact hlater.mono fun hgrazes => hgrazes.of_turn hturn

variable (a b motion) in
/-- Some turn of the approach grazes. -/
def Grazes : Prop := GrazesWithin a b motion maxSteps initial

variable (a b motion) in
/-- Every answer that the approach uses is right. -/
def IsExact : Prop := ExactWithin a b motion maxSteps initial

/-- **An approach passes nothing.** When the nearest points that it uses are right, a contact comes no
later than the sets can touch. Without a contact they touch from the start, or the approach grazed, or
they are apart all the way. -/
theorem sweep_conservative (hexact : IsExact a b motion) :
    Right a b motion (Grazes a b motion) (sweep a b motion).hit? := by
  have hinitial : (initial : State ℝ).time = 0 := Scalar.zero_real
  apply advance_right (s := initial) (n := maxSteps) ?_ hexact
  · exact fun _ => Nat.succ_pos 15
  · exact ⟨hinitial.ge, hinitial.le.trans zero_le_one, fun _ => hinitial, fun _ hsome => (nomatch hsome)⟩

end ConvexCollision.Approach
