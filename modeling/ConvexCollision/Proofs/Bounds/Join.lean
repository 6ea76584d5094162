import ConvexCollision.Proofs.Signs
import ConvexCollision.Proofs.Single.Sum

/-!
# ConvexCollision.Proofs.Bounds.Join -- unions of boxes, and where they are no join

Boxes are ordered by lying within one another, and two boxes within each other are the same in value. The
union of a box with one whose corners are in order is the least box that both lie within
(`Valid.union_within_iff`), and all the laws of a join follow from that. The box of no point has its corners
the other way round. On the left of a union it changes nothing. On the right its corners are put in like any
two points, one at each end of the finite range, so that the union is the box of all finite points
(`IsFinite.union_empty_same`). `union_join_iff` says for each law which boxes it holds of.

Unions of many boxes are taken from the box of no point on the left, so they depend only on which boxes occur
(`foldl_union_same`).
-/

namespace ConvexCollision

/-! ## §A Intervals that are dragged along -/

namespace Scalar

variable {α : Type} [Scalar α] [SumOrdered α]

/-- The smaller of a number and a defined one is defined. -/
theorem minNum_defined {a b : α} (hb : b ≤ b) : minNum a b ≤ minNum a b := by
  by_cases ha : a ≤ a
  · exact Ordered.defined_left (minNum_le_left ha hb)
  · unfold minNum
    rw [if_neg fun hlt => ha (Ordered.defined_left (Ordered.lt_iff.mp hlt).1)]
    have hundefined : isUndefined a = true := by
      unfold isUndefined
      rw [decide_eq_false ha]
      rfl
    rw [hundefined, if_pos rfl]
    exact hb

/-- The low end of an interval that is dragged along by `d`. -/
theorem drag_low {m M d : α} (h : m ≤ M) (hdefined : m + minNum d 0 ≤ m + minNum d 0) :
    let low := if m + d < m then m + d else m
    same (m + minNum d 0) (if M + d < low then M + d else low) = true := by
  intro low
  have hm := Ordered.defined_left h
  have hzero : (0 : α) ≤ 0 := zero_le_zero
  by_cases hd : d < 0
  · -- the moved low end is the lowest of the three numbers
    have hmin : minNum d 0 = d := if_pos hd
    rw [hmin] at hdefined ⊢
    have hdown := add_le_of_nonpos (Ordered.lt_iff.mp hd).1 hdefined
    have hlow : same (m + d) low = true := by
      show same (m + d) (if m + d < m then m + d else m) = true
      split
      · exact same_iff.mpr ⟨hdefined, hdefined⟩
      · next hlt => exact same_iff.mpr ⟨hdown, le_of_not_lt hm hdefined hlt⟩
    rw [if_neg]
    · exact hlow
    · intro hlt
      have hle := Ordered.lt_iff.mp hlt
      have hsum := SumOrdered.add_le_add_right h hdefined (Ordered.defined_left hle.1)
      exact hle.2 (Ordered.le_trans (same_iff.mp hlow).2 hsum)
  · -- neither end moves below the low end, if it moves at all
    have hnot {n : α} (hn : m ≤ n) : ¬ n + d < m := by
      intro hlt
      have hle := Ordered.lt_iff.mp hlt
      have hsum := Ordered.defined_left hle.1
      have hup := le_add_of_nonneg (le_of_not_lt hzero (Strict.defined_add hsum).2 hd) hsum
      exact hle.2 (Ordered.le_trans hn hup)
    have hmin : same (minNum d 0) 0 = true := by
      have hsame : same (0 : α) 0 = true := same_iff.mpr ⟨hzero, hzero⟩
      unfold minNum
      rw [if_neg hd, isUndefined_eq_false hzero]
      split <;> exact hsame
    have hlow : low = m := if_neg (hnot hm)
    rw [hlow, if_neg (hnot h)]
    exact Signed.add_same hm hmin

/-- The high end of an interval that is dragged along by `d`. -/
theorem drag_high {m M d : α} (h : m ≤ M) (hdefined : M + maxNum d 0 ≤ M + maxNum d 0) :
    let high := if M < m + d then m + d else M
    same (M + maxNum d 0) (if high < M + d then M + d else high) = true := by
  intro high
  have hM := Ordered.defined_right h
  have hzero : (0 : α) ≤ 0 := zero_le_zero
  by_cases hd : 0 < d
  · have hmax : maxNum d 0 = d := if_pos hd
    rw [hmax] at hdefined ⊢
    have hup := le_add_of_nonneg (Ordered.lt_iff.mp hd).1 hdefined
    have hhigh : high ≤ M + d := by
      show (if M < m + d then m + d else M) ≤ M + d
      split
      · next hlt =>
        exact SumOrdered.add_le_add_right h (Ordered.defined_right (Ordered.lt_iff.mp hlt).1) hdefined
      · exact hup
    split
    · exact same_iff.mpr ⟨hdefined, hdefined⟩
    · next hlt => exact same_iff.mpr ⟨le_of_not_lt hdefined (Ordered.defined_left hhigh) hlt, hhigh⟩
  · have hnot {n : α} (hn : n ≤ M) : ¬ M < n + d := by
      intro hlt
      have hle := Ordered.lt_iff.mp hlt
      have hsum := Ordered.defined_right hle.1
      have hdown := add_le_of_nonpos (le_of_not_lt (Strict.defined_add hsum).2 hzero hd) hsum
      exact hle.2 (Ordered.le_trans hdown hn)
    have hmax : same (maxNum d 0) 0 = true := by
      have hsame : same (0 : α) 0 = true := same_iff.mpr ⟨hzero, hzero⟩
      unfold maxNum
      rw [if_neg hd, isUndefined_eq_false hzero]
      split <;> exact hsame
    have hhigh : high = M := if_neg (hnot h)
    rw [hhigh, if_neg (hnot hM)]
    exact Signed.add_same hM hmax

end Scalar

namespace Bounds

variable {α : Type} [Scalar α]

/-- The corners are in order on every axis. -/
def Valid (b : Bounds α) : Prop := ∀ axis, b.mins.coord axis ≤ b.maxs.coord axis

/-- The box of all finite points. -/
def whole : Bounds α := ⟨Vec3.splat (-Scalar.maxFinite), Vec3.splat Scalar.maxFinite⟩

/-- A finite box with its corners in order, or the box of no point. -/
structure Proper (b : Bounds α) : Prop where
  /-- Both corners are finite. -/
  finite : b.IsFinite
  /-- They are in order, or at the wrong ends of the finite range. -/
  valid_or_empty : b.Valid ∨ b = empty

/-- The box contains all that the other one contains. -/
def Encloses (b a : Bounds α) : Prop := ∀ p, a.contains p = true → b.contains p = true

variable {a b c : Bounds α} {p dir : Vec3 α}

/-! ## §B Boxes within boxes -/

theorem contains_iff_holds : b.contains p = true ↔ b.Holds p := by
  simp only [contains, Vec3.allLe, Bool.and_eq_true, decide_eq_true_eq]
  constructor
  · rintro ⟨⟨⟨hx, hy⟩, hz⟩, ⟨gx, gy⟩, gz⟩
    refine ⟨fun axis => ?_, fun axis => ?_⟩
    · cases axis
      exacts [hx, hy, hz]
    · cases axis
      exacts [gx, gy, gz]
  · intro h
    exact ⟨⟨⟨h.mins .x, h.mins .y⟩, h.mins .z⟩, ⟨h.maxs .x, h.maxs .y⟩, h.maxs .z⟩

/-- Two boxes within each other are the same in value. -/
theorem same_iff_within : a.same b = true ↔ a.Within b ∧ b.Within a := by
  simp only [same, Bool.and_eq_true, Vec3.same_iff, Scalar.same_iff]
  constructor
  · rintro ⟨hmins, hmaxs⟩
    exact ⟨⟨fun axis => (hmins axis).2, fun axis => (hmaxs axis).1⟩,
      ⟨fun axis => (hmins axis).1, fun axis => (hmaxs axis).2⟩⟩
  · rintro ⟨h, g⟩
    exact ⟨fun axis => ⟨g.mins axis, h.mins axis⟩, fun axis => ⟨h.maxs axis, g.maxs axis⟩⟩

theorem same_symm (h : a.same b = true) : b.same a = true := same_iff_within.mpr (same_iff_within.mp h).symm

theorem Defined.within_self (h : b.Defined) : b.Within b := ⟨h.mins, h.maxs⟩

/-- Boxes that lie within the same ones are the same in value. -/
theorem same_of_within_iff (ha : a.Defined) (hb : b.Defined) (h : ∀ c, a.Within c ↔ b.Within c) :
    a.same b = true :=
  same_iff_within.mpr ⟨(h b).mpr hb.within_self, (h a).mp ha.within_self⟩

section Ordered

variable [Scalar.Ordered α]

theorem same_trans (h : a.same b = true) (g : b.same c = true) : a.same c = true := by
  obtain ⟨hab, hba⟩ := same_iff_within.mp h
  obtain ⟨hbc, hcb⟩ := same_iff_within.mp g
  exact same_iff_within.mpr ⟨hab.trans hbc, hcb.trans hba⟩

theorem Holds.mono (h : a.Holds p) (hwithin : a.Within b) : b.Holds p :=
  ⟨fun axis => Scalar.Ordered.le_trans (hwithin.mins axis) (h.mins axis),
    fun axis => Scalar.Ordered.le_trans (h.maxs axis) (hwithin.maxs axis)⟩

theorem Within.encloses (h : a.Within b) : b.Encloses a := fun _ hp =>
  contains_iff_holds.mpr ((contains_iff_holds.mp hp).mono h)

/-- A box with its corners in order holds them. -/
theorem Valid.holds (h : b.Valid) : b.Holds b.mins ∧ b.Holds b.maxs :=
  ⟨⟨fun axis => Scalar.Ordered.defined_left (h axis), h⟩,
    ⟨h, fun axis => Scalar.Ordered.defined_right (h axis)⟩⟩

/-- A box with its corners in order lies within what holds both. -/
theorem Valid.within_iff_holds (h : b.Valid) : b.Within c ↔ c.Holds b.mins ∧ c.Holds b.maxs :=
  ⟨fun hwithin => ⟨h.holds.1.mono hwithin, h.holds.2.mono hwithin⟩,
    fun ⟨hmins, hmaxs⟩ => ⟨hmins.mins, hmaxs.maxs⟩⟩

/-- A box with its corners in order lies within what contains its points. -/
theorem Valid.within_of_encloses (h : b.Valid) (hc : c.Encloses b) : b.Within c :=
  h.within_iff_holds.mpr ⟨contains_iff_holds.mp (hc _ (contains_iff_holds.mpr h.holds.1)),
    contains_iff_holds.mp (hc _ (contains_iff_holds.mpr h.holds.2))⟩

end Ordered

/-! ## §C The least box around two others -/

section FiniteEnds

variable [Scalar.FiniteEnds α]

/-- The box grown by a point is the least one that holds the point and that the box lies within. -/
theorem IsFinite.insert_within_iff (hb : b.IsFinite) (hp : p.IsFinite) :
    (b.insert p).Within c ↔ b.Within c ∧ c.Holds p := by
  refine ⟨fun h => ⟨(hb.within_insert p).trans h, (hb.holds_insert hp).mono h⟩, ?_⟩
  rintro ⟨hwithin, hholds⟩
  refine ⟨fun axis => ?_, fun axis => ?_⟩
  · show c.mins.coord axis ≤ (lower b.mins p).coord axis
    rw [coord_lower]
    split
    · exact hholds.mins axis
    · exact hwithin.mins axis
  · show (upper b.maxs p).coord axis ≤ c.maxs.coord axis
    rw [coord_upper]
    split
    · exact hholds.maxs axis
    · exact hwithin.maxs axis

/-- The union is the least box that holds both corners of the second one and that the first one lies
within. -/
theorem IsFinite.union_within_iff_holds (ha : a.IsFinite) (hb : b.IsFinite) :
    (a.union b).Within c ↔ a.Within c ∧ c.Holds b.mins ∧ c.Holds b.maxs := by
  unfold Bounds.union
  rw [(ha.insert hb.mins).insert_within_iff hb.maxs, ha.insert_within_iff hb.mins, and_assoc]

theorem Valid.of_same (h : b.Valid) (hsame : c.same b = true) : c.Valid := by
  obtain ⟨hcb, hbc⟩ := same_iff_within.mp hsame
  intro axis
  exact Scalar.Ordered.le_trans (hbc.mins axis) (Scalar.Ordered.le_trans (h axis) (hbc.maxs axis))

/-- With the corners of the second box in order it is the least box that both lie within. -/
theorem Valid.union_within_iff (h : b.Valid) (ha : a.IsFinite) (hb : b.IsFinite) :
    (a.union b).Within c ↔ a.Within c ∧ b.Within c := by
  rw [ha.union_within_iff_holds hb, h.within_iff_holds]

/-- Corners that are in order for both boxes stay so. -/
theorem Valid.union (h : a.Valid) (ha : a.IsFinite) (hb : b.IsFinite) : (a.union b).Valid := by
  obtain ⟨-, hleft, -⟩ := ha.union hb
  intro axis
  exact Scalar.Ordered.le_trans (hleft.mins axis)
    (Scalar.Ordered.le_trans (h axis) (hleft.maxs axis))

theorem Valid.union_comm (ha : a.IsFinite) (hb : b.IsFinite) (va : a.Valid) (vb : b.Valid) :
    (a.union b).same (b.union a) = true :=
  same_of_within_iff (ha.union hb).1.defined (hb.union ha).1.defined fun c => by
    rw [vb.union_within_iff ha hb, va.union_within_iff hb ha, and_comm]

/-- Boxes that are the same in value have the same unions with another one. -/
theorem Valid.union_same_right (h : b.Valid) (ha : a.IsFinite) (hb : b.IsFinite) (hc : c.IsFinite)
    (hsame : c.same b = true) : (a.union c).same (a.union b) = true := by
  obtain ⟨hcb, hbc⟩ := same_iff_within.mp hsame
  refine same_of_within_iff (ha.union hc).1.defined (ha.union hb).1.defined fun d => ?_
  rw [(h.of_same hsame).union_within_iff ha hc, h.union_within_iff ha hb]
  exact and_congr_right fun _ => ⟨hbc.trans, hcb.trans⟩

/-- The last two boxes decide whether a union may be regrouped, and the first one does not. -/
theorem Valid.union_assoc (ha : a.IsFinite) (hb : b.IsFinite) (hc : c.IsFinite) (vb : b.Valid)
    (vc : c.Valid) : ((a.union b).union c).same (a.union (b.union c)) = true :=
  same_of_within_iff ((ha.union hb).1.union hc).1.defined (ha.union (hb.union hc).1).1.defined fun d => by
    rw [vc.union_within_iff (ha.union hb).1 hc, vb.union_within_iff ha hb,
      (vb.union hb hc).union_within_iff ha (hb.union hc).1, vc.union_within_iff hb hc, and_assoc]

theorem Valid.union_self (ha : a.IsFinite) (va : a.Valid) : (a.union a).same a = true :=
  same_of_within_iff (ha.union ha).1.defined ha.defined fun c => by
    rw [va.union_within_iff ha ha, and_self]

/-- The union of a list of boxes lies within what the first box and all those of the list lie within. -/
theorem foldl_union_within_iff {l : List (Bounds α)} (hl : ∀ x ∈ l, x.IsFinite ∧ x.Valid)
    (hb : b.IsFinite) : (l.foldl union b).Within c ↔ b.Within c ∧ ∀ x ∈ l, x.Within c := by
  induction l generalizing b with
  | nil => simp only [List.foldl_nil, List.not_mem_nil, false_implies, implies_true, and_true]
  | cons x l ih =>
    obtain ⟨hx, vx⟩ := hl x List.mem_cons_self
    rw [List.foldl_cons, ih (fun y hy => hl y (List.mem_cons_of_mem x hy)) (hb.union hx).1,
      vx.union_within_iff hb hx, List.forall_mem_cons, and_assoc]

/-- **The union of many boxes depends only on which boxes occur**, and neither on their order nor on how
often. -/
theorem foldl_union_same {l l' : List (Bounds α)} (hl : ∀ x ∈ l, x.IsFinite ∧ x.Valid)
    (hmem : ∀ x, x ∈ l ↔ x ∈ l') : (l.foldl union empty).same (l'.foldl union empty) = true := by
  have hl' : ∀ x ∈ l', x.IsFinite ∧ x.Valid := fun x hx => hl x ((hmem x).mpr hx)
  have hfinite (m : List (Bounds α)) (hm : ∀ x ∈ m, x.IsFinite ∧ x.Valid) :
      (m.foldl union empty).IsFinite := by
    have hboxes : ∀ x ∈ m, (id x).IsFinite := fun x hx => (hm x hx).1
    exact (isFinite_empty.foldl_union hboxes).1
  refine same_of_within_iff (hfinite l hl).defined (hfinite l' hl').defined fun c => ?_
  rw [foldl_union_within_iff hl isFinite_empty, foldl_union_within_iff hl' isFinite_empty]
  simp only [hmem]

end FiniteEnds

/-! ## §D The box of no point -/

section ProperRange

variable [Scalar.ProperRange α]

theorem whole_valid : (whole : Bounds α).Valid := fun axis => by
  have hle := (Scalar.Ordered.lt_iff.mp (Scalar.ProperRange.neg_maxFinite_lt (α := α))).1
  cases axis <;> exact hle

theorem IsFinite.within_whole (h : b.IsFinite) : b.Within whole := by
  refine ⟨fun axis => ?_, fun axis => ?_⟩
  · have hle := Scalar.FiniteRange.neg_maxFinite_le (h.mins axis)
    cases axis <;> exact hle
  · have hle := Scalar.FiniteRange.le_maxFinite (h.maxs axis)
    cases axis <;> exact hle

theorem IsFinite.empty_within (h : b.IsFinite) : empty.Within b := by
  refine ⟨fun axis => ?_, fun axis => ?_⟩
  · have hle := Scalar.FiniteRange.le_maxFinite (h.mins axis)
    cases axis <;> exact hle
  · have hle := Scalar.FiniteRange.neg_maxFinite_le (h.maxs axis)
    cases axis <;> exact hle

theorem maxFinite_not_le : ¬ (Scalar.maxFinite : α) ≤ -Scalar.maxFinite :=
  (Scalar.Ordered.lt_iff.mp Scalar.ProperRange.neg_maxFinite_lt).2

theorem empty_not_valid : ¬ (empty : Bounds α).Valid := fun h => maxFinite_not_le (h .x)

theorem whole_not_within_empty : ¬ (whole : Bounds α).Within empty := fun h => maxFinite_not_le (h.mins .x)

theorem encloses_empty (b : Bounds α) : b.Encloses empty := by
  intro p hp
  have hholds := contains_iff_holds.mp hp
  exact absurd (Scalar.Ordered.le_trans (hholds.mins .x) (hholds.maxs .x)) maxFinite_not_le

/-- The only finite box that the box of all finite points lies within is that box. -/
theorem IsFinite.same_whole_iff (h : b.IsFinite) : b.same whole = true ↔ whole.Within b := by
  rw [same_iff_within, and_iff_right h.within_whole]

theorem not_empty_same_whole : ¬ (empty : Bounds α).same whole = true := fun h =>
  whole_not_within_empty ((isFinite_empty.same_whole_iff).mp h)

/-- On the left of a union the box of no point changes nothing. -/
theorem Valid.empty_union_same (h : b.Valid) (hb : b.IsFinite) : (empty.union b).same b = true := by
  refine same_of_within_iff (isFinite_empty.union hb).1.defined hb.defined fun c => ?_
  rw [h.union_within_iff isFinite_empty hb]
  exact and_iff_right_of_imp hb.empty_within.trans

/-- **On the right of a union the box of no point makes it the box of all finite points.** -/
theorem IsFinite.union_empty_same (h : b.IsFinite) : (b.union empty).same whole = true := by
  rw [(h.union isFinite_empty).1.same_whole_iff, whole_valid.within_iff_holds]
  obtain ⟨-, hmins, hmaxs⟩ := (h.union_within_iff_holds isFinite_empty).mp
    (h.union isFinite_empty).1.defined.within_self
  exact ⟨hmaxs, hmins⟩

/-! ## §E Which of the laws of a join hold -/

theorem Proper.union_comm_iff (ha : a.Proper) (hb : b.Proper) :
    (a.union b).same (b.union a) = true ↔
      (a.Valid ↔ b.Valid) ∨ a.same whole = true ∨ b.same whole = true := by
  rcases ha.valid_or_empty with va | rfl
  · rcases hb.valid_or_empty with vb | rfl
    · exact iff_of_true (Valid.union_comm ha.finite hb.finite va vb) (.inl (iff_of_true va vb))
    · -- the union is everything in one order, and the first box in the other
      have hright := ha.finite.union_empty_same
      have hleft := va.empty_union_same ha.finite
      constructor
      · exact fun h => .inr (.inl (same_trans (same_symm hleft) (same_trans (same_symm h) hright)))
      · rintro (h | h | h)
        · exact absurd (h.mp va) empty_not_valid
        · exact same_trans hright (same_symm (same_trans hleft h))
        · exact absurd h not_empty_same_whole
  · rcases hb.valid_or_empty with vb | rfl
    · have hright := hb.finite.union_empty_same
      have hleft := vb.empty_union_same hb.finite
      constructor
      · exact fun h => .inr (.inr (same_trans (same_symm hleft) (same_trans h hright)))
      · rintro (h | h | h)
        · exact absurd (h.mpr vb) empty_not_valid
        · exact absurd h not_empty_same_whole
        · exact same_trans hleft (same_trans h (same_symm hright))
    · exact iff_of_true (same_iff_within.mpr (and_self_iff.mpr
        (isFinite_empty.union isFinite_empty).1.defined.within_self)) (.inl Iff.rfl)

theorem Proper.union_assoc_iff (ha : a.Proper) (hb : b.Proper) (hc : c.Proper) :
    ((a.union b).union c).same (a.union (b.union c)) = true ↔
      b.Valid ∨ (a.union c).same whole = true := by
  have hab := (ha.finite.union hb.finite).1
  have hbc := (hb.finite.union hc.finite).1
  rcases hc.valid_or_empty with vc | rfl
  · rcases hb.valid_or_empty with vb | rfl
    · exact iff_of_true (Valid.union_assoc ha.finite hb.finite hc.finite vb vc) (.inl vb)
    · -- the left side is everything, and the right side the union of the other two boxes
      rw [or_iff_right empty_not_valid]
      have hleft : ((a.union empty).union c).same whole = true :=
        (hab.union hc.finite).1.same_whole_iff.mpr
          ((same_iff_within.mp ha.finite.union_empty_same).2.trans (hab.union hc.finite).2.1)
      have hright : (a.union (empty.union c)).same (a.union c) = true :=
        vc.union_same_right ha.finite hc.finite hbc (vc.empty_union_same hc.finite)
      exact ⟨fun h => same_trans (same_symm hright) (same_trans (same_symm h) hleft),
        fun h => same_trans hleft (same_symm (same_trans hright h))⟩
  · -- both sides are everything
    have hright : (a.union (b.union empty)).same whole = true :=
      (ha.finite.union hbc).1.same_whole_iff.mpr
        ((same_iff_within.mp hb.finite.union_empty_same).2.trans (ha.finite.union hbc).2.2)
    exact iff_of_true (same_trans hab.union_empty_same (same_symm hright)) (.inr ha.finite.union_empty_same)

theorem Proper.union_self_iff (ha : a.Proper) : (a.union a).same a = true ↔ a.Valid := by
  rcases ha.valid_or_empty with va | rfl
  · exact iff_of_true (va.union_self ha.finite) va
  · exact iff_of_false (fun h => not_empty_same_whole
      (same_trans (same_symm h) isFinite_empty.union_empty_same)) empty_not_valid

theorem Proper.empty_union_same_iff (ha : a.Proper) : (empty.union a).same a = true ↔ a.Valid := by
  rcases ha.valid_or_empty with va | rfl
  · exact iff_of_true (va.empty_union_same ha.finite) va
  · exact iff_of_false (fun h => not_empty_same_whole
      (same_trans (same_symm h) isFinite_empty.union_empty_same)) empty_not_valid

theorem IsFinite.union_empty_same_iff (ha : a.IsFinite) :
    (a.union empty).same a = true ↔ a.same whole = true :=
  ⟨fun h => same_trans (same_symm h) ha.union_empty_same,
    fun h => same_trans ha.union_empty_same (same_symm h)⟩

/-- The union contains just what every box around both contains, if the corners of the second box are in
order, or if the first box is everything. -/
theorem Proper.contains_union_iff (ha : a.Proper) (hb : b.Proper) :
    (∀ p, (a.union b).contains p = true ↔
      ∀ box : Bounds α, box.Encloses a → box.Encloses b → box.contains p = true) ↔
      b.Valid ∨ a.same whole = true := by
  obtain ⟨hfinite, hleft, hright⟩ := ha.finite.union hb.finite
  constructor
  · intro h
    rcases hb.valid_or_empty with vb | rfl
    · exact .inl vb
    · -- the first box is around both, so it holds the two ends of the finite range
      have hwhole := (hfinite.same_whole_iff).mp ha.finite.union_empty_same
      refine .inr (ha.finite.same_whole_iff.mpr (whole_valid.within_of_encloses fun p hp => ?_))
      exact (h p).mp (hwhole.encloses p hp) a (fun _ => id) (encloses_empty a)
  · intro h p
    refine ⟨fun hp box hboxa hboxb => ?_, fun hbox => hbox _ hleft.encloses hright.encloses⟩
    rcases hb.valid_or_empty with vb | rfl
    · have hwithin := vb.within_of_encloses hboxb
      refine Within.encloses ?_ p hp
      rcases ha.valid_or_empty with va | rfl
      · exact (vb.union_within_iff ha.finite hb.finite).mpr ⟨va.within_of_encloses hboxa, hwithin⟩
      · exact (same_iff_within.mp (vb.empty_union_same hb.finite)).1.trans hwithin
    · have hwhole := h.resolve_left empty_not_valid
      exact hboxa p (((same_iff_within.mp (same_trans ha.finite.union_empty_same (same_symm hwhole))).1).encloses
        p hp)

end ProperRange

/-! ## §F Boxes that are dragged along -/

theorem coord_mins_extendDirection (a : Bounds α) (dir : Vec3 α) (axis : Axis) :
    (a.extendDirection dir).mins.coord axis = a.mins.coord axis + Scalar.minNum (dir.coord axis) 0 := by
  cases axis <;> rfl

theorem coord_maxs_extendDirection (a : Bounds α) (dir : Vec3 α) (axis : Axis) :
    (a.extendDirection dir).maxs.coord axis = a.maxs.coord axis + Scalar.maxNum (dir.coord axis) 0 := by
  cases axis <;> rfl

section SumOrdered

variable [Scalar.SumOrdered α]

/-- Extending a box, where the result is defined, gives the union of the box with itself moved. The box may
reach to infinity, and the direction may be undefined on some axes. -/
theorem Valid.extendDirection_same_union (h : a.Valid) (hdefined : (a.extendDirection dir).Defined) :
    (a.extendDirection dir).same (a.union (a.translate dir)) = true := by
  simp only [same, Bool.and_eq_true, Vec3.same_iff]
  constructor
  · intro axis
    have hlow := hdefined.mins axis
    rw [coord_mins_extendDirection] at hlow ⊢
    have hdrag := Scalar.drag_low (h axis) hlow
    cases axis <;> exact hdrag
  · intro axis
    have hhigh := hdefined.maxs axis
    rw [coord_maxs_extendDirection] at hhigh ⊢
    have hdrag := Scalar.drag_high (h axis) hhigh
    cases axis <;> exact hdrag

/-- A finite box can be extended in any direction. -/
theorem IsFinite.extendDirection_defined (h : a.IsFinite) (dir : Vec3 α) : (a.extendDirection dir).Defined := by
  have hzero : (0 : α) ≤ 0 := Scalar.zero_le_zero
  refine ⟨fun axis => ?_, fun axis => ?_⟩
  · rw [coord_mins_extendDirection]
    exact Scalar.SumOrdered.defined_add_of_isFinite (h.mins axis) (Scalar.minNum_defined hzero)
  · rw [coord_maxs_extendDirection]
    exact Scalar.SumOrdered.defined_add_of_isFinite (h.maxs axis)
      (Scalar.Ordered.defined_right (Scalar.le_maxNum_right hzero))

end SumOrdered

/-! ## §G All the laws -/

/-- **A union is a join where the corners of its second box are in order.** Of the finite boxes whose corners
are in order and the box of no point, each law of a join holds of just the ones named here: the box of no point
is an identity on the left, not of itself, and on the right only for the box of all finite points. Extending a
box with its corners in order in any direction gives its union with itself moved. -/
theorem union_join_iff [Scalar.ProperRange α] [Scalar.SumOrdered α] (ha : a.Proper) (hb : b.Proper)
    (hc : c.Proper) :
    ((a.union b).same (b.union a) = true ↔
      (a.Valid ↔ b.Valid) ∨ a.same whole = true ∨ b.same whole = true) ∧
    (((a.union b).union c).same (a.union (b.union c)) = true ↔
      b.Valid ∨ (a.union c).same whole = true) ∧
    ((a.union a).same a = true ↔ a.Valid) ∧
    ((empty.union a).same a = true ↔ a.Valid) ∧
    ((a.union empty).same a = true ↔ a.same whole = true) ∧
    ((∀ p, (a.union b).contains p = true ↔
      ∀ box : Bounds α, box.Encloses a → box.Encloses b → box.contains p = true) ↔
      b.Valid ∨ a.same whole = true) ∧
    (a.Valid → ∀ dir, (a.extendDirection dir).same (a.union (a.translate dir)) = true) :=
  ⟨ha.union_comm_iff hb, ha.union_assoc_iff hb hc, ha.union_self_iff, ha.empty_union_same_iff,
    ha.finite.union_empty_same_iff, ha.contains_union_iff hb,
    fun va dir => va.extendDirection_same_union (ha.finite.extendDirection_defined dir)⟩

/-- The box from the origin to one on each axis. -/
def unitBox : Bounds Float32 := ⟨Vec3.zero, Vec3.splat 1⟩

/-- A box beyond it. -/
def farBox : Bounds Float32 := ⟨Vec3.splat 2, ⟨3, 4, 5⟩⟩

theorem unitBox_valid : unitBox.Valid := fun axis => by cases axis <;> decide +kernel

theorem farBox_valid : farBox.Valid := fun axis => by cases axis <;> decide +kernel

theorem unitBox_proper : unitBox.Proper where
  finite := ⟨fun axis => by cases axis <;> decide +kernel, fun axis => by cases axis <;> decide +kernel⟩
  valid_or_empty := .inl unitBox_valid

theorem farBox_proper : farBox.Proper where
  finite := ⟨fun axis => by cases axis <;> decide +kernel, fun axis => by cases axis <;> decide +kernel⟩
  valid_or_empty := .inl farBox_valid

theorem empty_proper : (empty : Bounds Float32).Proper := ⟨isFinite_empty, .inr rfl⟩

/-- With the box of no point between two others a union can be neither turned round nor regrouped. With the two
boxes alone it can, and it contains what both lie within. -/
theorem unitBox_unions : unitBox.Proper ∧ farBox.Proper ∧ (empty : Bounds Float32).Proper ∧
    ¬ (unitBox.union empty).same (empty.union unitBox) = true ∧
    ¬ ((unitBox.union empty).union farBox).same (unitBox.union (empty.union farBox)) = true ∧
    (unitBox.union farBox).same (farBox.union unitBox) = true ∧
    (empty.union unitBox).same unitBox = true ∧
    (∀ dir, (unitBox.extendDirection dir).same (unitBox.union (unitBox.translate dir)) = true) := by
  have hunit : ¬ unitBox.same whole = true := by decide +kernel
  have hjoined : ¬ (unitBox.union farBox).same whole = true := by decide +kernel
  obtain ⟨hcomm, hassoc, -, hleft, -, -, hextend⟩ := union_join_iff unitBox_proper empty_proper farBox_proper
  obtain ⟨hboth, -⟩ := union_join_iff unitBox_proper farBox_proper unitBox_proper
  refine ⟨unitBox_proper, farBox_proper, empty_proper, fun h => ?_, fun h => ?_, ?_, ?_, ?_⟩
  · rcases hcomm.mp h with h | h | h
    · exact empty_not_valid (h.mp unitBox_valid)
    · exact hunit h
    · exact not_empty_same_whole h
  · rcases hassoc.mp h with h | h
    · exact empty_not_valid h
    · exact hjoined h
  · exact hboth.mpr (.inl (iff_of_true unitBox_valid farBox_valid))
  · exact hleft.mpr unitBox_valid
  · exact hextend unitBox_valid

/-- The union of the unit box and the box of no point, in this order, is everything. -/
theorem unitBox_union_empty : unitBox.union empty = whole ∧ (unitBox.union empty).same unitBox = false := by
  decide +kernel

end Bounds

end ConvexCollision
