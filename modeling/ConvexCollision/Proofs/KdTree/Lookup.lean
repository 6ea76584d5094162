import Mathlib.Data.List.Nodup
import ConvexCollision.Proofs.Bounds
import ConvexCollision.Proofs.Grid
import ConvexCollision.Proofs.KdTree.Build

/-!
# ConvexCollision.Proofs.KdTree.Lookup -- a look-up enters every side that it has to

What a branch records of a side is a cell that lies outward of all its triangles. A query that reaches
such a triangle, put on the grid with its own cells rounded outward, therefore enters the side.
-/

namespace ConvexCollision.KdTree

variable {α : Type} [Scalar α] [Grid.Lawful α]

/-! ## §A The ends of a side -/

omit [Scalar α] [Grid.Lawful α] in
/-- What a fold takes of some numbers lies beyond all of them and beyond what it started from, when
one step of it lies beyond both of its numbers. -/
theorem beyond_foldl {β : Type} {R : α → α → Prop} (htrans : ∀ a b c, R a b → R b c → R a c)
    (hright : ∀ a b, R a b → R b b) {op : α → α → α}
    (hop : ∀ a b, R a a → R b b → R a (op a b) ∧ R b (op a b)) {f : β → α} {l : List β}
    (hl : ∀ x ∈ l, R (f x) (f x)) {m : α} (hm : R m m) :
    R m (l.foldl (fun m x => op m (f x)) m) ∧ ∀ x ∈ l, R (f x) (l.foldl (fun m x => op m (f x)) m) := by
  induction l generalizing m with
  | nil => exact ⟨hm, fun x hx => absurd hx List.not_mem_nil⟩
  | cons x l ih =>
    obtain ⟨hleft, hnext⟩ := hop m (f x) hm (hl x List.mem_cons_self)
    obtain ⟨hbound, hall⟩ := ih (fun y hy => hl y (List.mem_cons_of_mem x hy))
      (hright _ _ hleft)
    refine ⟨htrans _ _ _ hleft hbound, ?_⟩
    intro y hy
    rcases List.mem_cons.mp hy with rfl | hy
    · exact htrans _ _ _ hnext hbound
    · exact hall y hy

theorem le_farEnd (axis : Axis) {side : List (Item α)} (h : ∀ t ∈ side, t.bounds.IsFinite)
    {t : Item α} (ht : t ∈ side) : t.bounds.maxs.coord axis ≤ farEnd axis side :=
  (beyond_foldl (R := fun a b : α => a ≤ b) (fun _ _ _ => Scalar.Ordered.le_trans)
    (fun _ _ => Scalar.Ordered.defined_right)
    (fun _ _ ha hb => ⟨Scalar.le_maxNum_left ha hb, Scalar.le_maxNum_right hb⟩)
    (fun t ht => (h t ht).defined.maxs axis)
    (Scalar.FiniteEnds.defined Scalar.FiniteEnds.isFinite_neg_maxFinite)).2 t ht

theorem nearEnd_le (axis : Axis) {side : List (Item α)} (h : ∀ t ∈ side, t.bounds.IsFinite)
    {t : Item α} (ht : t ∈ side) : nearEnd axis side ≤ t.bounds.mins.coord axis :=
  (beyond_foldl (R := fun a b : α => b ≤ a) (fun _ _ _ hab hbc => Scalar.Ordered.le_trans hbc hab)
    (fun _ _ => Scalar.Ordered.defined_left)
    (fun _ _ ha hb => ⟨Scalar.minNum_le_left ha hb, Scalar.minNum_le_right ha hb⟩)
    (fun t ht => (h t ht).defined.mins axis)
    (Scalar.FiniteEnds.defined Scalar.FiniteEnds.isFinite_maxFinite)).2 t ht

/-! ## §B Outward cells -/

/-- A branch records cells outward of the triangles on its sides: a number that does not lie beyond a
triangle on the first side is on a cell up to `aMax`, and one that does not lie before a triangle on
the second side is on a cell from `bMin` on. -/
def Outward (grid : Grid α) (items : List (Item α)) : Divides := fun axis aMax bMin as bs =>
  ∀ t ∈ items,
    (t.index ∈ as → ∀ v, v ≤ t.bounds.maxs.coord axis → grid.cellFloor axis v ≤ aMax) ∧
    (t.index ∈ bs → ∀ v, t.bounds.mins.coord axis ≤ v → bMin ≤ grid.cellCeil axis v)

/-- Among items with different numbers, one whose number is on a side is on that side. -/
theorem mem_side {α : Type} {items side : List (Item α)} (hnumbered : (items.map (·.index)).Nodup)
    (hside : side ⊆ items) {numbers : List Nat} (hperm : numbers.Perm (side.map (·.index)))
    {t : Item α} (ht : t ∈ items) (h : t.index ∈ numbers) : t ∈ side := by
  obtain ⟨u, hu, heq⟩ := List.mem_map.mp (hperm.mem_iff.mp h)
  rwa [← List.inj_on_of_nodup_map hnumbered (hside hu) ht heq]

/-- The build records outward cells when its triangles are finite. -/
theorem records_outward {grid : Grid α} (hgrid : grid.Usable) {items : List (Item α)}
    (hnumbered : (items.map (·.index)).Nodup) (hfinite : ∀ t ∈ items, t.bounds.IsFinite) :
    Records grid (Outward grid items) items := by
  intro axis aSide bSide as bs hA hB hpermA hpermB t ht
  refine ⟨?_, ?_⟩
  · intro hmem v hv
    have hside := mem_side hnumbered hA hpermA ht hmem
    have hend := le_farEnd axis (fun t ht => hfinite t (hA ht)) hside
    exact hgrid.cellFloor_le_cellCeil (Scalar.Ordered.le_trans hv hend)
  · intro hmem v hv
    have hside := mem_side hnumbered hB hpermB ht hmem
    have hend := nearEnd_le axis (fun t ht => hfinite t (hB ht)) hside
    exact hgrid.cellFloor_le_cellCeil (Scalar.Ordered.le_trans hend hv)

/-- The walk of a look-up meets the place of every triangle whose box meets the query's. -/
theorem Spans.mem_lookup {nodes : Array KdNode} {grid : Grid α} {items : List (Item α)}
    {levels node stop start : Nat} {slots : List Nat}
    (h : Spans nodes (Outward grid items) levels node stop start slots)
    (hfinite : ∀ t ∈ items, t.bounds.IsFinite) {box : Bounds α} (hbox : box.Defined) {k : Nat}
    {t : Item α} (ht : t ∈ items) (hk : slots[k]? = some t.index)
    (hmeets : t.bounds.intersects box = true) :
    start + k ∈ (trace nodes
      (fun axis aMax => grid.cellFloor axis (box.mins.coord axis) ≤ aMax)
      (fun axis bMin => bMin ≤ grid.cellCeil axis (box.maxs.coord axis)) levels node).met := by
  refine h.mem_trace_met (fun i => i = t.index) ?_ ?_ hk rfl
  · intro axis aMax bMin as bs hdivides i hi heq
    rw [decide_eq_true_eq]
    refine (hdivides t ht).1 (heq ▸ hi) _ ?_
    rw [Bounds.intersects_comm] at hmeets
    exact Bounds.mins_le_maxs_of_intersects hbox (hfinite t ht).defined hmeets axis
  · intro axis aMax bMin as bs hdivides i hi heq
    rw [decide_eq_true_eq]
    exact (hdivides t ht).2 (heq ▸ hi) _
      (Bounds.mins_le_maxs_of_intersects (hfinite t ht).defined hbox hmeets axis)

omit [Grid.Lawful α] in
/-- The walk of a cast meets the place of every triangle whose box reaches from below the point to
straight above or below it. -/
theorem Spans.mem_cast {nodes : Array KdNode} {grid : Grid α} {items : List (Item α)}
    {levels node stop start : Nat} {slots : List Nat}
    (h : Spans nodes (Outward grid items) levels node stop start slots) {point : Vec3 α} {k : Nat}
    {t : Item α} (ht : t ∈ items) (hk : slots[k]? = some t.index)
    (hstarts : ∀ axis, t.bounds.mins.coord axis ≤ point.coord axis)
    (hends : ∀ axis, axis ≠ .y → point.coord axis ≤ t.bounds.maxs.coord axis) :
    start + k ∈ (trace nodes
      (fun axis aMax => axis == .y || grid.cellFloor axis (point.coord axis) ≤ aMax)
      (fun axis bMin => bMin ≤ grid.cellCeil axis (point.coord axis)) levels node).met := by
  refine h.mem_trace_met (fun i => i = t.index) ?_ ?_ hk rfl
  · intro axis aMax bMin as bs hdivides i hi heq
    rw [Bool.or_eq_true, decide_eq_true_eq]
    by_cases hy : axis = .y
    · -- the lower side is entered however high the point is
      exact Or.inl (beq_iff_eq.mpr hy)
    · exact Or.inr ((hdivides t ht).1 (heq ▸ hi) _ (hends axis hy))
  · intro axis aMax bMin as bs hdivides i hi heq
    rw [decide_eq_true_eq]
    exact (hdivides t ht).2 (heq ▸ hi) _ (hstarts axis)

end ConvexCollision.KdTree
