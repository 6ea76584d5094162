import Mathlib.Data.List.Nodup
import ConvexCollision.Proofs.Bounds
import ConvexCollision.Proofs.Except
import ConvexCollision.Proofs.Removal
import ConvexCollision.Proofs.Single.Laws

/-!
# ConvexCollision.Proofs.BroadPhase -- the sweep finds every pair of boxes that meet, once

The argument follows the sweep edge by edge. Two invariants relate what the sweep holds to the edges
that it has passed.

* `Swept` needs no law of the numbers: every open box has started, every pair names two boxes that
  started and meet, and no two pairs name the same boxes. It rests on each box starting once.
* `Complete` needs the grid to keep the order: a box that started and did not end is open, and every
  two boxes that started and meet are on record. Boxes that meet start before the other one ends, and
  a start comes before an end on the same cell, so a box that meets the one that starts is still open.
  That holds of a box that ends before it starts as well: its end finds nothing to close.
-/

namespace ConvexCollision.BroadPhase

variable {α : Type} [Scalar α]

/-! ## §A The order of the sweep -/

/-- The start of a box. -/
def startOf (box : Bounds α) (index : Nat) : Edge :=
  ⟨Scalar.toInt32 (Scalar.floor (box.mins.x * cellsPerUnit)), false, index⟩

/-- The end of a box. -/
def endOf (box : Bounds α) (index : Nat) : Edge :=
  ⟨Scalar.toInt32 (Scalar.ceil (box.maxs.x * cellsPerUnit)), true, index⟩

theorem mem_edgesOf {box : Bounds α} {index : Nat} {e : Edge} :
    e ∈ edgesOf box index ↔ e = startOf box index ∨ e = endOf box index := List.mem_pair

theorem Edge.le_iff {e f : Edge} :
    e.le f = true ↔ e.x < f.x ∨ (e.x = f.x ∧ (e.isEnd = true → f.isEnd = true)) := by
  unfold Edge.le
  cases e.isEnd <;> cases f.isEnd <;> simp

theorem Edge.le_trans (e f g : Edge) (hef : e.le f = true) (hfg : f.le g = true) :
    e.le g = true := by
  rw [Edge.le_iff] at *
  rcases hef with hef | ⟨hef, hef'⟩ <;> rcases hfg with hfg | ⟨hfg, hfg'⟩
  · exact Or.inl (Int32.lt_trans hef hfg)
  · exact Or.inl (hfg ▸ hef)
  · exact Or.inl (hef ▸ hfg)
  · exact Or.inr ⟨hef.trans hfg, fun h => hfg' (hef' h)⟩

theorem Edge.le_total (e f : Edge) : (e.le f || f.le e) = true := by
  rw [Bool.or_eq_true, Edge.le_iff, Edge.le_iff]
  by_cases hef : e.x < f.x
  · exact Or.inl (Or.inl hef)
  · by_cases hfe : f.x < e.x
    · exact Or.inr (Or.inl hfe)
    · have heq : e.x = f.x := Int32.le_antisymm (Int32.not_lt.mp hfe) (Int32.not_lt.mp hef)
      cases he : e.isEnd with
      | false => exact Or.inl (Or.inr ⟨heq, fun h => absurd h Bool.false_ne_true⟩)
      | true => exact Or.inr (Or.inr ⟨heq.symm, fun _ => rfl⟩)

/-- The edges of all boxes, box by box. -/
def allEdges (boxes : Array (Bounds α)) : List Edge :=
  boxes.toList.zipIdx.flatMap fun (box, i) => edgesOf box i

theorem sortedEdges_perm (boxes : Array (Bounds α)) :
    (sortedEdges boxes).Perm (allEdges boxes) := List.mergeSort_perm _ _

theorem sortedEdges_sorted (boxes : Array (Bounds α)) :
    (sortedEdges boxes).Pairwise fun e f => e.le f = true :=
  List.pairwise_mergeSort Edge.le_trans Edge.le_total _

theorem mem_sortedEdges {boxes : Array (Bounds α)} {e : Edge} :
    e ∈ sortedEdges boxes ↔
      ∃ box, boxes[e.index]? = some box ∧ (e = startOf box e.index ∨ e = endOf box e.index) := by
  rw [(sortedEdges_perm boxes).mem_iff, allEdges, List.mem_flatMap]
  constructor
  · rintro ⟨⟨box, i⟩, hmem, he⟩
    rw [List.mem_zipIdx_iff_getElem?, Array.getElem?_toList] at hmem
    rcases mem_edgesOf.mp he with rfl | rfl
    · exact ⟨box, hmem, Or.inl rfl⟩
    · exact ⟨box, hmem, Or.inr rfl⟩
  · rintro ⟨box, hbox, he⟩
    refine ⟨(box, e.index), ?_, ?_⟩
    · rw [List.mem_zipIdx_iff_getElem?, Array.getElem?_toList]
      exact hbox
    · exact mem_edgesOf.mpr he

/-- The edges are not the starts of one box. -/
def DistinctStarts (e f : Edge) : Prop :=
  e.isEnd = false → f.isEnd = false → e.index ≠ f.index

theorem DistinctStarts.symm {e f : Edge} (h : DistinctStarts e f) : DistinctStarts f e :=
  fun hf he heq => h he hf heq.symm

/-- Every box starts once. -/
theorem sortedEdges_distinctStarts (boxes : Array (Bounds α)) :
    (sortedEdges boxes).Pairwise DistinctStarts := by
  refine (sortedEdges_perm boxes).symm.pairwise ?_ (fun h => h.symm)
  rw [allEdges, List.pairwise_flatMap]
  refine ⟨?_, ?_⟩
  · rintro ⟨box, i⟩ -
    -- one box: its other edge is an end
    exact List.pairwise_pair.mpr fun _ hend => absurd hend (by simp)
  · rw [List.pairwise_iff_getElem]
    intro i j hi hj hij e he f hf _ _
    simp only [List.getElem_zipIdx, mem_edgesOf] at he hf
    -- two boxes: the edges name their own, and the places of these differ
    have hei : e.index = 0 + i := by rcases he with rfl | rfl <;> rfl
    have hfj : f.index = 0 + j := by rcases hf with rfl | rfl <;> rfl
    omega

/-! ## §B Opening and closing -/

theorem closeBox_perm (active : List Nat) (index : Nat) :
    (closeBox active index).Perm (active.erase index) := by
  have hidx : active.findIdx? (· == index) = active.idxOf? index := rfl
  unfold closeBox
  rw [List.erase_eq_eraseIdx, hidx]
  cases h : active.idxOf? index with
  | none => exact List.Perm.refl _
  | some i =>
    obtain ⟨hi, -, -⟩ := List.findIdx?_eq_some_iff_getElem.mp (hidx.trans h)
    exact swapRemove_perm hi

theorem mem_closeBox_of_ne {active : List Nat} {i j : Nat} (h : i ∈ active) (hij : i ≠ j) :
    i ∈ closeBox active j :=
  (closeBox_perm active j).mem_iff.mpr ((List.mem_erase_of_ne hij).mpr h)

theorem mem_of_mem_closeBox {active : List Nat} {i j : Nat} (h : i ∈ closeBox active j) :
    i ∈ active :=
  List.mem_of_mem_erase ((closeBox_perm active j).mem_iff.mp h)

theorem nodup_closeBox {active : List Nat} (h : active.Nodup) (j : Nat) :
    (closeBox active j).Nodup :=
  (closeBox_perm active j).nodup_iff.mpr (h.erase j)

/-- The box with a number. -/
def boxAt (boxes : Array (Bounds α)) (i : Nat) : Bounds α := boxes.getD i Bounds.empty

/-- The start of a box is among some edges. -/
def Opened (edges : List Edge) (i : Nat) : Prop := ∃ e ∈ edges, e.isEnd = false ∧ e.index = i

/-- The end of a box is among some edges. -/
def Closed (edges : List Edge) (i : Nat) : Prop := ∃ e ∈ edges, e.isEnd = true ∧ e.index = i

theorem Opened.mono {edges more : List Edge} {i : Nat} (h : Opened edges i) :
    Opened (edges ++ more) i := by
  obtain ⟨e, he, hstart⟩ := h
  exact ⟨e, List.mem_append_left more he, hstart⟩

/-- A start opens its own box and no other one. -/
theorem opened_append_start {edges : List Edge} {e : Edge} (he : e.isEnd = false) {i : Nat} :
    Opened (edges ++ [e]) i ↔ Opened edges i ∨ i = e.index := by
  simp only [Opened, List.mem_append, List.mem_singleton, or_and_right, exists_or,
    exists_eq_left, he, true_and, eq_comm (a := i)]

/-- An end opens no box. -/
theorem opened_append_end {edges : List Edge} {e : Edge} (he : e.isEnd = true) {i : Nat} :
    Opened (edges ++ [e]) i ↔ Opened edges i := by
  simp only [Opened, List.mem_append, List.mem_singleton, or_and_right, exists_or,
    exists_eq_left, he, Bool.true_eq_false, false_and, or_false]

theorem step_of_end {boxes : Array (Bounds α)} {state : List Nat × List Pair} {e : Edge}
    (he : e.isEnd = true) : step boxes state e = (closeBox state.1 e.index, state.2) := by
  obtain ⟨active, pairs⟩ := state
  exact if_pos he

/-- The open boxes that meet the one that starts. -/
def meeting (boxes : Array (Bounds α)) (active : List Nat) (j : Nat) : List Nat :=
  active.filter fun i => (boxAt boxes i).intersects (boxAt boxes j)

theorem step_of_start {boxes : Array (Bounds α)} {state : List Nat × List Pair} {e : Edge}
    (he : e.isEnd = false) :
    step boxes state e =
      (state.1 ++ [e.index],
        ((meeting boxes state.1 e.index).map fun i => ⟨i, e.index⟩).reverse ++ state.2) := by
  obtain ⟨active, pairs⟩ := state
  exact if_neg (he ▸ Bool.false_ne_true)

/-! ## §C Every pair found is a pair, found once -/

theorem Pair.same_iff {p q : Pair} :
    p.same q = true ↔ (p.a = q.a ∧ p.b = q.b) ∨ (p.a = q.b ∧ p.b = q.a) := by
  unfold Pair.same
  simp only [Bool.or_eq_true, Bool.and_eq_true, beq_iff_eq]

theorem Pair.same_comm (p q : Pair) : p.same q = q.same p := by
  rw [Bool.eq_iff_iff, Pair.same_iff, Pair.same_iff]
  constructor <;> rintro (⟨ha, hb⟩ | ⟨ha, hb⟩)
  all_goals simp [ha, hb]

theorem Pair.same_swap (p : Pair) (i j : Nat) : p.same ⟨i, j⟩ = p.same ⟨j, i⟩ := by
  rw [Bool.eq_iff_iff, same_iff, same_iff]
  exact or_comm

/-- Two pairs that name the same boxes are the same to any other pair. -/
theorem Pair.same_congr {p q : Pair} (h : p.same q = true) (r : Pair) : r.same p = r.same q := by
  obtain ⟨a, b⟩ := p
  obtain ⟨i, j⟩ := q
  rcases same_iff.mp h with ⟨rfl, rfl⟩ | ⟨rfl, rfl⟩
  · rfl
  · exact r.same_swap a b

/-- What the sweep holds after some edges is right: every open box has started, every pair names two
boxes that started and meet, and no two pairs name the same boxes. -/
structure Swept (boxes : Array (Bounds α)) (edges : List Edge) (state : List Nat × List Pair) :
    Prop where
  active_nodup : state.1.Nodup
  active_opened : ∀ i ∈ state.1, Opened edges i
  pair_opened : ∀ p ∈ state.2, Opened edges p.a ∧ Opened edges p.b
  pair_ne : ∀ p ∈ state.2, p.a ≠ p.b
  pair_meets : ∀ p ∈ state.2, (boxAt boxes p.a).intersects (boxAt boxes p.b) = true
  pairs_distinct : state.2.Pairwise fun p q => p.same q = false

theorem swept_nil (boxes : Array (Bounds α)) : Swept boxes [] ([], []) := by
  refine ⟨List.nodup_nil, ?_, ?_, ?_, ?_, List.Pairwise.nil⟩ <;>
    exact fun _ h => absurd h List.not_mem_nil

/-- An end takes a box away and changes nothing else. -/
theorem Swept.step_end {boxes : Array (Bounds α)} {edges : List Edge}
    {state : List Nat × List Pair} (h : Swept boxes edges state) {e : Edge} (he : e.isEnd = true) :
    Swept boxes (edges ++ [e]) (step boxes state e) := by
  rw [step_of_end he]
  refine ⟨nodup_closeBox h.active_nodup _, ?_, ?_, h.pair_ne, h.pair_meets, h.pairs_distinct⟩
  · intro i hi
    exact (h.active_opened i (mem_of_mem_closeBox hi)).mono
  · intro p hp
    exact ⟨(h.pair_opened p hp).1.mono, (h.pair_opened p hp).2.mono⟩

section Added

variable {boxes : Array (Bounds α)} {active : List Nat} {j : Nat}

/-- The pairs that a start adds. -/
theorem mem_added {p : Pair}
    (hp : p ∈ ((meeting boxes active j).map fun i => (⟨i, j⟩ : Pair)).reverse) :
    p.a ∈ active ∧ p.b = j ∧ (boxAt boxes p.a).intersects (boxAt boxes j) = true := by
  rw [List.mem_reverse, List.mem_map] at hp
  obtain ⟨i, hi, rfl⟩ := hp
  obtain ⟨hactive, hmeets⟩ := List.mem_filter.mp hi
  exact ⟨hactive, rfl, hmeets⟩

/-- Two pairs that a start adds share their second box, so that they do not share the first one. -/
theorem added_distinct (hnodup : active.Nodup) (hnew : ∀ i ∈ active, i ≠ j) :
    (((meeting boxes active j).map fun i => (⟨i, j⟩ : Pair)).reverse).Pairwise
      fun p q => p.same q = false := by
  rw [List.pairwise_reverse, List.pairwise_map]
  refine List.Pairwise.imp_of_mem ?_ (hnodup.filter _)
  intro i k hi hk hik
  rw [← Bool.not_eq_true, Pair.same_iff]
  rintro (⟨hki, -⟩ | ⟨hkj, -⟩)
  · exact hik hki.symm
  · exact hnew k (List.mem_of_mem_filter hk) hkj

end Added

/-- The pairs that a start adds name its box, which no older pair does. -/
theorem Swept.step_start {boxes : Array (Bounds α)} {edges : List Edge}
    {state : List Nat × List Pair} (h : Swept boxes edges state) {e : Edge} (he : e.isEnd = false)
    (fresh : ¬ Opened edges e.index) : Swept boxes (edges ++ [e]) (step boxes state e) := by
  rw [step_of_start he]
  -- the box that starts is not open yet, so that no pair names it
  have hnew : ∀ i ∈ state.1, i ≠ e.index := fun i hi heq => fresh (heq ▸ h.active_opened i hi)
  constructor
  case active_nodup =>
    refine List.nodup_append.mpr ⟨h.active_nodup, List.nodup_singleton _, ?_⟩
    intro i hi j hj
    rw [List.mem_singleton.mp hj]
    exact hnew i hi
  case active_opened =>
    intro i hi
    rw [opened_append_start he]
    rcases List.mem_append.mp hi with hi | hi
    · exact Or.inl (h.active_opened i hi)
    · exact Or.inr (List.mem_singleton.mp hi)
  case pair_opened =>
    intro p hp
    rw [opened_append_start he, opened_append_start he]
    rcases List.mem_append.mp hp with hp | hp
    · obtain ⟨ha, hb, -⟩ := mem_added hp
      exact ⟨Or.inl (h.active_opened _ ha), Or.inr hb⟩
    · exact ⟨Or.inl (h.pair_opened p hp).1, Or.inl (h.pair_opened p hp).2⟩
  case pair_ne =>
    intro p hp
    rcases List.mem_append.mp hp with hp | hp
    · obtain ⟨ha, hb, -⟩ := mem_added hp
      rw [hb]
      exact hnew p.a ha
    · exact h.pair_ne p hp
  case pair_meets =>
    intro p hp
    rcases List.mem_append.mp hp with hp | hp
    · obtain ⟨-, hb, hmeets⟩ := mem_added hp
      rw [hb]
      exact hmeets
    · exact h.pair_meets p hp
  case pairs_distinct =>
    refine List.pairwise_append.mpr ⟨added_distinct h.active_nodup hnew, h.pairs_distinct, ?_⟩
    intro p hp q hq
    obtain ⟨-, hb, -⟩ := mem_added hp
    rw [← Bool.not_eq_true, Pair.same_iff, hb]
    -- an older pair names no box that starts now
    rintro (⟨-, hqb⟩ | ⟨-, hqa⟩)
    · exact fresh (hqb ▸ (h.pair_opened q hq).2)
    · exact fresh (hqa ▸ (h.pair_opened q hq).1)

/-- One edge, whatever it is. -/
theorem Swept.step {boxes : Array (Bounds α)} {edges : List Edge} {state : List Nat × List Pair}
    (h : Swept boxes edges state) {e : Edge} (fresh : e.isEnd = false → ¬ Opened edges e.index) :
    Swept boxes (edges ++ [e]) (step boxes state e) := by
  cases he : e.isEnd with
  | true => exact h.step_end he
  | false => exact h.step_start he (fresh he)

/-- A start that comes later in the sweep is that of a box which has not started. -/
theorem not_opened_of_distinctStarts {edges rest : List Edge} {e : Edge}
    (h : (edges ++ e :: rest).Pairwise DistinctStarts) (he : e.isEnd = false) :
    ¬ Opened edges e.index := by
  rintro ⟨f, hf, hstart, hindex⟩
  exact (List.pairwise_append.mp h).2.2 f hf e List.mem_cons_self hstart he hindex

/-! ## §D No pair is missed -/

/-- Of two boxes that meet, neither ends before the other one starts. -/
theorem startOf_le_endOf [GridOrdered α] {a b : Bounds α} (ha : a.mins.x ≤ a.mins.x)
    (hb : b.maxs.x ≤ b.maxs.x) (h : a.intersects b = true) (i j : Nat) :
    (startOf a i).x ≤ (endOf b j).x := by
  have hle : a.mins.x ≤ b.maxs.x := Scalar.le_of_not_lt ha hb (Bounds.intersects_iff.mp h .x).2
  exact GridOrdered.toInt32_mono (Scalar.floor_le_ceil_of_le (GridOrdered.cells_mono hle))

/-- The sweep has missed nothing after some edges: a box that started and did not end is open, and
every two boxes that started and meet are on record. -/
structure Complete (boxes : Array (Bounds α)) (edges : List Edge)
    (state : List Nat × List Pair) : Prop where
  still_open : ∀ i, Opened edges i → ¬ Closed edges i → i ∈ state.1
  found : ∀ i j, Opened edges i → Opened edges j → i ≠ j →
    (boxAt boxes i).intersects (boxAt boxes j) = true → ∃ p ∈ state.2, p.same ⟨i, j⟩ = true

theorem complete_nil (boxes : Array (Bounds α)) : Complete boxes [] ([], []) :=
  ⟨fun _ ⟨_, he, _⟩ => absurd he List.not_mem_nil, fun _ _ ⟨_, he, _⟩ => absurd he List.not_mem_nil⟩

theorem not_closed_of_append {edges more : List Edge} {i : Nat} (h : ¬ Closed (edges ++ more) i) :
    ¬ Closed edges i := fun ⟨e, he, hend⟩ => h ⟨e, List.mem_append_left more he, hend⟩

/-- An end closes its own box only. -/
theorem Complete.step_end {boxes : Array (Bounds α)} {edges : List Edge}
    {state : List Nat × List Pair} (h : Complete boxes edges state) {e : Edge}
    (he : e.isEnd = true) : Complete boxes (edges ++ [e]) (step boxes state e) := by
  rw [step_of_end he]
  refine ⟨?_, ?_⟩
  · intro i hi hopen
    rw [opened_append_end he] at hi
    have hie : i ≠ e.index := fun heq =>
      hopen ⟨e, List.mem_append_right edges (List.mem_singleton.mpr rfl), he, heq.symm⟩
    exact mem_closeBox_of_ne (h.still_open i hi (not_closed_of_append hopen)) hie
  · intro i j hi hj
    rw [opened_append_end he] at hi hj
    exact h.found i j hi hj

/-- A start is compared with every open box, and those that meet it are open. -/
theorem Complete.step_start {boxes : Array (Bounds α)} {edges : List Edge}
    {state : List Nat × List Pair} (h : Complete boxes edges state) {e : Edge}
    (he : e.isEnd = false)
    (meets_open : ∀ i, Opened edges i →
      (boxAt boxes i).intersects (boxAt boxes e.index) = true → ¬ Closed edges i) :
    Complete boxes (edges ++ [e]) (step boxes state e) := by
  rw [step_of_start he]
  have hnew : ∀ i, Opened edges i → (boxAt boxes i).intersects (boxAt boxes e.index) = true →
      (⟨i, e.index⟩ : Pair) ∈
        ((meeting boxes state.1 e.index).map fun i => (⟨i, e.index⟩ : Pair)).reverse := by
    intro i hi hmeets
    have hactive := h.still_open i hi (meets_open i hi hmeets)
    rw [List.mem_reverse, List.mem_map]
    exact ⟨i, List.mem_filter.mpr ⟨hactive, hmeets⟩, rfl⟩
  refine ⟨?_, ?_⟩
  · intro i hi hopen
    rw [opened_append_start he] at hi
    rcases hi with hi | rfl
    · exact List.mem_append_left _ (h.still_open i hi (not_closed_of_append hopen))
    · exact List.mem_append_right _ (List.mem_singleton.mpr rfl)
  · intro i j hi hj hij hmeets
    rw [opened_append_start he] at hi hj
    -- which of the two boxes is the one that starts decides how the pair is named
    rcases hi with hi | rfl <;> rcases hj with hj | rfl
    · obtain ⟨p, hp, hsame⟩ := h.found i j hi hj hij hmeets
      exact ⟨p, List.mem_append_right _ hp, hsame⟩
    · exact ⟨_, List.mem_append_left _ (hnew i hi hmeets), Pair.same_iff.mpr (Or.inl ⟨rfl, rfl⟩)⟩
    · rw [Bounds.intersects_comm] at hmeets
      exact ⟨_, List.mem_append_left _ (hnew j hj hmeets), Pair.same_iff.mpr (Or.inr ⟨rfl, rfl⟩)⟩
    · exact absurd rfl hij

/-- No number along the x axis is undefined. -/
def DefinedX (boxes : Array (Bounds α)) : Prop :=
  ∀ b ∈ boxes, b.mins.x ≤ b.mins.x ∧ b.maxs.x ≤ b.maxs.x

/-- A box that meets the one that starts has not ended: its end would stand before the start of a
box that it reaches. -/
theorem not_closed_of_meets [GridOrdered α] {boxes : Array (Bounds α)} (hx : DefinedX boxes)
    {edges rest : List Edge} {e : Edge} (hsweep : sortedEdges boxes = edges ++ e :: rest)
    (he : e.isEnd = false) {i : Nat}
    (hmeets : (boxAt boxes i).intersects (boxAt boxes e.index) = true) : ¬ Closed edges i := by
  rintro ⟨f, hf, hend, hindex⟩
  -- the end of the other box was passed before this start
  have hle : f.le e = true := by
    have hsorted := sortedEdges_sorted boxes
    rw [hsweep, List.pairwise_append] at hsorted
    exact hsorted.2.2 f hf e List.mem_cons_self
  obtain ⟨a, ha, hfa⟩ := mem_sortedEdges.mp
    (show f ∈ sortedEdges boxes from hsweep ▸ List.mem_append_left _ hf)
  obtain ⟨b, hb, heb⟩ := mem_sortedEdges.mp
    (show e ∈ sortedEdges boxes from hsweep ▸ List.mem_append_right _ List.mem_cons_self)
  have hfa : f = endOf a f.index := by
    rcases hfa with hfa | hfa
    · rw [hfa] at hend
      exact absurd hend Bool.false_ne_true
    · exact hfa
  have heb : e = startOf b e.index := by
    rcases heb with heb | heb
    · exact heb
    · rw [heb] at he
      exact absurd he.symm Bool.false_ne_true
  have hab : b.intersects a = true := by
    have hboxa : boxAt boxes i = a := by rw [← hindex, boxAt, Array.getD_eq_getD_getElem?, ha]; rfl
    have hboxb : boxAt boxes e.index = b := by rw [boxAt, Array.getD_eq_getD_getElem?, hb]; rfl
    rw [Bounds.intersects_comm, ← hboxa, ← hboxb]
    exact hmeets
  -- but boxes that meet reach each other, so that a start on the same cell comes first
  have hreach := startOf_le_endOf (hx b (Array.mem_of_getElem? hb)).1
    (hx a (Array.mem_of_getElem? ha)).2 hab e.index f.index
  rw [← heb, ← hfa] at hreach
  rcases Edge.le_iff.mp hle with hlt | ⟨-, htie⟩
  · exact Int32.not_le.mpr hlt hreach
  · exact Bool.false_ne_true (he ▸ htie hend)

/-! ## §E The whole sweep -/

/-- The sweep over all edges of some boxes, whatever their numbers. -/
theorem swept_sortedEdges (boxes : Array (Bounds α)) :
    Swept boxes (sortedEdges boxes) ((sortedEdges boxes).foldl (step boxes) ([], [])) := by
  refine inv_foldl_passed (Swept boxes) ?_ (swept_nil boxes)
  intro passed e rest state hsweep h
  have hdistinct := sortedEdges_distinctStarts boxes
  rw [hsweep] at hdistinct
  exact h.step (not_opened_of_distinctStarts hdistinct)

/-- The sweep over all edges of boxes without undefined numbers on the x axis. -/
theorem complete_sortedEdges [GridOrdered α] {boxes : Array (Bounds α)} (hx : DefinedX boxes) :
    Complete boxes (sortedEdges boxes) ((sortedEdges boxes).foldl (step boxes) ([], [])) := by
  refine inv_foldl_passed (Complete boxes) ?_ (complete_nil boxes)
  intro passed e rest state hsweep h
  cases he : e.isEnd with
  | true => exact h.step_end he
  | false => exact h.step_start he fun i _ hmeets => not_closed_of_meets hx hsweep he hmeets

/-- Every box starts, and nothing else does. -/
theorem opened_sortedEdges {boxes : Array (Bounds α)} {i : Nat} :
    Opened (sortedEdges boxes) i ↔ i < boxes.size := by
  constructor
  · rintro ⟨e, he, -, rfl⟩
    obtain ⟨box, hbox, -⟩ := mem_sortedEdges.mp he
    exact (Array.getElem?_eq_some_iff.mp hbox).1
  · intro hi
    refine ⟨startOf boxes[i] i, mem_sortedEdges.mpr ⟨boxes[i], ?_, Or.inl rfl⟩, rfl, rfl⟩
    exact Array.getElem?_eq_getElem hi

/-- No box is paired with itself, whatever the numbers. -/
theorem pairs_ne (boxes : Array (Bounds α)) : ∀ p ∈ pairs boxes, p.a ≠ p.b := by
  intro p hp
  exact (swept_sortedEdges boxes).pair_ne p (List.mem_reverse.mp hp)

/-- Edges of which no two tie come in one order only. -/
theorem sortedEdges_eq {boxes : Array (Bounds α)} (edges : List Edge)
    (hperm : edges.Perm (allEdges boxes)) (hsorted : edges.Pairwise fun e f => e.le f = true)
    (hties : ∀ e ∈ edges, ∀ f ∈ edges, e.le f = true → f.le e = true → e = f) :
    sortedEdges boxes = edges := by
  have hsame := hperm.trans (sortedEdges_perm boxes).symm
  refine (List.Perm.eq_of_pairwise ?_ hsorted (sortedEdges_sorted boxes) hsame).symm
  intro e f he hf
  exact hties e he f (hsame.mem_iff.mpr hf)

/-- A single box is in no pair. -/
theorem pairs_of_single {boxes : Array (Bounds α)} (h : boxes.size ≤ 1) : pairs boxes = [] := by
  rw [List.eq_nil_iff_forall_not_mem]
  intro p hp
  obtain ⟨ha, hb⟩ := (swept_sortedEdges boxes).pair_opened p (List.mem_reverse.mp hp)
  have hne := pairs_ne boxes p hp
  rw [opened_sortedEdges] at ha hb
  omega

/-- No two boxes are paired twice, whatever the numbers. -/
theorem pairs_distinct (boxes : Array (Bounds α)) :
    (pairs boxes).Pairwise fun p q => p.same q = false := by
  rw [pairs, List.pairwise_reverse]
  exact (swept_sortedEdges boxes).pairs_distinct.imp fun h => (Pair.same_comm _ _).trans h

theorem boxAt_eq {boxes : Array (Bounds α)} {i : Nat} (hi : i < boxes.size) :
    boxAt boxes i = boxes[i] := by
  rw [boxAt, Array.getD_eq_getD_getElem?, Array.getElem?_eq_getElem hi]
  rfl

/-- **The broad phase is exact.** Over boxes without an undefined number on the x axis, inverted,
empty and infinite ones included, it names boxes that there are, none of them with itself and no two
of them twice, and it names two different boxes exactly when they meet. -/
theorem mem_pairs_iff_intersects [GridOrdered α] {boxes : Array (Bounds α)} (hx : DefinedX boxes) :
    (∀ p ∈ pairs boxes, p.a < boxes.size ∧ p.b < boxes.size ∧ p.a ≠ p.b) ∧
    ((pairs boxes).Pairwise fun p q => p.same q = false) ∧
    ∀ (i j : Nat) (hi : i < boxes.size) (hj : j < boxes.size), i ≠ j →
      ((∃ p ∈ pairs boxes, p.same ⟨i, j⟩ = true) ↔ boxes[i].intersects boxes[j] = true) := by
  have hswept := swept_sortedEdges boxes
  have hcomplete := complete_sortedEdges hx
  refine ⟨?_, ?_, ?_⟩
  · intro p hp
    obtain ⟨ha, hb⟩ := hswept.pair_opened p (List.mem_reverse.mp hp)
    exact ⟨opened_sortedEdges.mp ha, opened_sortedEdges.mp hb, pairs_ne boxes p hp⟩
  · rw [pairs, List.pairwise_reverse]
    exact hswept.pairs_distinct.imp fun h => (Pair.same_comm _ _).trans h
  · intro i j hi hj hij
    rw [← boxAt_eq hi, ← boxAt_eq hj]
    constructor
    · rintro ⟨p, hp, hsame⟩
      have hmeets := hswept.pair_meets p (List.mem_reverse.mp hp)
      rcases Pair.same_iff.mp hsame with ⟨ha, hb⟩ | ⟨ha, hb⟩
      · rw [ha, hb] at hmeets
        exact hmeets
      · rw [ha, hb, Bounds.intersects_comm] at hmeets
        exact hmeets
    · intro hmeets
      obtain ⟨p, hp, hsame⟩ := hcomplete.found i j (opened_sortedEdges.mpr hi)
        (opened_sortedEdges.mpr hj) hij hmeets
      exact ⟨p, List.mem_reverse.mpr hp, hsame⟩

/-- A box of ordinary extent, one that ends before it starts, and one without ends. -/
def mixedBoxes : Array (Bounds Float32) :=
  #[⟨⟨0, 0, 0⟩, ⟨1, 1, 1⟩⟩, ⟨⟨3, 0, 0⟩, ⟨-1, 1, 1⟩⟩, ⟨⟨-1 / 0, 0, 0⟩, ⟨1 / 0, 1, 1⟩⟩]

/-- The box without ends is paired with both others, which are not paired with each other. -/
theorem pairs_mixedBoxes : DefinedX mixedBoxes ∧
    (∃ p ∈ pairs mixedBoxes, p.same ⟨0, 2⟩ = true) ∧
    (∃ p ∈ pairs mixedBoxes, p.same ⟨1, 2⟩ = true) ∧
    ¬ ∃ p ∈ pairs mixedBoxes, p.same ⟨0, 1⟩ = true := by
  have hx : DefinedX mixedBoxes := by
    unfold DefinedX mixedBoxes
    decide
  obtain ⟨-, -, hexact⟩ := mem_pairs_iff_intersects hx
  refine ⟨hx, ?_, ?_, ?_⟩
  · exact (hexact 0 2 (by decide) (by decide) (by decide)).mpr (by decide)
  · exact (hexact 1 2 (by decide) (by decide) (by decide)).mpr (by decide)
  · exact fun h => absurd ((hexact 0 1 (by decide) (by decide) (by decide)).mp h) (by decide)

end ConvexCollision.BroadPhase
