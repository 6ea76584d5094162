import Mathlib.Data.List.Perm.Basic
import ConvexCollision.KdTree.Build
import ConvexCollision.Proofs.Except
import ConvexCollision.Proofs.KdTree.Descent

/-!
# ConvexCollision.Proofs.KdTree.Build -- what the build makes of its triangles

The build numbers its nodes in the order in which a walk meets them, and stores the triangles of each
subtree one after the other. `Spans` says that of a subtree. `addNode_grown` proves it by induction on
the branches that are left, with what a branch records of its two sides as a parameter, since that is
the only place where the numbers come in. Nothing here needs a law of `Scalar`.
-/

namespace ConvexCollision.KdTree

variable {α : Type} [Scalar α]

/-! ## §A Sorting keeps the triangles -/

theorem insertDescending_perm {β : Type} (isBefore : β → β → Bool) (x : β) (l : List β) :
    (insertDescending isBefore x l).Perm (x :: l) := by
  induction l with
  | nil => exact List.Perm.refl _
  | cons y l ih =>
    unfold insertDescending
    split
    · exact (ih.cons y).trans (List.Perm.swap x y l)
    · exact List.Perm.refl _

theorem insertionSort_perm {β : Type} (isBefore : β → β → Bool) (l : List β) :
    (insertionSort isBefore l).Perm l := by
  have hfold : ∀ sorted : List β,
      (l.foldl (fun sorted x => insertDescending isBefore x sorted) sorted).Perm (l ++ sorted) := by
    induction l with
    | nil => exact fun sorted => List.Perm.refl _
    | cons x l ih =>
      intro sorted
      rw [List.foldl_cons, List.cons_append]
      exact (ih _).trans (((insertDescending_perm isBefore x sorted).append_left l).trans
        List.perm_middle)
  have hperm := hfold []
  rw [List.append_nil] at hperm
  exact (List.reverse_perm _).trans hperm

/-- All that is assumed of a way to sort triangles: it loses none and doubles none. In which order it
puts those that cannot be compared is left open. -/
def Sorts {α : Type} (sort : Axis → List (Item α) → List (Item α)) : Prop :=
  ∀ axis items, (sort axis items).Perm items

/-- Sorting triangles loses none and doubles none, whatever the comparisons answer. -/
theorem sorts_sortOn : Sorts (sortOn : Axis → List (Item α) → List (Item α)) := by
  intro axis items
  unfold sortOn
  split
  · exact insertionSort_perm _ items
  · exact List.mergeSort_perm items _

/-! ## §B Subtrees that span triangles -/

/-- What the branches of a tree record of their two sides: an axis, the cells at which the first side
ends and the second one starts, and the triangles on each. -/
abbrev Divides := Axis → (aMax bMin : UInt16) → (as bs : List Nat) → Prop

/-- The nodes from `node` up to `stop` are a subtree, numbered in the order of a walk. Its leaves store
the triangles `slots` one after the other, from place `start` on. -/
inductive Spans (nodes : Array KdNode) (divides : Divides) :
    (levels node stop start : Nat) → (slots : List Nat) → Prop
  /-- A leaf that stores the triangles. -/
  | leaf {levels node start : Nat} {slots : List Nat} {triangleOffset count : UInt16}
      (here : nodes[node]? = some (.leaf triangleOffset count))
      (starts : triangleOffset.toNat = start) (counts : count.toNat = slots.length) :
      Spans nodes divides levels node (node + 1) start slots
  /-- A branch, followed by its first side and that by its second one. -/
  | branch {levels node middle stop start : Nat} {as bs : List Nat} {axis : Axis} {n : UInt8}
      {aMax bMin aChild bChild : UInt16}
      (here : nodes[node]? = some (.branch n aMax bMin aChild bChild))
      (splits : Axis.ofNumber? n.toNat = some axis) (divided : divides axis aMax bMin as bs)
      (aNext : aChild.toNat = node + 1) (bNext : bChild.toNat = middle)
      (a : Spans nodes divides levels (node + 1) middle start as)
      (b : Spans nodes divides levels middle stop (start + as.length) bs) :
      Spans nodes divides (levels + 1) node stop start (as ++ bs)

section Spans

variable {nodes : Array KdNode} {divides : Divides} {levels node stop start : Nat} {slots : List Nat}

theorem Spans.lt_stop (h : Spans nodes divides levels node stop start slots) : node < stop := by
  induction h with
  | leaf => exact Nat.lt_succ_self _
  | branch _ _ _ _ _ _ _ iha ihb => omega

/-- A subtree depends on its own nodes only. -/
theorem Spans.congr (h : Spans nodes divides levels node stop start slots) {nodes' : Array KdNode}
    (hsame : ∀ n, node ≤ n → n < stop → nodes'[n]? = nodes[n]?) :
    Spans nodes' divides levels node stop start slots := by
  induction h with
  | leaf here starts counts =>
    refine .leaf ?_ starts counts
    rw [hsame _ (Nat.le_refl _) (Nat.lt_succ_self _)]
    exact here
  | branch here splits divided aNext bNext a b iha ihb =>
    have ha := a.lt_stop
    have hb := b.lt_stop
    refine .branch ?_ splits divided aNext bNext (iha ?_) (ihb ?_)
    · rw [hsame _ (Nat.le_refl _) (by omega)]
      exact here
    · exact fun n hlow hhigh => hsame n (by omega) (by omega)
    · exact fun n hlow hhigh => hsame n (by omega) hhigh

/-- A subtree that spans triangles can be walked. -/
theorem Spans.sound (h : Spans nodes divides levels node stop start slots) {triangleCount : Nat}
    (hcount : start + slots.length ≤ triangleCount) : Sound nodes triangleCount levels node := by
  induction h with
  | leaf here starts counts => exact .leaf here (by omega)
  | branch here splits divided aNext bNext a b iha ihb =>
    have ha := a.lt_stop
    rw [List.length_append] at hcount
    refine .branch here (by omega) (by omega) ?_ ?_
    · rw [aNext]
      exact iha (by omega)
    · rw [bNext]
      exact ihb (by omega)

end Spans

/-! ## §C Walks over a subtree -/

section Walk

variable {nodes : Array KdNode} {divides : Divides} {levels node stop start : Nat} {slots : List Nat}
  {enterA enterB : Axis → UInt16 → Bool}

/-- Nothing ends a walk over such a subtree before its time. -/
theorem Spans.trace_stop (h : Spans nodes divides levels node stop start slots) :
    (trace nodes enterA enterB levels node).stop = none := by
  induction h with
  | leaf here => rw [trace_leaf here]
  | branch here splits divided aNext bNext a b iha ihb =>
    rw [trace_branch here splits, Trace.andThen_stop_eq_none, side_stop_eq_none, side_stop_eq_none,
      aNext, bNext]
    exact ⟨fun _ => iha, fun _ => ihb⟩

/-- What a walk meets on a side that it may not enter. -/
theorem met_side (enter : Bool) (t : Trace) :
    (if enter then t else .nothing).met = if enter then t.met else [] := by
  cases enter <;> rfl

/-- A walk meets the places of a branch side by side, as far as it enters them. -/
theorem Spans.trace_met_branch {middle : Nat} {as : List Nat} {axis : Axis} {n : UInt8}
    {aMax bMin aChild bChild : UInt16}
    (here : nodes[node]? = some (.branch n aMax bMin aChild bChild))
    (splits : Axis.ofNumber? n.toNat = some axis)
    (aNext : aChild.toNat = node + 1) (bNext : bChild.toNat = middle)
    (a : Spans nodes divides levels (node + 1) middle start as) :
    (trace nodes enterA enterB (levels + 1) node).met =
      (if enterA axis aMax then (trace nodes enterA enterB levels (node + 1)).met else []) ++
        if enterB axis bMin then (trace nodes enterA enterB levels middle).met else [] := by
  rw [trace_branch here splits, aNext, bNext, Trace.andThen_met, met_side, met_side]
  rw [side_stop_eq_none]
  exact fun _ => a.trace_stop

/-- A walk meets places of the subtree only, in their order, and so none of them twice. -/
theorem Spans.trace_met_sublist (h : Spans nodes divides levels node stop start slots) :
    (trace nodes enterA enterB levels node).met.Sublist (List.range' start slots.length) := by
  induction h with
  | leaf here starts counts =>
    rw [trace_leaf here, starts, counts]
  | branch here splits divided aNext bNext a b iha ihb =>
    rw [Spans.trace_met_branch here splits aNext bNext a, List.length_append,
      ← List.range'_append_1]
    refine List.Sublist.append ?_ ?_
    · split
      · exact iha
      · exact List.nil_sublist _
    · split
      · exact ihb
      · exact List.nil_sublist _

/-- A walk meets every place of the subtree that holds a triangle it looks for, when each branch that
has such a triangle on a side makes it enter that side. -/
theorem Spans.mem_trace_met (h : Spans nodes divides levels node stop start slots)
    (wanted : Nat → Prop)
    (henterA : ∀ axis aMax bMin as bs, divides axis aMax bMin as bs → ∀ i ∈ as, wanted i →
      enterA axis aMax = true)
    (henterB : ∀ axis aMax bMin as bs, divides axis aMax bMin as bs → ∀ i ∈ bs, wanted i →
      enterB axis bMin = true) {k : Nat} {i : Nat} (hk : slots[k]? = some i) (hi : wanted i) :
    start + k ∈ (trace nodes enterA enterB levels node).met := by
  induction h generalizing k with
  | leaf here starts counts =>
    have hlt := (List.getElem?_eq_some_iff.mp hk).1
    rw [trace_leaf here, List.mem_range'_1]
    omega
  | @branch levels node middle stop start as bs axis n aMax bMin aChild bChild here splits divided
      aNext bNext a b iha ihb =>
    rw [Spans.trace_met_branch here splits aNext bNext a]
    -- the places of the first side come first
    by_cases hside : k < as.length
    · rw [List.getElem?_append_left hside] at hk
      have henter := henterA _ _ _ _ _ divided i (List.mem_of_getElem? hk) hi
      rw [henter, if_pos rfl]
      exact List.mem_append_left _ (iha hk)
    · rw [List.getElem?_append_right (Nat.le_of_not_lt hside)] at hk
      have henter := henterB _ _ _ _ _ divided i (List.mem_of_getElem? hk) hi
      have hplace : start + k = start + as.length + (k - as.length) := by omega
      rw [henter, if_pos rfl, hplace]
      exact List.mem_append_right _ (ihb hk)

end Walk

/-! ## §D The build -/

/-- Where the first side of a branch ends. -/
def farEnd (axis : Axis) (side : List (Item α)) : α :=
  side.foldl (fun m t => Scalar.maxNum m (t.bounds.maxs.coord axis)) (-Scalar.maxFinite)

/-- Where the second side of a branch starts. -/
def nearEnd (axis : Axis) (side : List (Item α)) : α :=
  side.foldl (fun m t => Scalar.minNum m (t.bounds.mins.coord axis)) Scalar.maxFinite

/-- What a branch records of two sides made of some of the triangles is what it is said to record. -/
def Records (grid : Grid α) (divides : Divides) (all : List (Item α)) : Prop :=
  ∀ (axis : Axis) (aSide bSide : List (Item α)) (as bs : List Nat), aSide ⊆ all → bSide ⊆ all →
    as.Perm (aSide.map (·.index)) → bs.Perm (bSide.map (·.index)) →
    divides axis (grid.cellCeil axis (farEnd axis aSide)) (grid.cellFloor axis (nearEnd axis bSide))
      as bs

/-- A draft has grown by a subtree over some triangles: nothing in it has changed, the new nodes are
the subtree, and the new places store its triangles. -/
structure Grown (divides : Divides) (levels : Nat) (items : List (Item α)) (p : Draft) (node : UInt16)
    (q : Draft) : Prop where
  /-- The nodes that there were stay. -/
  keeps : ∀ n < p.nodes.size, q.nodes[n]? = p.nodes[n]?
  /-- The first new node is the root of the subtree. -/
  root : node.toNat = p.nodes.size
  /-- The new nodes span the triangles, in some order, at the new places. -/
  stores : ∃ slots : List Nat, slots.Perm (items.map (·.index)) ∧
    q.order.toList = p.order.toList ++ slots ∧
    Spans q.nodes divides levels p.nodes.size q.nodes.size p.order.size slots

theorem index16_eq_ok {value triangleCount : Nat} {i : UInt16}
    (h : index16 value triangleCount = .ok i) : i.toNat = value := by
  unfold index16 at h
  split at h
  · next hlt =>
    cases h
    exact UInt16.toNat_ofNat_of_lt' hlt
  · cases h

omit [Scalar α] in
theorem addLeaf_grown {divides : Divides} {levels total : Nat} {items : List (Item α)}
    {p q : Draft} {node : UInt16} (h : addLeaf items total p = .ok (node, q)) :
    Grown divides levels items p node q := by
  unfold addLeaf at h
  obtain ⟨node', hnode, h⟩ := bind_eq_ok_iff.mp h
  obtain ⟨triangleOffset, hoffset, h⟩ := bind_eq_ok_iff.mp h
  obtain ⟨count, hcount, h⟩ := bind_eq_ok_iff.mp h
  cases h
  refine ⟨?_, index16_eq_ok hnode, items.map (·.index), List.Perm.refl _, by simp, ?_⟩
  · intro n hn
    exact Array.getElem?_push_lt hn ▸ (Array.getElem?_eq_getElem hn).symm
  · simp only [Array.size_push]
    refine .leaf Array.getElem?_push_size (index16_eq_ok hoffset) ?_
    rw [index16_eq_ok hcount, List.length_map]

omit [Scalar α] in
/-- A branch over two subtrees, for which a place was taken before they were added. -/
theorem branch_grown {divides : Divides} {levels : Nat} {items aSide bSide : List (Item α)}
    {p q r : Draft} {node aChild bChild : UInt16} {axis : Axis} {aMax bMin : UInt16}
    (hperm : (aSide ++ bSide).Perm items) (hnode : node.toNat = p.nodes.size)
    (hdivides : ∀ as bs : List Nat, as.Perm (aSide.map (·.index)) → bs.Perm (bSide.map (·.index)) →
      divides axis aMax bMin as bs)
    (ha : Grown divides levels aSide { p with nodes := p.nodes.push (.leaf 0 0) } aChild q)
    (hb : Grown divides levels bSide q bChild r) :
    Grown divides (levels + 1) items p node
      { r with
        nodes := r.nodes.setIfInBounds node.toNat
          (.branch (UInt8.ofNat axis.number) aMax bMin aChild bChild) } := by
  obtain ⟨as, hpermA, horderA, hspansA⟩ := ha.stores
  obtain ⟨bs, hpermB, horderB, hspansB⟩ := hb.stores
  have hroomA := hspansA.lt_stop
  have hroomB := hspansB.lt_stop
  simp only [Array.size_push] at hroomA hspansA
  -- the branch is written over the place that was taken for it, and over no other
  have hset : ∀ n, n ≠ p.nodes.size → (r.nodes.setIfInBounds node.toNat
      (.branch (UInt8.ofNat axis.number) aMax bMin aChild bChild))[n]? = r.nodes[n]? := by
    intro n hn
    rw [Array.getElem?_setIfInBounds_ne (by omega)]
  refine ⟨?_, hnode, as ++ bs, ?_, ?_, ?_⟩
  · intro n hn
    rw [hset n (by omega), hb.keeps n (by omega), ha.keeps n (by simp; omega)]
    exact Array.getElem?_push_lt hn ▸ (Array.getElem?_eq_getElem hn).symm
  · refine (hpermA.append hpermB).trans ?_
    rw [← List.map_append]
    exact hperm.map _
  · show r.order.toList = _
    rw [horderB, horderA, List.append_assoc]
  · have hstart : q.order.size = p.order.size + as.length := by
      rw [← Array.length_toList, horderA, List.length_append, Array.length_toList]
    rw [Array.size_setIfInBounds]
    have hbranch : (r.nodes.setIfInBounds node.toNat
        (.branch (UInt8.ofNat axis.number) aMax bMin aChild bChild))[p.nodes.size]? =
        some (.branch (UInt8.ofNat axis.number) aMax bMin aChild bChild) := by
      rw [hnode, Array.getElem?_setIfInBounds_self_of_lt (by omega)]
    -- the first side is not touched when the second one is added
    refine .branch hbranch ?_ (hdivides as bs hpermA hpermB)
      (ha.root.trans (Array.size_push _)) hb.root ?_ ?_
    · cases axis <;> rfl
    · refine hspansA.congr ?_
      intro n hlow hhigh
      rw [hset n (by omega), hb.keeps n hhigh]
    · rw [← hstart]
      refine hspansB.congr ?_
      intro n hlow hhigh
      exact hset n (by omega)

/-- **What the build adds.** A subtree over the given triangles is added to the draft, of which nothing
changes. -/
theorem addNode_grown {sort : Axis → List (Item α) → List (Item α)} (hsort : Sorts sort)
    {grid : Grid α} {divides : Divides} {total : Nat} {all : List (Item α)}
    (hrecords : Records grid divides all) (levels : Nat) {items : List (Item α)} {p q : Draft}
    {node : UInt16} (hitems : items ⊆ all)
    (h : addNode sort grid total levels items p = .ok (node, q)) :
    Grown divides levels items p node q := by
  induction levels generalizing items p q node with
  | zero => exact addLeaf_grown h
  | succ levels ih =>
    rw [addNode] at h
    split at h
    · exact addLeaf_grown h
    split at h
    · exact addLeaf_grown h
    next axis _ =>
    have hsides : ((sort axis items).splitAt (items.length / 2)).1 ++
        ((sort axis items).splitAt (items.length / 2)).2 = sort axis items := by simp
    generalize hsplit : (sort axis items).splitAt (items.length / 2) = sides at h hsides
    obtain ⟨aSide, bSide⟩ := sides
    have hperm : (aSide ++ bSide).Perm items := hsides ▸ hsort axis items
    have hA : aSide ⊆ all := fun t ht => hitems (hperm.mem_iff.mp (List.mem_append_left _ ht))
    have hB : bSide ⊆ all := fun t ht => hitems (hperm.mem_iff.mp (List.mem_append_right _ ht))
    simp only at h
    obtain ⟨node', hnode, h⟩ := bind_eq_ok_iff.mp h
    obtain ⟨⟨aChild, q₁⟩, ha, h⟩ := bind_eq_ok_iff.mp h
    obtain ⟨⟨bChild, q₂⟩, hb, h⟩ := bind_eq_ok_iff.mp h
    cases h
    exact branch_grown hperm (index16_eq_ok hnode) (fun as bs => hrecords axis aSide bSide as bs hA hB)
      (ih hA ha) (ih hB hb)

omit [Scalar α] in
/-- A corner is found only where there is a vertex. -/
theorem getElem?_of_corner {vertices : Array (Vec3 α)} {index : Nat} {i : UInt16} {v : Vec3 α}
    (h : (match vertices[i.toNat]? with
      | some v => Except.ok v
      | none => .error (CollisionError.invalidVertexIndex index i.toNat vertices.size)) = .ok v) :
    vertices[i.toNat]? = some v := by
  split at h
  · next w hw => cases h; exact hw
  · cases h

/-- The corners of a triangle that the build takes up are vertices, and its box is theirs. -/
theorem item_eq_ok {vertices : Array (Vec3 α)} {index : Nat} {corners : UInt16 × UInt16 × UInt16}
    {t : Item α} (h : item vertices index corners = .ok t) :
    t.index = index ∧ ∃ a b c, vertices[corners.1.toNat]? = some a ∧
      vertices[corners.2.1.toNat]? = some b ∧ vertices[corners.2.2.toNat]? = some c ∧
      t.bounds = Bounds.ofPoints [a, b, c] := by
  unfold item at h
  obtain ⟨a, ha, h⟩ := bind_eq_ok_iff.mp h
  obtain ⟨b, hb, h⟩ := bind_eq_ok_iff.mp h
  obtain ⟨c, hc, h⟩ := bind_eq_ok_iff.mp h
  cases h
  exact ⟨rfl, a, b, c, getElem?_of_corner ha, getElem?_of_corner hb, getElem?_of_corner hc, rfl⟩

/-- What the build takes up: an item for each triangle, numbered in their order. -/
theorem items_of_zipIdx {vertices : Array (Vec3 α)}
    {triangles : List (UInt16 × UInt16 × UInt16)} {items : List (Item α)}
    (h : List.Forall₂ (fun x t => item vertices x.2 x.1 = .ok t) triangles.zipIdx items) :
    items.map (·.index) = List.range triangles.length ∧
      ∀ t ∈ items, ∃ corners, triangles[t.index]? = some corners ∧
        item vertices t.index corners = .ok t := by
  have hlength : items.length = triangles.length := by
    rw [← h.length_eq, List.length_zipIdx]
  have hget : ∀ (k : Nat) (hk : k < items.length) (hk' : k < triangles.length),
      item vertices k triangles[k] = .ok items[k] := by
    intro k hk hk'
    have hzip := h.get (by rwa [List.length_zipIdx]) hk
    simpa using hzip
  have hindex : ∀ (k : Nat) (hk : k < items.length), items[k].index = k := fun k hk =>
    (item_eq_ok (hget k hk (hlength ▸ hk))).1
  refine ⟨?_, ?_⟩
  · refine List.ext_getElem (by simp [hlength]) ?_
    intro k hk hk'
    rw [List.getElem_map, List.getElem_range]
    exact hindex k (by simpa using hk)
  · intro t ht
    obtain ⟨k, hk, rfl⟩ := List.mem_iff_getElem.mp ht
    rw [hindex k hk]
    exact ⟨_, List.getElem?_eq_getElem (hlength ▸ hk), hget k hk (hlength ▸ hk)⟩

/-- **What a tree is built of.** A tree that was built spans its triangles in the order in which they
have to be stored, each of them once, on the grid over the boxes of all of them. -/
theorem buildBy_eq_ok {sort : Axis → List (Item α) → List (Item α)} (hsort : Sorts sort)
    {vertices : Array (Vec3 α)} {triangles : List (UInt16 × UInt16 × UInt16)} {t : KdTree α}
    {order : Array Nat} (h : buildBy sort vertices triangles = .ok (t, order)) :
    order.toList.Perm (List.range triangles.length) ∧
      ∃ items : List (Item α),
        items.map (·.index) = List.range triangles.length ∧
        (∀ t ∈ items, ∃ corners, triangles[t.index]? = some corners ∧
          item vertices t.index corners = .ok t) ∧
        t.grid = Grid.ofBounds (items.foldl (fun b t => b.union t.bounds) Bounds.empty) ∧
        ∀ divides, Records t.grid divides items →
          Spans t.nodes divides (maxDepth - 1) 0 t.nodes.size 0 order.toList := by
  unfold buildBy at h
  split at h
  · cases h
  obtain ⟨-, -, h⟩ := bind_eq_ok_iff.mp h
  obtain ⟨items, hitems, h⟩ := bind_eq_ok_iff.mp h
  obtain ⟨⟨node, p⟩, hadd, h⟩ := bind_eq_ok_iff.mp h
  cases h
  obtain ⟨hindices, hfound⟩ := items_of_zipIdx (forall₂_of_mapM_eq_ok hitems)
  have hgrown : ∀ divides, Records (Grid.ofBounds _) divides items → ∃ slots : List Nat,
      slots.Perm (items.map (·.index)) ∧ p.order.toList = slots ∧
        Spans p.nodes divides (maxDepth - 1) 0 p.nodes.size 0 slots := fun divides hrecords =>
    (addNode_grown hsort hrecords (maxDepth - 1) (List.Subset.refl items) hadd).stores
  refine ⟨?_, items, hindices, hfound, rfl, ?_⟩
  -- the order does not depend on what the branches record
  · obtain ⟨slots, hperm, horder, -⟩ := hgrown (fun _ _ _ _ _ => True) fun _ _ _ _ _ _ _ _ _ => trivial
    rw [horder, ← hindices]
    exact hperm
  · intro divides hrecords
    obtain ⟨slots, -, horder, hspans⟩ := hgrown divides hrecords
    rw [horder]
    exact hspans

end ConvexCollision.KdTree
