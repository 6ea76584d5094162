import ConvexCollision.Proofs.KdTree.Arrangement

/-!
# ConvexCollision.Proofs.KdTree.Stack -- the bounded stack of a walk loses nothing

A walk keeps the nodes still to visit on a stack of bounded height, and passes over a child that finds the
stack full. `Reports` is the walk without a stack: plain recursion without a bound, the first side of a branch
before the second. Over every tree that was checked or built the two report the same triangles in the same
order, because no child ever finds the stack full (`walk_reports`).

The reason is one invariant of the turns of a walk (`Fits`): below every node on the stack there lie at most as
many nodes as the levels that are left to it allow. A branch gives one of its levels to the second child, which
takes the branch's place on the stack, and one to the first, which takes the place above. That a node may be
the child of several branches does not matter, since a node is put on the stack once for each of them.
-/

namespace ConvexCollision.KdTree

variable {nodes : Array KdNode} {enterA enterB : Axis → UInt16 → Bool} {triangleCount : Nat}
  {stack stack' below : List Nat}

/-! ## §A The walk by recursion -/

section Reports

variable (nodes enterA enterB)

/-- The triangles that plain recursion reports from a node on: those of a leaf; of a branch those of its first
child and then those of its second one, as far as they are accepted. -/
inductive Reports : (node : Nat) → (met : List Nat) → Prop
  /-- All triangles of a leaf. -/
  | leaf {node : Nat} {triangleOffset count : UInt16}
      (here : nodes[node]? = some (.leaf triangleOffset count)) :
      Reports node (List.range' triangleOffset.toNat count.toNat)
  /-- What the accepted children of a branch report, and nothing for a child that is not accepted. -/
  | branch {node : Nat} {n : UInt8} {aMax bMin aChild bChild : UInt16} {axis : Axis} {as bs : List Nat}
      (here : nodes[node]? = some (.branch n aMax bMin aChild bChild))
      (splits : Axis.ofNumber? n.toNat = some axis)
      (a : enterA axis aMax = true → Reports aChild.toNat as) (aPassed : enterA axis aMax = false → as = [])
      (b : enterB axis bMin = true → Reports bChild.toNat bs) (bPassed : enterB axis bMin = false → bs = []) :
      Reports node (as ++ bs)

end Reports

/-- Recursion reports one sequence only. -/
theorem Reports.unique {node : Nat} {met met' : List Nat} (h : Reports nodes enterA enterB node met)
    (h' : Reports nodes enterA enterB node met') : met' = met := by
  induction h generalizing met' with
  | leaf here =>
    cases h' with
    | leaf here' =>
      rw [here] at here'
      cases here'
      rfl
    | branch here' =>
      rw [here] at here'
      cases here'
  | @branch node n aMax bMin aChild bChild axis as bs here splits a aPassed b bPassed iha ihb =>
    cases h' with
    | leaf here' =>
      rw [here] at here'
      cases here'
    | branch here' splits' a' aPassed' b' bPassed' =>
      rw [here] at here'
      cases here'
      rw [splits] at splits'
      cases splits'
      congr 1
      · cases hen : enterA axis aMax with
        | true => exact iha hen (a' hen)
        | false => rw [aPassed hen, aPassed' hen]
      · cases hen : enterB axis bMin with
        | true => exact ihb hen (b' hen)
        | false => rw [bPassed hen, bPassed' hen]

/-- Where every branch is on an axis that there is, the descent within the depth limit is the recursion. -/
theorem Sound.reports (enterA enterB : Axis → UInt16 → Bool) {levels node : Nat}
    (h : Sound nodes triangleCount levels node) (haxes : ∀ n, ¬ MissesAxis nodes n) :
    (trace nodes enterA enterB levels node).stop = none ∧
      Reports nodes enterA enterB node (trace nodes enterA enterB levels node).met := by
  refine ⟨(trace_stop_eq_none_iff h).mpr fun n _ => haxes n, ?_⟩
  induction h with
  | leaf here covers =>
    rw [trace_leaf here]
    exact .leaf here
  | @branch levels node n aMax bMin aChild bChild here aLater bLater a b iha ihb =>
    cases splits : Axis.ofNumber? n.toNat with
    | none => exact absurd ⟨n, aMax, bMin, aChild, bChild, here, splits⟩ (haxes node)
    | some axis =>
      have hfirst : enterA axis aMax = true → (trace nodes enterA enterB levels aChild.toNat).stop = none :=
        fun _ => (trace_stop_eq_none_iff a).mpr fun n _ => haxes n
      rw [trace_branch here splits, Trace.andThen_met (side_stop_eq_none.mpr hfirst), met_side, met_side]
      refine .branch here splits ?_ ?_ ?_ ?_
      · intro hen
        rwa [if_pos hen]
      · intro hen
        rw [hen, if_neg Bool.false_ne_true]
      · intro hen
        rwa [if_pos hen]
      · intro hen
        rw [hen, if_neg Bool.false_ne_true]

/-! ## §B The turns of a walk -/

/-- The stack with an accepted child on it, if there is room. -/
def offer (enter : Bool) (child : UInt16) (stack : List Nat) : List Nat :=
  if enter then pushNode stack child else stack

section Turn

variable (nodes enterA enterB)

/-- A turn of a walk takes the top node off the stack and reports its triangles, or puts its accepted children
on the stack, the second one first. -/
inductive Turn : (stack : List Nat) → (met : List Nat) → (stack' : List Nat) → Prop
  /-- A leaf is reported. -/
  | leaf {node : Nat} {stack : List Nat} {triangleOffset count : UInt16}
      (here : nodes[node]? = some (.leaf triangleOffset count)) :
      Turn (node :: stack) (List.range' triangleOffset.toNat count.toNat) stack
  /-- A branch makes its children wait. -/
  | branch {node : Nat} {stack : List Nat} {n : UInt8} {aMax bMin aChild bChild : UInt16} {axis : Axis}
      (here : nodes[node]? = some (.branch n aMax bMin aChild bChild))
      (splits : Axis.ofNumber? n.toNat = some axis) :
      Turn (node :: stack) []
        (offer (enterA axis aMax) aChild (offer (enterB axis bMin) bChild stack))

/-- In the turn from a stack, an accepted child is to be put on another one. -/
inductive Pushes : (stack below : List Nat) → Prop
  /-- The second child of a branch, on what lies below the branch. -/
  | second {node : Nat} {stack : List Nat} {n : UInt8} {aMax bMin aChild bChild : UInt16} {axis : Axis}
      (here : nodes[node]? = some (.branch n aMax bMin aChild bChild))
      (splits : Axis.ofNumber? n.toNat = some axis) (enters : enterB axis bMin = true) :
      Pushes (node :: stack) stack
  /-- The first child, on what the second one has left. -/
  | first {node : Nat} {stack : List Nat} {n : UInt8} {aMax bMin aChild bChild : UInt16} {axis : Axis}
      (here : nodes[node]? = some (.branch n aMax bMin aChild bChild))
      (splits : Axis.ofNumber? n.toNat = some axis) (enters : enterA axis aMax = true) :
      Pushes (node :: stack) (offer (enterB axis bMin) bChild stack)

/-- A walk from the root comes to a stack, after it has reported some triangles. -/
inductive ComesTo : (reported stack : List Nat) → Prop
  /-- It starts with the root on its stack. -/
  | root : ComesTo [] [0]
  /-- It takes one more turn. -/
  | turn {reported stack met stack' : List Nat} (before : ComesTo reported stack)
      (turn : Turn nodes enterA enterB stack met stack') : ComesTo (reported ++ met) stack'

end Turn

section Follows

variable {σ : Type} {emit : σ → Nat → Except (Halt σ) σ}

/-- The walk folds what a turn reports and goes on from the stack that the turn leaves. -/
theorem walkFrom_turn {met : List Nat} (h : Turn nodes enterA enterB stack met stack') (steps : Nat) (s : σ) :
    walkFrom nodes enterA enterB emit (steps + 1) stack s =
      (met.foldlM emit s).bind (walkFrom nodes enterA enterB emit steps stack') := by
  cases h with
  | leaf here =>
    simp only [walkFrom, here]
    rfl
  | branch here splits =>
    simp only [walkFrom, here, splits]
    rfl

/-- The stacks that a walk is said to come to are those of the walk. -/
theorem walkFrom_of_comesTo {reported : List Nat} (h : ComesTo nodes enterA enterB reported stack) :
    ∃ turns, ∀ steps s, walkFrom nodes enterA enterB emit (turns + steps) [0] s =
      (reported.foldlM emit s).bind (walkFrom nodes enterA enterB emit steps stack) := by
  induction h with
  | root => exact ⟨0, fun steps s => by rw [Nat.zero_add]; rfl⟩
  | @turn reported stack met stack' before turn ih =>
    obtain ⟨turns, hwalk⟩ := ih
    refine ⟨turns + 1, fun steps s => ?_⟩
    rw [Nat.add_assoc, Nat.add_comm 1 steps, hwalk, List.foldlM_append]
    cases hfold : reported.foldlM emit s with
    | error halt => rfl
    | ok s => exact walkFrom_turn turn steps s

end Follows

/-! ## §C The height of the stack -/

/-- Every node on the stack is sound, with so few levels left that the nodes below it on the stack and those
that it makes wait find room together. -/
inductive Fits (nodes : Array KdNode) (triangleCount : Nat) : List Nat → Prop
  /-- Nothing waits. -/
  | nil : Fits nodes triangleCount []
  /-- A node on top of others. -/
  | cons {levels node : Nat} {stack : List Nat} (sound : Sound nodes triangleCount levels node)
      (room : stack.length + levels < maxDepth) (rest : Fits nodes triangleCount stack) :
      Fits nodes triangleCount (node :: stack)

/-- A child with a level to spare fits where it is put. -/
theorem Fits.offer {levels : Nat} {child : UInt16} (h : Fits nodes triangleCount stack)
    (hsound : Sound nodes triangleCount levels child.toNat) (hroom : stack.length + levels < maxDepth)
    (enter : Bool) : Fits nodes triangleCount (offer enter child stack) := by
  cases enter with
  | false => exact h
  | true =>
    rw [KdTree.offer, if_pos rfl, pushNode_of_room (by omega)]
    exact .cons hsound hroom h

/-- Offering a child makes the stack higher by one node at most. -/
theorem length_offer_le (enter : Bool) (child : UInt16) (stack : List Nat) :
    (offer enter child stack).length ≤ stack.length + 1 := by
  unfold offer pushNode
  split
  · split <;> simp
  · omega

/-- What a branch on a fitting stack leaves for its children. -/
theorem Fits.of_branch {node : Nat} {n : UInt8} {aMax bMin aChild bChild : UInt16}
    (h : Fits nodes triangleCount (node :: stack))
    (here : nodes[node]? = some (.branch n aMax bMin aChild bChild)) :
    ∃ levels, stack.length + (levels + 1) < maxDepth ∧ Fits nodes triangleCount stack ∧
      Sound nodes triangleCount levels aChild.toNat ∧ Sound nodes triangleCount levels bChild.toNat := by
  cases h with
  | cons sound room rest =>
    cases sound with
    | leaf hleaf =>
      rw [here] at hleaf
      cases hleaf
    | branch hbranch aLater bLater a b =>
      rw [here] at hbranch
      cases hbranch
      exact ⟨_, room, rest, a, b⟩

/-- **A turn keeps the stack fitting.** -/
theorem Fits.turn {met : List Nat} (h : Fits nodes triangleCount stack)
    (hturn : Turn nodes enterA enterB stack met stack') : Fits nodes triangleCount stack' := by
  cases hturn with
  | leaf here =>
    cases h with
    | cons sound room rest => exact rest
  | @branch node stack n aMax bMin aChild bChild axis here splits =>
    obtain ⟨levels, room, rest, a, b⟩ := h.of_branch here
    have hlength := length_offer_le (enterB axis bMin) bChild stack
    exact (rest.offer b (by omega) _).offer a (by omega) _

/-- **Every child that a turn puts on a fitting stack finds room.** -/
theorem Fits.room (h : Fits nodes triangleCount stack) (hpushes : Pushes nodes enterA enterB stack below) :
    below.length < maxDepth := by
  cases hpushes with
  | second here splits enters =>
    obtain ⟨levels, room, -⟩ := h.of_branch here
    omega
  | @first node stack n aMax bMin aChild bChild axis here splits enters =>
    obtain ⟨levels, room, -⟩ := h.of_branch here
    have hlength := length_offer_le (enterB axis bMin) bChild stack
    omega

/-- **Every stack that a walk over a sound tree comes to fits.** -/
theorem Sound.fits (h : Sound nodes triangleCount (maxDepth - 1) 0) {reported : List Nat}
    (hcomes : ComesTo nodes enterA enterB reported stack) : Fits nodes triangleCount stack := by
  induction hcomes with
  | root => exact .cons h (by decide) .nil
  | turn _ hturn ih => exact ih.turn hturn

/-! ## §D Trees that were checked or built -/

/-- No node of a subtree that spans triangles is on an axis that there is not. -/
theorem Spans.not_missesAxis {divides : Divides} {levels node stop start : Nat} {slots : List Nat}
    (h : Spans nodes divides levels node stop start slots) {n : Nat} (hlow : node ≤ n) (hhigh : n < stop) :
    ¬ MissesAxis nodes n := by
  rintro ⟨axis, aMax, bMin, aChild, bChild, hbranch, hmisses⟩
  induction h with
  | leaf here =>
    obtain rfl := Nat.le_antisymm hlow (Nat.le_of_lt_succ hhigh)
    rw [here] at hbranch
    cases hbranch
  | @branch levels node middle stop start as bs axis' number aMax' bMin' aChild' bChild' here splits divided
      aNext bNext a b iha ihb =>
    rcases Nat.eq_or_lt_of_le hlow with rfl | hbelow
    · rw [here] at hbranch
      cases hbranch
      rw [splits] at hmisses
      cases hmisses
    by_cases hside : n < middle
    · exact iha hbelow hside
    · exact ihb (Nat.le_of_not_lt hside) hhigh

variable {α : Type} [Scalar α]

/-- A tree that passed the check, with all branches on the axes 0, 1 and 2, or a tree that was built. -/
inductive CheckedOrBuilt (t : KdTree α) : Prop
  /-- It passed the check over some number of triangles. -/
  | checked {triangleCount : Nat} (valid : t.validate triangleCount = .ok ())
      (axes : ∀ n aMax bMin aChild bChild, KdNode.branch n aMax bMin aChild bChild ∈ t.nodes → n ≤ 2)
  /-- It was built, however triangles were sorted. -/
  | built {sort : Axis → List (Item α) → List (Item α)} (sorts : Sorts sort) {vertices : Array (Vec3 α)}
      {triangles : List (UInt16 × UInt16 × UInt16)} {order : Array Nat}
      (made : buildBy sort vertices triangles = .ok (t, order))

/-- An axis up to 2 is one that there is. -/
theorem ofNumber?_ne_none {n : UInt8} (h : n ≤ 2) : Axis.ofNumber? n.toNat ≠ none := by
  have hle : n.toNat ≤ 2 := h
  obtain hn | hn | hn : n.toNat = 0 ∨ n.toNat = 1 ∨ n.toNat = 2 := by omega
  all_goals
    rw [hn]
    exact Option.some_ne_none _

/-- Such a tree is sound from its root on, and its branches are on axes that there are. -/
theorem CheckedOrBuilt.sound {t : KdTree α} (h : CheckedOrBuilt t) :
    (∃ triangleCount, Sound t.nodes triangleCount (maxDepth - 1) 0) ∧ ∀ n, ¬ MissesAxis t.nodes n := by
  cases h with
  | checked valid axes =>
    refine ⟨⟨_, sound_of_validate valid⟩, ?_⟩
    rintro n ⟨axis, aMax, bMin, aChild, bChild, here, hmisses⟩
    exact ofNumber?_ne_none (axes _ _ _ _ _ (Array.mem_of_getElem? here)) hmisses
  | built sorts made =>
    obtain ⟨-, -, hvalid⟩ := arranged_of_buildBy sorts made
    refine ⟨⟨_, sound_of_validate hvalid⟩, ?_⟩
    obtain ⟨-, items, -, -, -, hspans⟩ := buildBy_eq_ok sorts made
    have hspans := hspans (fun _ _ _ _ _ => True) fun _ _ _ _ _ _ _ _ _ => trivial
    rintro n ⟨axis, aMax, bMin, aChild, bChild, here, hmisses⟩
    exact hspans.not_missesAxis (Nat.zero_le n) (Array.getElem?_eq_some_iff.mp here).1
      ⟨axis, aMax, bMin, aChild, bChild, here, hmisses⟩

/-- **The bounded stack of a walk loses nothing.** Over a tree that was checked or built, and whatever sides a
query accepts, a walk folds exactly the triangles that plain recursion over the accepted children reports, in
that order. Whatever stack it comes to on its way, every child that it puts on it finds room. -/
theorem walk_reports {t : KdTree α} (h : CheckedOrBuilt t) (enterA enterB : Axis → UInt16 → Bool) :
    (∃ met, Reports t.nodes enterA enterB 0 met ∧
      (∀ met', Reports t.nodes enterA enterB 0 met' → met' = met) ∧
      ∀ (σ : Type) (emit : σ → Nat → Except (Halt σ) σ) (s : σ),
        t.walk enterA enterB emit s = met.foldlM emit s) ∧
    ∀ reported stack, ComesTo t.nodes enterA enterB reported stack →
      (∀ (σ : Type) (emit : σ → Nat → Except (Halt σ) σ), ∃ turns, ∀ steps s,
        walkFrom t.nodes enterA enterB emit (turns + steps) [0] s =
          (reported.foldlM emit s).bind (walkFrom t.nodes enterA enterB emit steps stack)) ∧
      ∀ below, Pushes t.nodes enterA enterB stack below → below.length < maxDepth := by
  obtain ⟨⟨triangleCount, hsound⟩, haxes⟩ := h.sound
  constructor
  · obtain ⟨hstop, hreports⟩ := hsound.reports enterA enterB haxes
    refine ⟨_, hreports, fun met' => hreports.unique, fun σ emit s => ?_⟩
    rw [walk_eq_trace hsound, Trace.run, hstop]
    cases (trace t.nodes enterA enterB (maxDepth - 1) 0).met.foldlM emit s <;> rfl
  · intro reported stack hcomes
    refine ⟨fun σ emit => walkFrom_of_comesTo hcomes, fun below hpushes => ?_⟩
    exact (hsound.fits hcomes).room hpushes

/-- The deepest tree that passes the check: each branch has the next one as its first child, and all of them
have one leaf as their second. -/
def comb : KdTree Float32 where
  grid := Grid.ofBounds Bounds.empty
  nodes := ((List.range 15).map fun k => .branch 0 0 0 (UInt16.ofNat (k + 1)) 15).toArray.push (.leaf 0 1)

theorem comb_branch : ∀ k < 15, comb.nodes[k]? = some (.branch 0 0 0 (UInt16.ofNat (k + 1)) 15) := by decide

theorem comb_axis : Axis.ofNumber? (0 : UInt8).toNat = some .x := rfl

theorem comb_leaf : comb.nodes[15]? = some (.leaf 0 1) := by decide

theorem comb_child {k : Nat} (hk : k < 15) : (UInt16.ofNat (k + 1)).toNat = k + 1 :=
  UInt16.toNat_ofNat_of_lt' (show k + 1 < 65536 by omega)

theorem comb_sound (levels : Nat) (hlevels : levels ≤ 15) : Sound comb.nodes 1 levels (15 - levels) := by
  induction levels with
  | zero => exact .leaf comb_leaf (by decide)
  | succ levels ih =>
    have hchild : (UInt16.ofNat (15 - (levels + 1) + 1)).toNat = 15 - levels :=
      (comb_child (by omega)).trans (by omega)
    refine .branch (comb_branch _ (by omega)) (by omega) (show _ < 15 by omega) ?_
      (.leaf comb_leaf (by decide))
    rw [hchild]
    exact ih (by omega)

theorem comb_reports (levels : Nat) (hlevels : levels ≤ 15) :
    Reports comb.nodes (fun _ _ => true) (fun _ _ => true) (15 - levels) (List.replicate (levels + 1) 0) := by
  induction levels with
  | zero => exact .leaf comb_leaf
  | succ levels ih =>
    have hchild : (UInt16.ofNat (15 - (levels + 1) + 1)).toNat = 15 - levels :=
      (comb_child (by omega)).trans (by omega)
    rw [List.replicate_succ']
    refine .branch (comb_branch _ (by omega)) comb_axis (fun _ => ?_) (absurd · (by decide))
      (fun _ => .leaf comb_leaf) (absurd · (by decide))
    rw [hchild]
    exact ih (by omega)

/-- A walk that accepts everything fills its stack before it reports anything. -/
theorem comb_comesTo (k : Nat) (hk : k ≤ 15) :
    ComesTo comb.nodes (fun _ _ => true) (fun _ _ => true) [] (k :: List.replicate k 15) := by
  induction k with
  | zero => exact .root
  | succ k ih =>
    have hsecond : offer true 15 (List.replicate k 15) = List.replicate (k + 1) 15 :=
      pushNode_of_room (by rw [List.length_replicate, maxDepth]; omega) 15
    have hfirst : offer true (UInt16.ofNat (k + 1)) (List.replicate (k + 1) 15) =
        (k + 1) :: List.replicate (k + 1) 15 := by
      refine (pushNode_of_room ?_ _).trans (by rw [comb_child (by omega)])
      rw [List.length_replicate, maxDepth]
      omega
    rw [← hfirst, ← hsecond]
    exact .turn (ih (by omega)) (.branch (comb_branch k (by omega)) comb_axis)

/-- The walk over the deepest tree comes to a stack of sixteen nodes and loses none of them: it reports the
shared leaf once for each. -/
theorem comb_walk : ComesTo comb.nodes (fun _ _ => true) (fun _ _ => true) [] (15 :: List.replicate 15 15) ∧
    ∀ (σ : Type) (emit : σ → Nat → Except (Halt σ) σ) (s : σ),
      comb.walk (fun _ _ => true) (fun _ _ => true) emit s = (List.replicate 16 0).foldlM emit s := by
  have hvalid : comb.validate 1 = .ok () := (comb_sound 15 (Nat.le_refl 15)).validate_eq_ok
  have haxes : ∀ n aMax bMin aChild bChild, KdNode.branch n aMax bMin aChild bChild ∈ comb.nodes → n ≤ 2 := by
    intro n aMax bMin aChild bChild hmem
    obtain ⟨k, hk, hnode⟩ := Array.getElem_of_mem hmem
    replace hnode := (Array.getElem?_eq_getElem hk).trans (congrArg some hnode)
    obtain hbranch | rfl : k < 15 ∨ k = 15 := by
      have hsize : comb.nodes.size = 16 := by decide
      omega
    · rw [comb_branch k hbranch] at hnode
      cases hnode
      decide
    · rw [comb_leaf] at hnode
      cases hnode
  obtain ⟨⟨met, -, hunique, hwalk⟩, -⟩ :=
    walk_reports (.checked hvalid haxes) (fun _ _ => true) (fun _ _ => true)
  refine ⟨comb_comesTo 15 (Nat.le_refl 15), ?_⟩
  rw [hunique _ (comb_reports 15 (Nat.le_refl 15))]
  exact hwalk

end ConvexCollision.KdTree
