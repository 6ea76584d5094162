import Mathlib.Algebra.Group.Nat.Defs
import Mathlib.Tactic.ByContra
import ConvexCollision.KdTree.Walk

/-!
# ConvexCollision.Proofs.KdTree.Descent -- a walk with a stack is a descent by recursion

A walk keeps the nodes still to visit on a stack of bounded height, and counts the nodes that it
visits. `trace` is the same walk as plain recursion: it lists the triangles that are met, first side
before second, and what ends the walk before its time. Below a node of a `Sound` tree the two agree:
the stack never runs full and the count never runs out (`walk_eq_trace`), so a query can be reasoned
about as a recursion over the tree.

The nodes may still name an axis that there is not. `Visits` says which nodes a walk comes to, and
`trace_stop_eq_none_iff` that a walk is ended by nothing but such a node among them.
-/

namespace ConvexCollision.KdTree

/-! ## §A Traces -/

/-- What a walk comes across: the triangles that it meets in order, and the fault that ends it, if
one does. -/
structure Trace where
  /-- The triangles. -/
  met : List Nat
  /-- Why it goes no further. -/
  stop : Option Fault

namespace Trace

/-- The walk that meets nothing. -/
def nothing : Trace := ⟨[], none⟩

/-- The walk that a fault ends at once. -/
def fault (f : Fault) : Trace := ⟨[], some f⟩

/-- One walk after another one, which a fault in the first prevents. -/
def andThen (t u : Trace) : Trace :=
  match t.stop with
  | none => ⟨t.met ++ u.met, u.stop⟩
  | some f => ⟨t.met, some f⟩

/-- What a walk makes of a value that it folds the triangles into. -/
def run {σ : Type} (t : Trace) (emit : σ → Nat → Except (Halt σ) σ) (s : σ) : Except (Halt σ) σ :=
  (t.met.foldlM emit s).bind fun s =>
    match t.stop with
    | none => .ok s
    | some f => .error ⟨f, s⟩

@[simp] theorem stop_nothing : nothing.stop = none := rfl

theorem andThen_stop_eq_none {t u : Trace} :
    (t.andThen u).stop = none ↔ t.stop = none ∧ u.stop = none := by
  unfold andThen
  cases t.stop <;> simp

theorem andThen_met {t u : Trace} (h : t.stop = none) : (t.andThen u).met = t.met ++ u.met := by
  unfold andThen
  rw [h]

theorem mem_met_of_mem_andThen {t u : Trace} {i : Nat} (h : i ∈ (t.andThen u).met) :
    i ∈ t.met ∨ i ∈ u.met := by
  unfold andThen at h
  cases hstop : t.stop with
  | none =>
    rw [hstop] at h
    exact List.mem_append.mp h
  | some f =>
    rw [hstop] at h
    exact Or.inl h

theorem stop_of_andThen {t u : Trace} {f : Fault} (h : (t.andThen u).stop = some f) :
    t.stop = some f ∨ u.stop = some f := by
  unfold andThen at h
  cases hstop : t.stop with
  | none =>
    rw [hstop] at h
    exact Or.inr h
  | some g =>
    rw [hstop] at h
    exact Or.inl h

/-- Folding along two walks is folding along the first and then along the second. -/
theorem run_andThen {σ : Type} (t u : Trace) (emit : σ → Nat → Except (Halt σ) σ) (s : σ) :
    (t.andThen u).run emit s = (t.run emit s).bind (u.run emit) := by
  obtain ⟨met, stop⟩ := t
  cases stop with
  | none =>
    simp only [andThen, run, List.foldlM_append, bind]
    cases met.foldlM emit s <;> rfl
  | some f =>
    simp only [andThen, run]
    cases met.foldlM emit s <;> rfl

end Trace

/-! ## §B The descent -/

section Descent

variable (nodes : Array KdNode) (enterA enterB : Axis → UInt16 → Bool)

/-- What a walk comes across from a node on, when it comes across `below` from the children on. -/
def traceNode (below : Nat → Trace) (node : Nat) : Trace :=
  match nodes[node]? with
  | none => .fault .indexOutOfRange
  | some (.leaf triangleOffset triangleCount) =>
    ⟨List.range' triangleOffset.toNat triangleCount.toNat, none⟩
  | some (.branch axis aMax bMin aChild bChild) =>
    match Axis.ofNumber? axis.toNat with
    | none => .fault .axisOutOfRange
    | some axis =>
      (if enterA axis aMax then below aChild.toNat else .nothing).andThen
        (if enterB axis bMin then below bChild.toNat else .nothing)

/-- What a walk comes across from a node on, first side of a branch first, down to so many
branches. -/
def trace : (levels : Nat) → (node : Nat) → Trace
  | 0 => traceNode nodes enterA enterB fun _ => .fault .endlessWalk
  | levels + 1 => traceNode nodes enterA enterB (trace levels)

/-- From a node on there are at most so many branches on a path, every child is a node that comes
after its parent, and every leaf stays below a number of triangles. -/
inductive Sound (triangleCount : Nat) : (levels : Nat) → (node : Nat) → Prop
  /-- A leaf that stays within the triangles. -/
  | leaf {levels node : Nat} {triangleOffset count : UInt16}
      (here : nodes[node]? = some (.leaf triangleOffset count))
      (covers : triangleOffset.toNat + count.toNat ≤ triangleCount) : Sound triangleCount levels node
  /-- A branch over two sound nodes. -/
  | branch {levels node : Nat} {axis : UInt8} {aMax bMin aChild bChild : UInt16}
      (here : nodes[node]? = some (.branch axis aMax bMin aChild bChild))
      (aLater : node < aChild.toNat) (bLater : node < bChild.toNat)
      (a : Sound triangleCount levels aChild.toNat) (b : Sound triangleCount levels bChild.toNat) :
      Sound triangleCount (levels + 1) node

end Descent

section Walk

variable {nodes : Array KdNode} {enterA enterB : Axis → UInt16 → Bool} {triangleCount : Nat}

theorem Sound.lt_size {levels node : Nat} (h : Sound nodes triangleCount levels node) :
    node < nodes.size := by
  cases h with
  | leaf here => exact (Array.getElem?_eq_some_iff.mp here).1
  | branch here => exact (Array.getElem?_eq_some_iff.mp here).1

theorem traceNode_leaf {below : Nat → Trace} {node : Nat} {triangleOffset count : UInt16}
    (here : nodes[node]? = some (.leaf triangleOffset count)) :
    traceNode nodes enterA enterB below node =
      ⟨List.range' triangleOffset.toNat count.toNat, none⟩ := by
  unfold traceNode
  rw [here]

theorem trace_leaf {levels node : Nat} {triangleOffset count : UInt16}
    (here : nodes[node]? = some (.leaf triangleOffset count)) :
    trace nodes enterA enterB levels node =
      ⟨List.range' triangleOffset.toNat count.toNat, none⟩ := by
  cases levels with
  | zero => exact traceNode_leaf here
  | succ levels => exact traceNode_leaf here

theorem trace_branch {levels node : Nat} {n : UInt8} {aMax bMin aChild bChild : UInt16} {axis : Axis}
    (here : nodes[node]? = some (.branch n aMax bMin aChild bChild))
    (haxis : Axis.ofNumber? n.toNat = some axis) :
    trace nodes enterA enterB (levels + 1) node =
      (if enterA axis aMax then trace nodes enterA enterB levels aChild.toNat else .nothing).andThen
        (if enterB axis bMin then trace nodes enterA enterB levels bChild.toNat
          else .nothing) := by
  rw [trace, traceNode, here]
  simp only [haxis]

theorem trace_missingAxis {levels node : Nat} {n : UInt8} {aMax bMin aChild bChild : UInt16}
    (here : nodes[node]? = some (.branch n aMax bMin aChild bChild))
    (haxis : Axis.ofNumber? n.toNat = none) :
    trace nodes enterA enterB (levels + 1) node = .fault .axisOutOfRange := by
  rw [trace, traceNode, here]
  simp only [haxis]

/-! ## §C The walk follows the descent -/

variable {σ : Type} {emit : σ → Nat → Except (Halt σ) σ}

theorem pushNode_of_room {stack : List Nat} (h : stack.length < maxDepth) (child : UInt16) :
    pushNode stack child = child.toNat :: stack := if_pos h

theorem walkFrom_nil (steps : Nat) (s : σ) :
    walkFrom nodes enterA enterB emit steps [] s = .ok s := by
  cases steps <;> rfl

/-- A side of a branch that is entered is walked before what lies below it on the stack, and one that
is not costs nothing. -/
theorem walkFrom_side {levels child : Nat} {stack : List Nat} (enter : Bool)
    (h : ∃ visited, visited < 2 ^ (levels + 1) ∧ ∀ steps s,
      walkFrom nodes enterA enterB emit (visited + steps) (child :: stack) s =
        ((trace nodes enterA enterB levels child).run emit s).bind
          (walkFrom nodes enterA enterB emit steps stack)) :
    ∃ visited, visited < 2 ^ (levels + 1) ∧ ∀ steps s,
      walkFrom nodes enterA enterB emit (visited + steps)
          (if enter then child :: stack else stack) s =
        ((if enter then trace nodes enterA enterB levels child else .nothing).run emit s).bind
          (walkFrom nodes enterA enterB emit steps stack) := by
  cases enter with
  | true => exact h
  | false =>
    refine ⟨0, Nat.two_pow_pos _, ?_⟩
    intro steps s
    rw [Nat.zero_add]
    rfl

/-- With room on the stack for a node's descendants and steps for visiting them, the walk takes the
top node off the stack as the descent from it does. -/
theorem walkFrom_cons {levels node : Nat} (h : Sound nodes triangleCount levels node) :
    ∀ stack : List Nat, stack.length + levels < maxDepth →
      ∃ visited, visited < 2 ^ (levels + 1) ∧ ∀ steps s,
        walkFrom nodes enterA enterB emit (visited + steps) (node :: stack) s =
          ((trace nodes enterA enterB levels node).run emit s).bind
            (walkFrom nodes enterA enterB emit steps stack) := by
  -- on the levels that are left, for any stack: the second child waits on the stack
  -- while the first one is walked, which takes one place and leaves one level less
  induction h with
  | @leaf levels node triangleOffset count here covers =>
    intro stack _
    refine ⟨1, Nat.one_lt_two_pow (Nat.succ_ne_zero levels), ?_⟩
    intro steps s
    rw [Nat.add_comm 1 steps, trace_leaf here]
    simp only [walkFrom, here, Trace.run, bind]
    cases (List.range' triangleOffset.toNat count.toNat).foldlM emit s <;> rfl
  | @branch levels node n aMax bMin aChild bChild here aLater bLater a b iha ihb =>
    intro stack room
    cases haxis : Axis.ofNumber? n.toNat with
    | none =>
      refine ⟨1, Nat.one_lt_two_pow (Nat.succ_ne_zero _), ?_⟩
      intro steps s
      rw [Nat.add_comm 1 steps, trace_missingAxis here haxis]
      simp only [walkFrom, here, haxis, Trace.run, Trace.fault, Except.bind]
      rfl
    | some axis =>
      have hstackB : (if enterB axis bMin then pushNode stack bChild else stack) =
          if enterB axis bMin then bChild.toNat :: stack else stack := by
        rw [pushNode_of_room (by omega)]
      -- the first child finds at most one node more on the stack
      have hlen : (if enterB axis bMin then bChild.toNat :: stack else stack).length ≤
          stack.length + 1 := by
        split <;> simp
      obtain ⟨va, hva, stepA⟩ := walkFrom_side (enterA axis aMax)
        (iha (if enterB axis bMin then bChild.toNat :: stack else stack) (by omega))
      obtain ⟨vb, hvb, stepB⟩ := walkFrom_side (enterB axis bMin) (ihb stack (by omega))
      refine ⟨1 + va + vb, ?_, ?_⟩
      · rw [Nat.pow_succ]
        omega
      · intro steps s
        have hsteps : 1 + va + vb + steps = (va + (vb + steps)) + 1 := by omega
        rw [hsteps, trace_branch here haxis, Trace.run_andThen]
        simp only [walkFrom, here, haxis]
        rw [hstackB, pushNode_of_room (by omega), stepA]
        cases (if enterA axis aMax then trace nodes enterA enterB levels aChild.toNat
            else Trace.nothing).run emit s with
        | error halt => rfl
        | ok s => exact stepB steps s

/-- The walk over a sound tree is the descent from its root. -/
theorem walk_eq_trace {α : Type} [Scalar α] {t : KdTree α}
    (h : Sound t.nodes triangleCount (maxDepth - 1) 0) (s : σ) :
    t.walk enterA enterB emit s =
      (trace t.nodes enterA enterB (maxDepth - 1) 0).run emit s := by
  have hne : t.nodes.isEmpty = false := by
    have hsize := h.lt_size
    rw [Array.isEmpty_eq_false_iff]
    intro hempty
    rw [hempty] at hsize
    exact absurd hsize (Nat.not_lt_zero 0)
  obtain ⟨visited, hlt, hwalk⟩ :=
    @walkFrom_cons t.nodes enterA enterB triangleCount σ emit _ _ h [] (by decide)
  -- a tree of this depth has fewer nodes than the walk has steps
  have hlimit : walkLimit = visited + (walkLimit - visited) := by
    have : visited < 65536 := hlt
    unfold walkLimit
    omega
  rw [walk, hne, if_neg Bool.false_ne_true, hlimit, hwalk]
  cases (trace t.nodes enterA enterB (maxDepth - 1) 0).run emit s with
  | error halt => rfl
  | ok s => exact walkFrom_nil _ s

end Walk

/-! ## §D What a walk meets, and what ends it -/

section Stop

variable {nodes : Array KdNode} {enterA enterB : Axis → UInt16 → Bool} {triangleCount : Nat}

/-- A walk that starts at `root` comes to a node: it is the root, or a child on a side that is
entered of a node that it comes to. -/
inductive Visits (nodes : Array KdNode) (enterA enterB : Axis → UInt16 → Bool) (root : Nat) :
    Nat → Prop
  /-- A walk comes to where it starts. -/
  | root : Visits nodes enterA enterB root root
  /-- It comes to the first child of a branch whose first side it enters. -/
  | first {node : Nat} {n : UInt8} {aMax bMin aChild bChild : UInt16} {axis : Axis}
      (parent : Visits nodes enterA enterB root node)
      (here : nodes[node]? = some (.branch n aMax bMin aChild bChild))
      (splits : Axis.ofNumber? n.toNat = some axis) (enters : enterA axis aMax = true) :
      Visits nodes enterA enterB root aChild.toNat
  /-- It comes to the second child of a branch whose second side it enters. -/
  | second {node : Nat} {n : UInt8} {aMax bMin aChild bChild : UInt16} {axis : Axis}
      (parent : Visits nodes enterA enterB root node)
      (here : nodes[node]? = some (.branch n aMax bMin aChild bChild))
      (splits : Axis.ofNumber? n.toNat = some axis) (enters : enterB axis bMin = true) :
      Visits nodes enterA enterB root bChild.toNat

/-- The node is a branch on an axis that there is not. -/
def MissesAxis (nodes : Array KdNode) (node : Nat) : Prop :=
  ∃ (n : UInt8) (aMax bMin aChild bChild : UInt16),
    nodes[node]? = some (.branch n aMax bMin aChild bChild) ∧ Axis.ofNumber? n.toNat = none

theorem Visits.trans {root middle node : Nat} (h : Visits nodes enterA enterB root middle)
    (g : Visits nodes enterA enterB middle node) : Visits nodes enterA enterB root node := by
  induction g with
  | root => exact h
  | first _ here splits enters ih => exact .first ih here splits enters
  | second _ here splits enters ih => exact .second ih here splits enters

/-- What a walk visits from a leaf on is the leaf. -/
theorem visits_leaf {root node : Nat} {triangleOffset count : UInt16}
    (here : nodes[root]? = some (.leaf triangleOffset count))
    (h : Visits nodes enterA enterB root node) : node = root := by
  induction h with
  | root => rfl
  | first _ hbranch _ _ ih =>
    rw [ih, here] at hbranch
    cases hbranch
  | second _ hbranch _ _ ih =>
    rw [ih, here] at hbranch
    cases hbranch

/-- What a walk visits from a branch on is the branch, or lies below a child that is entered. -/
theorem visits_branch {root node : Nat} {n : UInt8} {aMax bMin aChild bChild : UInt16}
    (here : nodes[root]? = some (.branch n aMax bMin aChild bChild))
    (h : Visits nodes enterA enterB root node) :
    node = root ∨ ∃ axis, Axis.ofNumber? n.toNat = some axis ∧
      ((enterA axis aMax = true ∧ Visits nodes enterA enterB aChild.toNat node) ∨
        (enterB axis bMin = true ∧ Visits nodes enterA enterB bChild.toNat node)) := by
  -- on how the walk comes to the node: its parent is the branch, or lies below one child
  induction h with
  | root => exact Or.inl rfl
  | first parent hbranch splits enters ih =>
    rcases ih with rfl | ⟨axis, haxis, ⟨hA, ha⟩ | ⟨hB, hb⟩⟩
    · rw [here] at hbranch
      cases hbranch
      exact Or.inr ⟨_, splits, Or.inl ⟨enters, .root⟩⟩
    · exact Or.inr ⟨axis, haxis, Or.inl ⟨hA, .first ha hbranch splits enters⟩⟩
    · exact Or.inr ⟨axis, haxis, Or.inr ⟨hB, .first hb hbranch splits enters⟩⟩
  | second parent hbranch splits enters ih =>
    rcases ih with rfl | ⟨axis, haxis, ⟨hA, ha⟩ | ⟨hB, hb⟩⟩
    · rw [here] at hbranch
      cases hbranch
      exact Or.inr ⟨_, splits, Or.inr ⟨enters, .root⟩⟩
    · exact Or.inr ⟨axis, haxis, Or.inl ⟨hA, .second ha hbranch splits enters⟩⟩
    · exact Or.inr ⟨axis, haxis, Or.inr ⟨hB, .second hb hbranch splits enters⟩⟩

/-- What holds of leaves within the triangles and of the missing axis, and of one walk after another
one when it holds of both, holds of every walk over a sound tree. -/
theorem trace_induction {P : Trace → Prop} {levels node : Nat}
    (h : Sound nodes triangleCount levels node)
    (leaf : ∀ start count, start + count ≤ triangleCount → P ⟨List.range' start count, none⟩)
    (missing : P (.fault .axisOutOfRange)) (nothing : P .nothing)
    (andThen : ∀ t u, P t → P u → P (t.andThen u)) :
    P (trace nodes enterA enterB levels node) := by
  -- on the levels that are left, so that both children are at hand
  induction h with
  | leaf here covers =>
    rw [trace_leaf here]
    exact leaf _ _ covers
  | @branch levels node n aMax bMin aChild bChild here _ _ _ _ iha ihb =>
    cases haxis : Axis.ofNumber? n.toNat with
    | none =>
      rw [trace_missingAxis here haxis]
      exact missing
    | some axis =>
      rw [trace_branch here haxis]
      refine andThen _ _ ?_ ?_
      · split
        · exact iha
        · exact nothing
      · split
        · exact ihb
        · exact nothing

/-- A triangle that is met lies in a leaf, which stays within the triangles. -/
theorem lt_of_mem_trace {levels node : Nat} (h : Sound nodes triangleCount levels node) :
    ∀ i ∈ (trace nodes enterA enterB levels node).met, i < triangleCount := by
  refine trace_induction (P := fun t => ∀ i ∈ t.met, i < triangleCount) h ?_ ?_ ?_ ?_
  · intro start count covers i hi
    rw [List.mem_range'_1] at hi
    omega
  · exact fun i hi => absurd hi List.not_mem_nil
  · exact fun i hi => absurd hi List.not_mem_nil
  · intro t u ht hu i hi
    rcases Trace.mem_met_of_mem_andThen hi with hi | hi
    · exact ht i hi
    · exact hu i hi

/-- A side that is not entered stops nothing, and one that is stops where its child does. -/
theorem side_stop_eq_none {enter : Bool} {t : Trace} :
    (if enter then t else .nothing).stop = none ↔ (enter = true → t.stop = none) := by
  cases enter <;> simp

/-- A walk over a sound tree comes to its end exactly when it comes to no branch on an axis that
there is not. -/
theorem trace_stop_eq_none_iff {levels node : Nat} (h : Sound nodes triangleCount levels node) :
    (trace nodes enterA enterB levels node).stop = none ↔
      ∀ n, Visits nodes enterA enterB node n → ¬ MissesAxis nodes n := by
  induction h with
  | leaf here covers =>
    rw [trace_leaf here]
    refine ⟨?_, fun _ => rfl⟩
    rintro - n hn ⟨_, _, _, _, _, hbranch, -⟩
    rw [visits_leaf here hn, here] at hbranch
    cases hbranch
  | @branch levels node k aMax bMin aChild bChild here _ _ _ _ iha ihb =>
    cases haxis : Axis.ofNumber? k.toNat with
    | none =>
      rw [trace_missingAxis here haxis]
      refine ⟨fun hstop => absurd hstop (Option.some_ne_none _), fun hclear => ?_⟩
      exact absurd ⟨k, aMax, bMin, aChild, bChild, here, haxis⟩ (hclear node .root)
    | some axis =>
      rw [trace_branch here haxis, Trace.andThen_stop_eq_none, side_stop_eq_none, side_stop_eq_none,
        iha, ihb]
      constructor
      · rintro ⟨hA, hB⟩ n hn hmisses
        rcases visits_branch here hn with rfl | ⟨axis', haxis', hside⟩
        · obtain ⟨_, _, _, _, _, hbranch, hnone⟩ := hmisses
          rw [here] at hbranch
          cases hbranch
          rw [haxis] at hnone
          exact absurd hnone (Option.some_ne_none _)
        · rw [haxis] at haxis'
          cases haxis'
          rcases hside with ⟨hen, hv⟩ | ⟨hen, hv⟩
          · exact hA hen n hv hmisses
          · exact hB hen n hv hmisses
      · intro hclear
        exact ⟨fun hen n hn => hclear n (Visits.trans (.first .root here haxis hen) hn),
          fun hen n hn => hclear n (Visits.trans (.second .root here haxis hen) hn)⟩

/-- Nothing but a missing axis ends a walk over a sound tree before its time. -/
theorem trace_stop {levels node : Nat} (h : Sound nodes triangleCount levels node) :
    ∀ f, (trace nodes enterA enterB levels node).stop = some f → f = .axisOutOfRange := by
  refine trace_induction (P := fun t => ∀ f, t.stop = some f → f = .axisOutOfRange) h ?_ ?_ ?_ ?_
  · exact fun _ _ _ f hf => absurd hf.symm (Option.some_ne_none f)
  · exact fun f hf => (Option.some.inj hf).symm
  · exact fun f hf => absurd hf.symm (Option.some_ne_none f)
  · intro t u ht hu f hf
    rcases Trace.stop_of_andThen hf with hf | hf
    · exact ht f hf
    · exact hu f hf

/-- A walk over a sound tree is ended by the first branch on a missing axis that it comes to. -/
theorem trace_stop_eq_some_iff {levels node : Nat} (h : Sound nodes triangleCount levels node) :
    (trace nodes enterA enterB levels node).stop = some .axisOutOfRange ↔
      ∃ n, Visits nodes enterA enterB node n ∧ MissesAxis nodes n := by
  have hnone := @trace_stop_eq_none_iff nodes enterA enterB _ _ _ h
  cases hstop : (trace nodes enterA enterB levels node).stop with
  | none =>
    refine ⟨fun hsome => absurd hsome.symm (Option.some_ne_none _), ?_⟩
    rintro ⟨n, hn, hmisses⟩
    exact absurd hmisses (hnone.mp hstop n hn)
  | some f =>
    refine ⟨fun _ => ?_, fun _ => by rw [trace_stop h f hstop]⟩
    by_contra hclear
    rw [hnone.mpr fun n hn hmisses => hclear ⟨n, hn, hmisses⟩] at hstop
    exact absurd hstop.symm (Option.some_ne_none f)

end Stop

end ConvexCollision.KdTree
