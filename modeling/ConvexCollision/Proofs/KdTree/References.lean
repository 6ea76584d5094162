import Mathlib.Data.List.Chain
import Mathlib.Logic.Relation
import ConvexCollision.Proofs.KdTree.Validate

/-!
# ConvexCollision.Proofs.KdTree.References -- what the check of a tree decides

The nodes of a table refer to each other by number, and nothing keeps a table that was read from a file
from referring in circles, to one node twice, or to a node that there is not. `SafeToWalk` says of the
nodes that the references lead to from the root what a walk relies on. The check decides exactly that
(`validate_eq_ok_iff`), and it looks up no node that there is not while it does so: it takes only nodes of
the table off its stack (`Takes`), since it puts no other one there.

Safety in this sense is soundness with as many branches below the root as the depth limit leaves. The one
speaks of paths, the other of levels, and each is turned into the other by one induction
(`Sound.length_le`, `sound_of_paths`).
-/

namespace ConvexCollision.KdTree

variable {nodes : Array KdNode} {triangleCount levels node child : Nat}

/-! ## §A References -/

/-- A branch refers to its two children. There need not be a node with the number that it gives. -/
inductive Refers (nodes : Array KdNode) (node : Nat) : Nat → Prop
  /-- To the first child. -/
  | first {axis : UInt8} {aMax bMin aChild bChild : UInt16}
      (here : nodes[node]? = some (.branch axis aMax bMin aChild bChild)) : Refers nodes node aChild.toNat
  /-- To the second child. -/
  | second {axis : UInt8} {aMax bMin aChild bChild : UInt16}
      (here : nodes[node]? = some (.branch axis aMax bMin aChild bChild)) : Refers nodes node bChild.toNat

/-- References lead from one node to another. -/
abbrev LeadsTo (nodes : Array KdNode) : Nat → Nat → Prop := Relation.ReflTransGen (Refers nodes)

/-- A leaf refers to nothing. -/
theorem not_refers_of_leaf {triangleOffset count : UInt16}
    (here : nodes[node]? = some (.leaf triangleOffset count)) : ¬ Refers nodes node child := by
  rintro (hbranch | hbranch)
  · rw [here] at hbranch
    cases hbranch
  · rw [here] at hbranch
    cases hbranch

/-- A branch refers to nothing but its children. -/
theorem eq_of_refers {axis : UInt8} {aMax bMin aChild bChild : UInt16}
    (here : nodes[node]? = some (.branch axis aMax bMin aChild bChild)) (h : Refers nodes node child) :
    child = aChild.toNat ∨ child = bChild.toNat := by
  cases h with
  | first hbranch =>
    rw [here] at hbranch
    cases hbranch
    exact .inl rfl
  | second hbranch =>
    rw [here] at hbranch
    cases hbranch
    exact .inr rfl

/-- What a walk relies on, of the nodes to which references lead from the root. -/
structure SafeToWalk (nodes : Array KdNode) (triangleCount : Nat) : Prop where
  /-- There is a root. -/
  nonempty : nodes ≠ #[]
  /-- Every leaf stays within the triangles. -/
  leaf_covers : ∀ node, LeadsTo nodes 0 node → ∀ triangleOffset count,
    nodes[node]? = some (.leaf triangleOffset count) →
      triangleOffset.toNat + count.toNat ≤ triangleCount
  /-- The children of every branch come after it, and they are nodes of the table. -/
  child_later : ∀ node, LeadsTo nodes 0 node → ∀ child, Refers nodes node child →
    node < child ∧ child < nodes.size
  /-- No path of references visits more nodes than a walk keeps waiting. -/
  path_length : ∀ path, List.IsChain (Refers nodes) (0 :: path) → (0 :: path).length ≤ maxDepth

/-! ## §B Soundness by paths -/

/-- What a sound node refers to is sound with one level less. -/
theorem Sound.of_refers (h : Sound nodes triangleCount levels node) (hrefers : Refers nodes node child) :
    ∃ below, levels = below + 1 ∧ node < child ∧ Sound nodes triangleCount below child := by
  cases h with
  | leaf here => exact absurd hrefers (not_refers_of_leaf here)
  | branch here aLater bLater a b =>
    rcases eq_of_refers here hrefers with rfl | rfl
    · exact ⟨_, rfl, aLater, a⟩
    · exact ⟨_, rfl, bLater, b⟩

/-- Every node to which references lead from a sound one is sound. -/
theorem Sound.of_leadsTo (h : Sound nodes triangleCount levels node) (hleads : LeadsTo nodes node child) :
    ∃ below, Sound nodes triangleCount below child := by
  induction hleads with
  | refl => exact ⟨levels, h⟩
  | tail _ hrefers ih =>
    obtain ⟨_, hsound⟩ := ih
    obtain ⟨below, -, -, hchild⟩ := hsound.of_refers hrefers
    exact ⟨below, hchild⟩

/-- A path from a sound node goes down through no more nodes than there are levels. -/
theorem Sound.length_le {path : List Nat} (h : Sound nodes triangleCount levels node)
    (hpath : List.IsChain (Refers nodes) (node :: path)) : path.length ≤ levels := by
  induction path generalizing levels node with
  | nil => exact Nat.zero_le levels
  | cons child path ih =>
    obtain ⟨hrefers, hrest⟩ := List.isChain_cons_cons.mp hpath
    obtain ⟨below, rfl, -, hsound⟩ := h.of_refers hrefers
    exact Nat.succ_le_succ (ih hsound hrest)

/-- A node is sound when everything to which references lead from it is as it should be and no path from
it is longer than the levels. -/
theorem sound_of_paths (levels : Nat) (hnode : node < nodes.size)
    (hleaf : ∀ n, LeadsTo nodes node n → ∀ triangleOffset count,
      nodes[n]? = some (.leaf triangleOffset count) → triangleOffset.toNat + count.toNat ≤ triangleCount)
    (hchild : ∀ n, LeadsTo nodes node n → ∀ child, Refers nodes n child → n < child ∧ child < nodes.size)
    (hpath : ∀ path, List.IsChain (Refers nodes) (node :: path) → path.length ≤ levels) :
    Sound nodes triangleCount levels node := by
  induction levels generalizing node with
  | zero =>
    cases here : nodes[node]? with
    | none => exact absurd (Array.getElem?_eq_none_iff.mp here) (Nat.not_le_of_lt hnode)
    | some found =>
      cases found with
      | leaf triangleOffset count => exact .leaf here (hleaf node .refl _ _ here)
      | branch axis aMax bMin aChild bChild =>
        -- the way to the first child would be too long
        have hlong := hpath [aChild.toNat] (by simpa using Refers.first here)
        exact absurd hlong (Nat.not_succ_le_zero 0)
  | succ levels ih =>
    have hbelow : ∀ child, Refers nodes node child → Sound nodes triangleCount levels child := by
      intro child hrefers
      refine ih (hchild node .refl child hrefers).2 (fun n hn => hleaf n (.head hrefers hn))
        (fun n hn => hchild n (.head hrefers hn)) fun path hpath' => ?_
      exact Nat.le_of_succ_le_succ (hpath (child :: path) (List.isChain_cons_cons.mpr ⟨hrefers, hpath'⟩))
    cases here : nodes[node]? with
    | none => exact absurd (Array.getElem?_eq_none_iff.mp here) (Nat.not_le_of_lt hnode)
    | some found =>
      cases found with
      | leaf triangleOffset count => exact .leaf here (hleaf node .refl _ _ here)
      | branch axis aMax bMin aChild bChild =>
        exact .branch here (hchild node .refl _ (.first here)).1 (hchild node .refl _ (.second here)).1
          (hbelow _ (.first here)) (hbelow _ (.second here))

/-- A table is safe to walk exactly when its root is sound within the depth limit. -/
theorem sound_iff_safeToWalk :
    Sound nodes triangleCount (maxDepth - 1) 0 ↔ SafeToWalk nodes triangleCount := by
  constructor
  · intro h
    constructor
    case nonempty => exact fun hempty => absurd h.lt_size (by simp [hempty])
    case leaf_covers =>
      intro node hleads triangleOffset count here
      obtain ⟨below, hsound⟩ := h.of_leadsTo hleads
      cases hsound with
      | leaf hleaf covers =>
        rw [here] at hleaf
        cases hleaf
        exact covers
      | branch hbranch =>
        rw [here] at hbranch
        cases hbranch
    case child_later =>
      intro node hleads child hrefers
      obtain ⟨below, hsound⟩ := h.of_leadsTo hleads
      obtain ⟨_, -, hlater, hchild⟩ := hsound.of_refers hrefers
      exact ⟨hlater, hchild.lt_size⟩
    case path_length =>
      intro path hpath
      exact Nat.succ_le_succ (h.length_le hpath)
  · intro h
    have hroot : 0 < nodes.size := Array.size_pos_iff.mpr h.nonempty
    exact sound_of_paths _ hroot h.leaf_covers h.child_later fun path hpath =>
      Nat.le_of_succ_le_succ (h.path_length path hpath)

/-! ## §C The check -/

/-- The check of what waits takes an entry off its stack, at once or after it has looked at others. -/
inductive Takes (nodes : Array KdNode) (triangleCount : Nat) : List (Nat × Nat) → Nat × Nat → Prop
  /-- The entry on top. -/
  | top {entry : Nat × Nat} {waiting : List (Nat × Nat)} :
      Takes nodes triangleCount (entry :: waiting) entry
  /-- An entry that it comes to after the one on top, which was accepted. -/
  | later {node depth : Nat} {next waiting : List (Nat × Nat)} {entry : Nat × Nat}
      (accepted : checkNode nodes triangleCount node depth = .ok next)
      (rest : Takes nodes triangleCount (next ++ waiting) entry) :
      Takes nodes triangleCount ((node, depth) :: waiting) entry

/-- Only nodes of the table are looked at when only such nodes wait. -/
theorem Takes.lt_size {waiting : List (Nat × Nat)} {entry : Nat × Nat}
    (h : Takes nodes triangleCount waiting entry) (hwaiting : ∀ e ∈ waiting, e.1 < nodes.size) :
    entry.1 < nodes.size := by
  induction h with
  | top => exact hwaiting _ List.mem_cons_self
  | later accepted rest ih =>
    refine ih fun e he => ?_
    rcases List.mem_append.mp he with he | he
    · obtain ⟨-, ⟨_, _, -, -, rfl⟩ | ⟨_, _, _, _, _, -, -, ⟨-, ha⟩, ⟨-, hb⟩, rfl⟩⟩ :=
        checkNode_eq_ok accepted
      · exact absurd he List.not_mem_nil
      · simp only [List.mem_cons, List.not_mem_nil, or_false] at he
        rcases he with rfl | rfl
        · exact hb
        · exact ha
    · exact hwaiting e (List.mem_cons_of_mem _ he)

/-- **What the check of a tree decides.** Whatever the table of nodes, the check looks at no node outside of
it, and it accepts the tree exactly when the table is safe to walk. -/
theorem validate_eq_ok_iff {α : Type} (t : KdTree α) (triangleCount : Nat) :
    (t.nodes ≠ #[] → ∀ entry, Takes t.nodes triangleCount [(0, 0)] entry → entry.1 < t.nodes.size) ∧
      (t.validate triangleCount = .ok () ↔ SafeToWalk t.nodes triangleCount) := by
  constructor
  · intro hsome entry htakes
    have hroot : 0 < t.nodes.size := Array.size_pos_iff.mpr hsome
    exact htakes.lt_size (List.forall_mem_singleton.mpr hroot)
  · rw [← sound_iff_safeToWalk]
    exact ⟨sound_of_validate, Sound.validate_eq_ok⟩

/-- A tree whose root refers twice to one leaf. -/
def sharedLeaf : KdTree Float32 :=
  { grid := Grid.ofBounds Bounds.empty, nodes := #[.branch 0 0 0 1 1, .leaf 1 1] }

/-- The check accepts it over two triangles: nodes may be shared. -/
theorem sharedLeaf_safeToWalk : SafeToWalk sharedLeaf.nodes 2 ∧
    ∀ entry, Takes sharedLeaf.nodes 2 [(0, 0)] entry → entry.1 < 2 := by
  have hleaf : Sound sharedLeaf.nodes 2 (maxDepth - 2) 1 := .leaf rfl (by decide)
  have hroot : Sound sharedLeaf.nodes 2 (maxDepth - 1) 0 :=
    .branch rfl (by decide) (by decide) hleaf hleaf
  obtain ⟨htakes, hiff⟩ := validate_eq_ok_iff sharedLeaf 2
  exact ⟨hiff.mp hroot.validate_eq_ok, htakes (by decide)⟩

end ConvexCollision.KdTree
