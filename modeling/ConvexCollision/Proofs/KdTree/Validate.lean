import ConvexCollision.KdTree.Validate
import ConvexCollision.Proofs.KdTree.Descent

/-!
# ConvexCollision.Proofs.KdTree.Validate -- the trees that pass the check are the sound ones

The check keeps nodes waiting with the number of nodes above each. What is demanded of a waiting node
at once, and of what it makes wait later, is together that the node is sound with as many branches
below it as the depth limit leaves. So the check succeeds when every waiting node is sound
(`checkAll_eq_ok`), and only then (`sound_of_checkAll`).
-/

namespace ConvexCollision.KdTree

variable {nodes : Array KdNode} {triangleCount : Nat}

/-- What the check accepts of a node: a leaf within the triangles, or a branch that is not too deep
and has two later nodes as its children, which wait in turn. -/
theorem checkNode_eq_ok {node depth : Nat} {next : List (Nat × Nat)}
    (h : checkNode nodes triangleCount node depth = .ok next) :
    depth < maxDepth ∧
      ((∃ triangleOffset count, nodes[node]? = some (.leaf triangleOffset count) ∧
          triangleOffset.toNat + count.toNat ≤ triangleCount ∧ next = []) ∨
        (∃ axis aMax bMin aChild bChild,
          nodes[node]? = some (.branch axis aMax bMin aChild bChild) ∧ depth + 1 < maxDepth ∧
          (node < aChild.toNat ∧ aChild.toNat < nodes.size) ∧
          (node < bChild.toNat ∧ bChild.toNat < nodes.size) ∧
          next = [(bChild.toNat, depth + 1), (aChild.toNat, depth + 1)])) := by
  unfold checkNode at h
  by_cases hdepth : maxDepth < depth + 1
  · rw [if_pos hdepth] at h
    cases h
  rw [if_neg hdepth] at h
  refine ⟨by omega, ?_⟩
  cases hnode : nodes[node]? with
  | none =>
    rw [hnode] at h
    cases h
  | some found =>
    rw [hnode] at h
    cases found with
    | leaf triangleOffset count =>
      simp only at h
      by_cases hstop : triangleCount < triangleOffset.toNat + count.toNat
      · rw [if_pos hstop] at h
        cases h
      · rw [if_neg hstop] at h
        cases h
        exact Or.inl ⟨triangleOffset, count, rfl, by omega, rfl⟩
    | branch axis aMax bMin aChild bChild =>
      simp only at h
      by_cases hbelow : maxDepth < depth + 2
      · rw [if_pos hbelow] at h
        cases h
      rw [if_neg hbelow] at h
      by_cases ha : aChild.toNat ≤ node ∨ nodes.size ≤ aChild.toNat
      · rw [if_pos ha] at h
        cases h
      rw [if_neg ha] at h
      by_cases hb : bChild.toNat ≤ node ∨ nodes.size ≤ bChild.toNat
      · rw [if_pos hb] at h
        cases h
      rw [if_neg hb] at h
      cases h
      exact Or.inr ⟨axis, aMax, bMin, aChild, bChild, rfl, by omega, by omega, by omega, rfl⟩

/-- A leaf within the triangles is accepted, and makes nothing wait. -/
theorem checkNode_leaf {node depth : Nat} {triangleOffset count : UInt16} (hdepth : depth < maxDepth)
    (here : nodes[node]? = some (.leaf triangleOffset count))
    (covers : triangleOffset.toNat + count.toNat ≤ triangleCount) :
    checkNode nodes triangleCount node depth = .ok [] := by
  unfold checkNode
  rw [if_neg (by omega), here]
  exact if_neg (by omega)

/-- A branch with two later nodes as its children is accepted where a level is left for them. -/
theorem checkNode_branch {node depth : Nat} {axis : UInt8} {aMax bMin aChild bChild : UInt16}
    (hdepth : depth + 1 < maxDepth)
    (here : nodes[node]? = some (.branch axis aMax bMin aChild bChild))
    (ha : node < aChild.toNat ∧ aChild.toNat < nodes.size)
    (hb : node < bChild.toNat ∧ bChild.toNat < nodes.size) :
    checkNode nodes triangleCount node depth =
      .ok [(bChild.toNat, depth + 1), (aChild.toNat, depth + 1)] := by
  unfold checkNode
  rw [if_neg (by omega), here]
  simp only
  rw [if_neg (by omega), if_neg (by omega), if_neg (by omega)]

/-- Every node that waits when the check succeeds is sound. -/
theorem sound_of_checkAll {waiting : List (Nat × Nat)}
    (h : checkAll nodes triangleCount waiting = .ok ()) :
    ∀ e ∈ waiting, Sound nodes triangleCount (maxDepth - 1 - e.2) e.1 := by
  -- on the run of the check, which puts the children of a branch in front of what waits
  induction waiting using checkAll.induct nodes triangleCount with
  | case1 => exact fun e he => absurd he List.not_mem_nil
  | case2 node depth waiting error hcheck =>
    rw [checkAll] at h
    split at h
    · cases h
    · rename_i next hnext
      rw [hcheck] at hnext
      cases hnext
  | case3 node depth waiting next hcheck ih =>
    rw [checkAll] at h
    split at h
    · cases h
    rename_i next' hnext
    rw [hcheck] at hnext
    cases hnext
    have hsound := ih h
    intro e he
    rcases List.mem_cons.mp he with rfl | he
    · obtain ⟨hdepth, ⟨triangleOffset, count, here, covers, -⟩ |
        ⟨axis, aMax, bMin, aChild, bChild, here, hbelow, ⟨hA, -⟩, ⟨hB, -⟩, rfl⟩⟩ :=
        checkNode_eq_ok hcheck
      · exact .leaf here covers
      -- a branch has one level more below it than its children
      · have hlevels : maxDepth - 1 - depth = maxDepth - 1 - (depth + 1) + 1 := by omega
        show Sound nodes triangleCount (maxDepth - 1 - depth) node
        rw [hlevels]
        exact .branch here hA hB (hsound (aChild.toNat, depth + 1) (by simp))
          (hsound (bChild.toNat, depth + 1) (by simp))
    · exact hsound e (List.mem_append_right next he)

/-- A sound node is accepted where the depth limit leaves enough branches below it, and what it makes
wait is sound again. -/
theorem Sound.checkNode_eq_ok {levels node depth : Nat} (h : Sound nodes triangleCount levels node)
    (hlevels : levels = maxDepth - 1 - depth) (hdepth : depth < maxDepth) :
    ∃ next, checkNode nodes triangleCount node depth = .ok next ∧ ∀ e ∈ next, e.2 < maxDepth ∧
      Sound nodes triangleCount (maxDepth - 1 - e.2) e.1 := by
  cases h with
  | leaf here covers => exact ⟨[], checkNode_leaf hdepth here covers, by simp⟩
  | @branch levels _ axis aMax bMin aChild bChild here aLater bLater a b =>
    have hbelow : depth + 1 < maxDepth := by omega
    have hrest : levels = maxDepth - 1 - (depth + 1) := by omega
    refine ⟨_, checkNode_branch hbelow here ⟨aLater, a.lt_size⟩ ⟨bLater, b.lt_size⟩, ?_⟩
    rw [hrest] at a b
    simp only [List.forall_mem_cons]
    exact ⟨⟨hbelow, b⟩, ⟨hbelow, a⟩, by simp⟩

/-- The check succeeds when every node that waits is sound. -/
theorem checkAll_eq_ok {waiting : List (Nat × Nat)}
    (h : ∀ e ∈ waiting, e.2 < maxDepth ∧ Sound nodes triangleCount (maxDepth - 1 - e.2) e.1) :
    checkAll nodes triangleCount waiting = .ok () := by
  induction waiting using checkAll.induct nodes triangleCount with
  | case1 => rw [checkAll]
  | case2 node depth waiting error hcheck =>
    obtain ⟨hdepth, hsound⟩ := h _ List.mem_cons_self
    obtain ⟨next, hnext, -⟩ := hsound.checkNode_eq_ok rfl hdepth
    rw [hcheck] at hnext
    cases hnext
  | case3 node depth waiting next hcheck ih =>
    obtain ⟨hdepth, hsound⟩ := h _ List.mem_cons_self
    obtain ⟨next', hnext, hall⟩ := hsound.checkNode_eq_ok rfl hdepth
    rw [hcheck] at hnext
    cases hnext
    rw [checkAll]
    split
    · next error herror =>
      rw [hcheck] at herror
      cases herror
    · next next' hnext =>
      rw [hcheck] at hnext
      cases hnext
      exact ih fun e he => (List.mem_append.mp he).elim (hall e)
        fun he => h e (List.mem_cons_of_mem _ he)

/-- A tree that passes the check is sound from its root on. -/
theorem sound_of_validate {α : Type} {t : KdTree α} (h : t.validate triangleCount = .ok ()) :
    Sound t.nodes triangleCount (maxDepth - 1) 0 := by
  unfold validate at h
  cases hempty : t.nodes.isEmpty with
  | true =>
    rw [hempty, if_pos rfl] at h
    cases h
  | false =>
    rw [hempty, if_neg Bool.false_ne_true] at h
    exact sound_of_checkAll h (0, 0) (List.mem_singleton.mpr rfl)

/-- A tree that is sound from its root on passes the check. -/
theorem Sound.validate_eq_ok {α : Type} {t : KdTree α}
    (h : Sound t.nodes triangleCount (maxDepth - 1) 0) : t.validate triangleCount = .ok () := by
  have hsome : ¬ t.nodes.isEmpty = true := fun hempty =>
    absurd h.lt_size (by simp [Array.isEmpty_iff.mp hempty])
  unfold validate
  rw [if_neg hsome]
  exact checkAll_eq_ok (List.forall_mem_singleton.mpr ⟨by decide, h⟩)

end ConvexCollision.KdTree
