import ConvexCollision.Proofs.KdTree.Build
import ConvexCollision.Proofs.KdTree.References

/-!
# ConvexCollision.Proofs.KdTree.Arrangement -- how the nodes of a tree that was built lie

The build takes the place of a branch before it adds the two sides, so the nodes of a subtree stand next to
each other, the first side before the second. Everything about paths follows from that (`Spans`): a path
below a side ends in the nodes of that side (`Spans.follow_mem`), so two paths to one node take the same
sides (`Spans.existsUnique_path`). The triangles of the leaves are counted off in the same order, so the
ranges of the leaves are laid end to end (`Spans.exists_leafRanges`).

The way triangles are sorted is left open up to `Sorts`, and coordinates may be anything, so the sides of a
branch can be any two halves of its triangles. Numbers are read as they are stored, in 16 bits.
-/

namespace ConvexCollision.KdTree

variable {nodes : Array KdNode} {node n : Nat}

/-! ## §A Paths -/

/-- A side of a branch. -/
inductive Side where
  /-- The side of the first child. -/
  | first
  /-- The side of the second child. -/
  | second

/-- The child of a node on a side; a leaf has none. -/
def child? (nodes : Array KdNode) (node : Nat) (side : Side) : Option Nat :=
  match nodes[node]?, side with
  | some (.branch _ _ _ aChild _), .first => some aChild.toNat
  | some (.branch _ _ _ _ bChild), .second => some bChild.toNat
  | _, _ => none

/-- The node to which a path leads, given by the sides that it takes. -/
def follow? (nodes : Array KdNode) (node : Nat) : List Side → Option Nat
  | [] => some node
  | side :: path => (child? nodes node side).bind fun child => follow? nodes child path

/-- No path leads on from a leaf. -/
theorem follow?_leaf {triangleOffset count : UInt16}
    (here : nodes[node]? = some (.leaf triangleOffset count)) (side : Side) (path : List Side) :
    follow? nodes node (side :: path) = none := by
  simp [follow?, child?, here]

/-- A path from a branch goes on from the child on its side. -/
theorem follow?_branch {axis : UInt8} {aMax bMin aChild bChild : UInt16}
    (here : nodes[node]? = some (.branch axis aMax bMin aChild bChild)) (path : List Side) :
    follow? nodes node (.first :: path) = follow? nodes aChild.toNat path ∧
      follow? nodes node (.second :: path) = follow? nodes bChild.toNat path := by
  simp [follow?, child?, here]

/-- A path goes from node to child. -/
theorem refers_of_child? {child : Nat} {side : Side} (h : child? nodes node side = some child) :
    Refers nodes node child := by
  unfold child? at h
  split at h
  · next here =>
    cases h
    exact .first here
  · next here =>
    cases h
    exact .second here
  · cases h

/-- Every step of a path takes one of the levels of a sound node. -/
theorem Sound.follow {triangleCount levels : Nat} (h : Sound nodes triangleCount levels node)
    {path : List Side} (hpath : follow? nodes node path = some n) :
    ∃ below, levels = below + path.length ∧ Sound nodes triangleCount below n := by
  induction path generalizing levels node with
  | nil =>
    cases hpath
    exact ⟨levels, rfl, h⟩
  | cons side path ih =>
    obtain ⟨child, hchild, hrest⟩ := Option.bind_eq_some_iff.mp hpath
    obtain ⟨rest, rfl, -, hsound⟩ := h.of_refers (refers_of_child? hchild)
    obtain ⟨below, rfl, hbelow⟩ := ih hsound hrest
    exact ⟨below, Nat.add_assoc below path.length 1, hbelow⟩

/-! ## §B Leaf ranges -/

/-- The places of the leaves below a node, each with its length, the first side of every branch before the
second one. -/
inductive LeafRanges (nodes : Array KdNode) : Nat → List (Nat × Nat) → Prop
  /-- What a leaf stores. -/
  | leaf {node : Nat} {triangleOffset count : UInt16}
      (here : nodes[node]? = some (.leaf triangleOffset count)) :
      LeafRanges nodes node [(triangleOffset.toNat, count.toNat)]
  /-- Those of the first side, then those of the second one. -/
  | branch {node : Nat} {axis : UInt8} {aMax bMin aChild bChild : UInt16} {as bs : List (Nat × Nat)}
      (here : nodes[node]? = some (.branch axis aMax bMin aChild bChild))
      (a : LeafRanges nodes aChild.toNat as) (b : LeafRanges nodes bChild.toNat bs) :
      LeafRanges nodes node (as ++ bs)

/-- Ranges are laid end to end from one place up to another. -/
def Tiles : (start : Nat) → List (Nat × Nat) → (stop : Nat) → Prop
  | start, [], stop => start = stop
  | start, (offset, count) :: ranges, stop => offset = start ∧ Tiles (start + count) ranges stop

theorem Tiles.append {start middle stop : Nat} {as bs : List (Nat × Nat)} (ha : Tiles start as middle)
    (hb : Tiles middle bs stop) : Tiles start (as ++ bs) stop := by
  induction as generalizing start with
  | nil =>
    cases ha
    exact hb
  | cons range as ih => exact ⟨ha.1, ih ha.2⟩

/-! ## §C Subtrees -/

section Spans

variable {divides : Divides} {levels stop start : Nat} {slots : List Nat}

/-- A path that starts in a subtree stays in it. -/
theorem Spans.follow_mem (h : Spans nodes divides levels node stop start slots) {path : List Side}
    (hpath : follow? nodes node path = some n) : node ≤ n ∧ n < stop := by
  induction h generalizing path with
  | leaf here =>
    cases path with
    | nil =>
      cases hpath
      omega
    | cons side path =>
      rw [follow?_leaf here] at hpath
      cases hpath
  | branch here splits divided aNext bNext a b iha ihb =>
    have ha := a.lt_stop
    have hb := b.lt_stop
    cases path with
    | nil =>
      cases hpath
      omega
    | cons side path =>
      cases side with
      | first =>
        rw [(follow?_branch here path).1, aNext] at hpath
        have hn := iha hpath
        omega
      | second =>
        rw [(follow?_branch here path).2, bNext] at hpath
        have hn := ihb hpath
        omega

/-- Exactly one path leads from the root of a subtree to a node of it. -/
theorem Spans.existsUnique_path (h : Spans nodes divides levels node stop start slots)
    (hlow : node ≤ n) (hhigh : n < stop) : ∃! path, follow? nodes node path = some n := by
  induction h with
  | leaf here =>
    obtain rfl := Nat.le_antisymm hlow (Nat.le_of_lt_succ hhigh)
    refine ⟨[], rfl, fun path hpath => ?_⟩
    cases path with
    | nil => rfl
    | cons side path =>
      rw [follow?_leaf here] at hpath
      cases hpath
  | @branch levels node middle stop start as bs axis number aMax bMin aChild bChild here splits divided
      aNext bNext a b iha ihb =>
    have hfirst (path : List Side) :
        follow? nodes node (.first :: path) = follow? nodes (node + 1) path := by
      rw [(follow?_branch here path).1, aNext]
    have hsecond (path : List Side) :
        follow? nodes node (.second :: path) = follow? nodes middle path := by
      rw [(follow?_branch here path).2, bNext]
    have ha := a.lt_stop
    have hb := b.lt_stop
    -- the place of the node tells the side on which the path begins
    have hsides : ∀ path, follow? nodes node path = some n →
        (path = [] ∧ n = node) ∨
        (∃ rest, path = .first :: rest ∧ follow? nodes (node + 1) rest = some n ∧ node < n ∧ n < middle) ∨
        ∃ rest, path = .second :: rest ∧ follow? nodes middle rest = some n ∧ middle ≤ n := by
      intro path hpath
      rcases path with _ | ⟨_ | _, rest⟩
      · cases hpath
        exact .inl ⟨rfl, rfl⟩
      · rw [hfirst] at hpath
        have hn := a.follow_mem hpath
        exact .inr (.inl ⟨rest, rfl, hpath, hn.1, hn.2⟩)
      · rw [hsecond] at hpath
        exact .inr (.inr ⟨rest, rfl, hpath, (b.follow_mem hpath).1⟩)
    rcases Nat.eq_or_lt_of_le hlow with rfl | hbelow
    · refine ⟨[], rfl, fun path hpath => ?_⟩
      rcases hsides path hpath with ⟨rfl, -⟩ | ⟨rest, -, -, hlt, -⟩ | ⟨rest, -, -, hle⟩
      · rfl
      · omega
      · omega
    by_cases hside : n < middle
    · obtain ⟨way, hway, huniq⟩ := iha hbelow hside
      refine ⟨.first :: way, (hfirst way).trans hway, fun path hpath => ?_⟩
      rcases hsides path hpath with ⟨-, rfl⟩ | ⟨rest, rfl, hrest, -, -⟩ | ⟨rest, -, -, hle⟩
      · omega
      · rw [huniq rest hrest]
      · omega
    · obtain ⟨way, hway, huniq⟩ := ihb (Nat.le_of_not_lt hside) hhigh
      refine ⟨.second :: way, (hsecond way).trans hway, fun path hpath => ?_⟩
      rcases hsides path hpath with ⟨-, rfl⟩ | ⟨rest, -, -, -, hlt⟩ | ⟨rest, rfl, hrest, -⟩
      · omega
      · omega
      · rw [huniq rest hrest]

/-- The leaves of a subtree tile the places at which it stores its triangles. -/
theorem Spans.exists_leafRanges (h : Spans nodes divides levels node stop start slots) :
    ∃ ranges, LeafRanges nodes node ranges ∧ Tiles start ranges (start + slots.length) := by
  induction h with
  | leaf here starts counts => exact ⟨_, .leaf here, starts, congrArg _ counts⟩
  | branch here splits divided aNext bNext a b iha ihb =>
    obtain ⟨as, hrangesA, htilesA⟩ := iha
    obtain ⟨bs, hrangesB, htilesB⟩ := ihb
    rw [← aNext] at hrangesA
    rw [← bNext] at hrangesB
    rw [List.length_append, ← Nat.add_assoc]
    exact ⟨as ++ bs, .branch here hrangesA hrangesB, htilesA.append htilesB⟩

end Spans

/-! ## §D Trees -/

/-- How the nodes of a tree over so many triangles lie. -/
structure Arranged (nodes : Array KdNode) (triangleCount : Nat) : Prop where
  /-- Exactly one path leads from the root to each node. -/
  one_path : ∀ n < nodes.size, ∃! path, follow? nodes 0 path = some n
  /-- A child comes after its branch, and it is a node of the table. -/
  child_later : ∀ node child, Refers nodes node child → node < child ∧ child < nodes.size
  /-- Room for a child is left below every branch. -/
  branch_depth : ∀ path n axis aMax bMin aChild bChild, follow? nodes 0 path = some n →
    nodes[n]? = some (.branch axis aMax bMin aChild bChild) → path.length ≤ maxDepth - 2
  /-- No leaf lies deeper than the limit. -/
  leaf_depth : ∀ path n triangleOffset count, follow? nodes 0 path = some n →
    nodes[n]? = some (.leaf triangleOffset count) → path.length ≤ maxDepth - 1
  /-- The leaves tile the triangles. -/
  tiles : ∃ ranges, LeafRanges nodes 0 ranges ∧ Tiles 0 ranges triangleCount

/-- A table that is one subtree over all triangles, within the depth limit, is arranged. -/
theorem Spans.arranged {divides : Divides} {slots : List Nat}
    (h : Spans nodes divides (maxDepth - 1) 0 nodes.size 0 slots) : Arranged nodes slots.length := by
  have hsound : Sound nodes slots.length (maxDepth - 1) 0 := h.sound (Nat.le_of_eq (Nat.zero_add _))
  constructor
  case one_path => exact fun n hn => h.existsUnique_path (Nat.zero_le n) hn
  case child_later =>
    intro node child hrefers
    have hnode : node < nodes.size := by
      cases hrefers with
      | first here => exact (Array.getElem?_eq_some_iff.mp here).1
      | second here => exact (Array.getElem?_eq_some_iff.mp here).1
    obtain ⟨path, hpath, -⟩ := h.existsUnique_path (Nat.zero_le node) hnode
    obtain ⟨below, -, hbelow⟩ := hsound.follow hpath
    obtain ⟨_, -, hlater, hchild⟩ := hbelow.of_refers hrefers
    exact ⟨hlater, hchild.lt_size⟩
  case branch_depth =>
    intro path n axis aMax bMin aChild bChild hpath here
    obtain ⟨below, hlevels, hbelow⟩ := hsound.follow hpath
    obtain ⟨_, rfl, -, -⟩ := hbelow.of_refers (.first here)
    omega
  case leaf_depth =>
    intro path n triangleOffset count hpath here
    obtain ⟨below, hlevels, -⟩ := hsound.follow hpath
    omega
  case tiles =>
    obtain ⟨ranges, hranges, htiles⟩ := h.exists_leafRanges
    rw [Nat.zero_add] at htiles
    exact ⟨ranges, hranges, htiles⟩

variable {α : Type} [Scalar α]

/-- **How a tree that was built lies.** Whatever the coordinates and however triangles are sorted, a tree
that was built stores each triangle once, its nodes are arranged over all of them, and it passes the
check. -/
theorem arranged_of_buildBy {sort : Axis → List (Item α) → List (Item α)} (hsort : Sorts sort)
    {vertices : Array (Vec3 α)} {triangles : List (UInt16 × UInt16 × UInt16)} {t : KdTree α}
    {order : Array Nat} (h : buildBy sort vertices triangles = .ok (t, order)) :
    order.toList.Perm (List.range triangles.length) ∧ Arranged t.nodes triangles.length ∧
      t.validate triangles.length = .ok () := by
  obtain ⟨hperm, items, -, -, -, hspans⟩ := buildBy_eq_ok hsort h
  -- how the branches divide does not matter for which nodes there are
  have hspans := hspans (fun _ _ _ _ _ => True) fun _ _ _ _ _ _ _ _ _ => trivial
  have hlength : order.toList.length = triangles.length := by
    rw [hperm.length_eq, List.length_range]
  have harranged := hspans.arranged
  have hsound := hspans.sound (Nat.le_of_eq (Nat.zero_add order.toList.length))
  rw [hlength] at harranged hsound
  exact ⟨hperm, harranged, hsound.validate_eq_ok⟩

/-- The corners of a strip along the x axis, one of them nowhere. -/
def stripVertices : Array (Vec3 Float32) :=
  #[⟨0, 0, 0⟩, ⟨0, 0, 1⟩, ⟨1, 0, 0⟩, ⟨1, 0, 1⟩, ⟨2, 0, 0⟩, ⟨0 / 0, 0, 0⟩]

/-- Its triangles, one too many for a single leaf. -/
def stripTriangles : List (UInt16 × UInt16 × UInt16) :=
  [(0, 1, 2), (2, 1, 3), (2, 3, 4), (4, 3, 5), (4, 1, 0)]

/-- The strip can be built, although one of its triangles cannot be compared with the others. -/
theorem strip_arranged : ∃ t order, buildBy sortOn stripVertices stripTriangles = .ok (t, order) ∧
    order.toList.Perm (List.range stripTriangles.length) ∧ Arranged t.nodes stripTriangles.length ∧
      t.validate stripTriangles.length = .ok () := by
  obtain ⟨⟨t, order⟩, hbuild⟩ := exists_eq_ok_of_isOk
    (show (buildBy sortOn stripVertices stripTriangles).isOk = true by decide +kernel)
  exact ⟨t, order, hbuild, arranged_of_buildBy sorts_sortOn hbuild⟩

end ConvexCollision.KdTree
