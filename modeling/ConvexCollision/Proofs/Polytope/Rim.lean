import Mathlib.Data.List.Induction
import Mathlib.Data.List.Nodup
import Mathlib.Data.Prod.Basic
import ConvexCollision.Polytope
import ConvexCollision.Proofs.Removal

/-!
# ConvexCollision.Proofs.Polytope.Rim -- the edges around a hole in a closed surface

A surface of triangles is closed when no directed edge occurs twice and each occurs together with its
reverse, which belongs to the face on the other side. Taking faces away leaves a hole. Its rim are
the directed edges of those faces whose reverse is not among them. When no point of the rim is left
twice, the hole can be closed again by a face from each edge of the rim to one new point
(`Closed.patch`).

Everything here is about numbers of points. Where the points lie does not matter.
-/

namespace ConvexCollision

variable {α : Type} [Scalar α]

/-- The directed edges around a face. -/
def PolytopeFace.edges (f : PolytopeFace α) : List (Nat × Nat) := [(f.i, f.j), (f.j, f.k), (f.k, f.i)]

/-- The directed edges of all faces. -/
def Polytope.edges (poly : Polytope α) : List (Nat × Nat) := poly.faces.flatMap PolytopeFace.edges

namespace Polytope

/-! ## § The border of a list of edges -/

/-- The directed edges that occur without their reverse. -/
def border (edges : List (Nat × Nat)) : List (Nat × Nat) := edges.filter fun e => e.swap ∉ edges

theorem mem_border {edges : List (Nat × Nat)} {e : Nat × Nat} :
    e ∈ border edges ↔ e ∈ edges ∧ e.swap ∉ edges := by
  simp [border]

theorem border_nodup {edges : List (Nat × Nat)} (h : edges.Nodup) : (border edges).Nodup :=
  h.filter _

/-- An edge whose reverse was recorded takes it away; otherwise it is recorded. -/
theorem addEdge_perm (edges : List (Nat × Nat)) (e : Nat × Nat) :
    (addEdge edges e.1 e.2).Perm
      (if e.swap ∈ edges then edges.erase e.swap else edges ++ [e]) := by
  unfold addEdge
  cases hfind : edges.findIdx? (· == (e.2, e.1)) with
  | none =>
    have hout : e.swap ∉ edges := by
      intro hmem
      have hdiffers : (e.swap == (e.2, e.1)) = false := List.findIdx?_eq_none_iff.mp hfind _ hmem
      exact beq_eq_false_iff_ne.mp hdiffers rfl
    rw [if_neg hout]
  | some i =>
    obtain ⟨hi, heq, -⟩ := List.findIdx?_eq_some_iff_getElem.mp hfind
    have hget : edges[i]? = some e.swap := by
      rw [List.getElem?_eq_getElem hi, eq_of_beq heq]
      rfl
    have hmem : e.swap ∈ edges := List.mem_of_getElem? hget
    rw [if_pos hmem]
    have hperm := (perm_cons_eraseIdx hget).symm.trans (List.perm_cons_erase hmem)
    exact (swapRemove_perm hi).trans ((List.perm_cons _).mp hperm)

/-- What one more edge does to a border: when its reverse is there, neither is part of it. -/
theorem border_append_singleton {edges : List (Nat × Nat)} {e : Nat × Nat} (hnodup : edges.Nodup)
    (he : e ∉ edges) (hloop : e.swap ≠ e) :
    (border (edges ++ [e])).Perm
      (if e.swap ∈ border edges then (border edges).erase e.swap else border edges ++ [e]) := by
  have hsnoc {l : List (Nat × Nat)} (hl : l.Nodup) (hout : e ∉ l) : (l ++ [e]).Nodup :=
    (List.perm_append_singleton e l).nodup_iff.mpr (List.nodup_cons.mpr ⟨hout, hl⟩)
  have hborder := border_nodup hnodup
  have hborder' := border_nodup (hsnoc hnodup he)
  have hback : e.swap ∈ border edges ↔ e.swap ∈ edges := by
    rw [mem_border, Prod.swap_swap]
    exact and_iff_left he
  have hmem (e' : Nat × Nat) : e' ∈ border (edges ++ [e]) ↔
      (e' ∈ border edges ∧ e' ≠ e.swap) ∨ (e' = e ∧ e.swap ∉ edges) := by
    have hswap : e'.swap = e ↔ e' = e.swap :=
      ⟨fun h => by rw [← h, Prod.swap_swap], fun h => by rw [h, Prod.swap_swap]⟩
    simp only [mem_border, List.mem_append, List.mem_singleton, not_or, hswap]
    constructor
    · rintro ⟨hin | rfl, hout, hne⟩
      · exact Or.inl ⟨⟨hin, hout⟩, hne⟩
      · exact Or.inr ⟨rfl, hout⟩
    · rintro (⟨⟨hin, hout⟩, hne⟩ | ⟨rfl, hout⟩)
      · exact ⟨Or.inl hin, hout, hne⟩
      · exact ⟨Or.inr rfl, hout, Ne.symm hloop⟩
  by_cases hrev : e.swap ∈ edges
  · rw [if_pos (hback.mpr hrev), List.perm_ext_iff_of_nodup hborder' (hborder.erase _)]
    intro e'
    rw [hmem, hborder.mem_erase_iff]
    simp [hrev, and_comm]
  · have hend : e ∉ border edges := fun hmem => he (mem_border.mp hmem).1
    rw [if_neg (mt hback.mp hrev),
      List.perm_ext_iff_of_nodup hborder' (hsnoc hborder hend)]
    intro e'
    have hother : e' ∈ border edges → e' ≠ e.swap := by
      rintro hin rfl
      exact hrev (mem_border.mp hin).1
    rw [hmem, List.mem_append, List.mem_singleton]
    simp only [hrev, not_false_eq_true, and_true]
    exact or_congr_left (and_iff_left_of_imp hother)

/-- Recording the edges of faces one after the other leaves their border. -/
theorem foldl_addEdge_perm (edges : List (Nat × Nat)) (hnodup : edges.Nodup)
    (hloop : ∀ e ∈ edges, e.swap ≠ e) :
    (edges.foldl (fun es e => addEdge es e.1 e.2) []).Perm (border edges) := by
  induction edges using List.reverseRecOn with
  | nil => exact List.Perm.refl _
  | append_singleton front e ih =>
    obtain ⟨hfront, -, hdisj⟩ := List.nodup_append.mp hnodup
    have he : e ∉ front := fun hmem => hdisj e hmem e (List.mem_singleton_self e) rfl
    have hperm := ih hfront fun e' he' => hloop e' (List.mem_append_left _ he')
    rw [List.foldl_append, List.foldl_cons, List.foldl_nil]
    refine (addEdge_perm _ e).trans (List.Perm.trans ?_
      (border_append_singleton hfront he (hloop e (by simp))).symm)
    simp only [hperm.mem_iff]
    split
    · exact hperm.erase _
    · exact hperm.append_right _

/-! ## § Closed surfaces -/

/-- No directed edge occurs twice, none leads from a point to itself, and each occurs together with
its reverse. -/
structure Closed (edges : List (Nat × Nat)) : Prop where
  /-- Each directed edge occurs once. -/
  nodup : edges.Nodup
  /-- The two ends of an edge are different points. -/
  ends_ne : ∀ e ∈ edges, e.1 ≠ e.2
  /-- The reverse of each edge occurs too. -/
  swap_mem : ∀ e ∈ edges, e.swap ∈ edges

theorem Closed.congr {edges edges' : List (Nat × Nat)} (h : Closed edges)
    (hperm : edges.Perm edges') : Closed edges' where
  nodup := hperm.nodup_iff.mp h.nodup
  ends_ne := fun e he => h.ends_ne e (hperm.mem_iff.mpr he)
  swap_mem := fun e he => hperm.mem_iff.mp (h.swap_mem e (hperm.mem_iff.mpr he))

omit [Scalar α] in
/-- Around a face one comes to each corner as often as one leaves it. -/
theorem edges_balanced (faces : List (PolytopeFace α)) :
    ((faces.flatMap PolytopeFace.edges).map Prod.fst).Perm
      ((faces.flatMap PolytopeFace.edges).map Prod.snd) := by
  induction faces with
  | nil => exact List.Perm.refl _
  | cons f faces ih =>
    have hface : (f.edges.map Prod.fst).Perm (f.edges.map Prod.snd) :=
      @List.perm_append_comm _ [f.i] [f.j, f.k]
    simp only [List.flatMap_cons, List.map_append]
    exact hface.append ih

/-- The border of faces leads to each point as often as away from it. -/
theorem border_balanced {edges : List (Nat × Nat)} (hnodup : edges.Nodup)
    (hbal : (edges.map Prod.fst).Perm (edges.map Prod.snd)) :
    ((border edges).map Prod.fst).Perm ((border edges).map Prod.snd) := by
  -- the other edges come in pairs that lead forth and back
  let inner := edges.filter fun e => e.swap ∈ edges
  have hsplit : edges.Perm (border edges ++ inner) := by
    have h := (List.filter_append_perm (fun e => decide (e.swap ∈ edges)) edges).symm
    refine h.trans (List.perm_append_comm.trans ?_)
    simp only [border, inner, decide_not]
    exact List.Perm.refl _
  have hinner : (inner.map Prod.swap).Perm inner := by
    rw [List.perm_ext_iff_of_nodup ((hnodup.filter _).map Prod.swap_injective) (hnodup.filter _)]
    intro e
    simp only [List.mem_map, List.mem_filter, decide_eq_true_eq]
    constructor
    · rintro ⟨e', ⟨hin, hswap⟩, rfl⟩
      exact ⟨hswap, by simpa using hin⟩
    · rintro ⟨hin, hswap⟩
      exact ⟨e.swap, ⟨hswap, by simpa using hin⟩, Prod.swap_swap e⟩
  have hpairs : (inner.map Prod.fst).Perm (inner.map Prod.snd) := by
    have h := hinner.map Prod.fst
    rw [List.map_map] at h
    exact h.symm
  have hall : ((border edges ++ inner).map Prod.fst).Perm ((border edges ++ inner).map Prod.snd) :=
    ((hsplit.map _).symm.trans hbal).trans (hsplit.map _)
  rw [List.map_append, List.map_append] at hall
  exact (List.perm_append_right_iff _).mp (hall.trans (hpairs.symm.append_left _))

/-! ## § Closing the hole -/

/-- The edges around a face from an edge to a further point. -/
def cone (apex : Nat) (e : Nat × Nat) : List (Nat × Nat) := [(e.1, e.2), (e.2, apex), (apex, e.1)]

/-- The edges between the points of a rim and one further point, to it and away from it. -/
def spokes (apex : Nat) (rim : List (Nat × Nat)) : List (Nat × Nat) :=
  (rim.map Prod.snd).map (·, apex) ++ (rim.map Prod.fst).map (apex, ·)

theorem mem_spokes {apex : Nat} {rim : List (Nat × Nat)} {e : Nat × Nat} :
    e ∈ spokes apex rim ↔
      (e.1 ∈ rim.map Prod.snd ∧ e.2 = apex) ∨ (e.2 ∈ rim.map Prod.fst ∧ e.1 = apex) := by
  rw [spokes, List.mem_append, List.mem_map (f := (·, apex)), List.mem_map (f := (apex, ·))]
  constructor
  · rintro (⟨v, hv, rfl⟩ | ⟨v, hv, rfl⟩)
    · exact Or.inl ⟨hv, rfl⟩
    · exact Or.inr ⟨hv, rfl⟩
  · rintro (⟨hv, htip⟩ | ⟨hv, htip⟩)
    · exact Or.inl ⟨e.1, hv, Prod.ext rfl htip.symm⟩
    · exact Or.inr ⟨e.2, hv, Prod.ext htip.symm rfl⟩

/-- No spoke comes twice when the rim comes to no point twice and leaves none twice. -/
theorem spokes_nodup {apex : Nat} {rim : List (Nat × Nat)} (hin : (rim.map Prod.snd).Nodup)
    (hout : (rim.map Prod.fst).Nodup) (hapex : apex ∉ rim.map Prod.fst) : (spokes apex rim).Nodup := by
  refine List.nodup_append.mpr ⟨hin.map (by intro _ _ h; exact congrArg Prod.fst h),
    hout.map (by intro _ _ h; exact congrArg Prod.snd h), ?_⟩
  rintro _ hto _ haway rfl
  obtain ⟨v, -, rfl⟩ := List.mem_map.mp hto
  obtain ⟨w, hw, heq⟩ := List.mem_map.mp haway
  have htip : w = apex := congrArg Prod.snd heq
  exact hapex (htip ▸ hw)

/-- Up to order, the edges of faces from a rim to one point: the rim, and the spokes. -/
theorem flatMap_cone_perm (apex : Nat) (rim : List (Nat × Nat)) :
    (rim.flatMap (cone apex)).Perm (rim ++ spokes apex rim) := by
  unfold spokes
  induction rim with
  | nil => exact List.Perm.refl _
  | cons e rim ih =>
    simp only [List.flatMap_cons, List.map_cons, cone, List.cons_append, List.nil_append]
    refine List.Perm.cons e ?_
    refine ((ih.cons _).cons _).trans ?_
    refine List.Perm.trans ?_ List.perm_middle.symm
    refine List.Perm.cons _ (List.Perm.trans ?_ (List.Perm.append_left _ List.perm_middle.symm))
    exact List.perm_middle.symm

/-- **A hole in a closed surface is closed by faces from its rim to a new point**, when the rim leaves
no point twice. -/
theorem Closed.patch {removed kept rim : List (Nat × Nat)} {apex : Nat}
    (h : Closed (removed ++ kept)) (hbal : (removed.map Prod.fst).Perm (removed.map Prod.snd))
    (hrim : rim.Perm (border removed)) (hout : (rim.map Prod.fst).Nodup)
    (hapex : ∀ e ∈ removed ++ kept, e.1 ≠ apex) :
    Closed (kept ++ rim.flatMap (cone apex)) := by
  obtain ⟨hremoved, hkept, hdisj⟩ := List.nodup_append.mp h.nodup
  have hends : (rim.map Prod.fst).Perm (rim.map Prod.snd) :=
    ((hrim.map _).trans (border_balanced hremoved hbal)).trans (hrim.map _).symm
  have hmem {e : Nat × Nat} (he : e ∈ rim) : e ∈ removed ∧ e.swap ∈ kept := by
    obtain ⟨hold, hout⟩ := mem_border.mp (hrim.mem_iff.mp he)
    have hback := h.swap_mem e (List.mem_append_left _ hold)
    exact ⟨hold, (List.mem_append.mp hback).resolve_left hout⟩
  have hold {e : Nat × Nat} (he : e ∈ removed ++ kept) : e.1 ≠ apex ∧ e.2 ≠ apex :=
    ⟨hapex e he, hapex e.swap (h.swap_mem e he)⟩
  have htip : apex ∉ rim.map Prod.fst := by
    intro hv
    obtain ⟨e, he, heq⟩ := List.mem_map.mp hv
    exact (hold (List.mem_append_left _ (hmem he).1)).1 heq
  refine Closed.congr ?_ ((flatMap_cone_perm apex rim).symm.append_left kept)
  constructor
  case nodup =>
    -- the spokes are new, and the rim was taken away
    have hspokes : (spokes apex rim).Nodup := spokes_nodup (hends.nodup_iff.mp hout) hout htip
    have hnew {e : Nat × Nat} (he : e ∈ removed ++ kept) : e ∉ spokes apex rim := by
      intro hspoke
      rcases mem_spokes.mp hspoke with ⟨-, hto⟩ | ⟨-, haway⟩
      · exact (hold he).2 hto
      · exact (hold he).1 haway
    have hrims : rim.Nodup := hrim.nodup_iff.mpr (border_nodup hremoved)
    refine List.nodup_append.mpr ⟨hkept, List.nodup_append.mpr ⟨hrims, hspokes, ?_⟩, ?_⟩
    · rintro e he _ hspoke rfl
      exact hnew (List.mem_append_left _ (hmem he).1) hspoke
    · rintro e he _ hpatch rfl
      rcases List.mem_append.mp hpatch with hrim' | hspoke
      · exact hdisj e (hmem hrim').1 e he rfl
      · exact hnew (List.mem_append_right _ he) hspoke
  case ends_ne =>
    intro e he
    simp only [List.mem_append, mem_spokes] at he
    rcases he with he | he | ⟨hv, hto⟩ | ⟨hv, haway⟩
    · exact h.ends_ne e (List.mem_append_right _ he)
    · exact h.ends_ne e (List.mem_append_left _ (hmem he).1)
    · exact fun heq => htip (hends.mem_iff.mpr (hto ▸ heq ▸ hv))
    · exact fun heq => htip (haway ▸ heq ▸ hv)
  case swap_mem =>
    intro e he
    simp only [List.mem_append, mem_spokes] at he ⊢
    rcases he with he | he | ⟨hv, hto⟩ | ⟨hv, haway⟩
    · rcases List.mem_append.mp (h.swap_mem e (List.mem_append_right _ he)) with hback | hback
      · -- the face on the other side was taken away, so the edge is on the rim
        refine Or.inr (Or.inl (hrim.mem_iff.mpr (mem_border.mpr ⟨hback, ?_⟩)))
        intro hboth
        exact hdisj e (by simpa using hboth) e he rfl
      · exact Or.inl hback
    · exact Or.inl (hmem he).2
    · exact Or.inr (Or.inr (Or.inr ⟨hends.mem_iff.mpr hv, hto⟩))
    · exact Or.inr (Or.inr (Or.inl ⟨hends.mem_iff.mp hv, haway⟩))

end Polytope

end ConvexCollision
