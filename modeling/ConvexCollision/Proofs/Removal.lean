import Mathlib.Data.List.Perm.Basic
import ConvexCollision.Removal

/-!
# ConvexCollision.Proofs.Removal -- what is left after an element is taken out

Taking an element out by moving the last one into its place leaves the other elements, in another
order.
-/

namespace ConvexCollision

variable {β : Type}

/-- A list in which one element was replaced holds the new one and what the others were. -/
theorem set_perm {l : List β} {i : Nat} (h : i < l.length) (x : β) :
    (l.set i x).Perm (x :: l.eraseIdx i) := by
  have hset : i < (l.set i x).length := by rwa [List.length_set]
  have hperm := List.getElem_cons_eraseIdx_perm hset
  rw [List.getElem_set_self hset, List.eraseIdx_set_eq] at hperm
  exact hperm.symm

/-- Up to order, a list is the element at a position and the others. -/
theorem perm_cons_eraseIdx {l : List β} {i : Nat} {x : β} (h : l[i]? = some x) :
    l.Perm (x :: l.eraseIdx i) := by
  obtain ⟨hi, rfl⟩ := List.getElem?_eq_some_iff.mp h
  exact (List.getElem_cons_eraseIdx_perm hi).symm

/-- Up to order, a list is the elements at two positions and the others, which stay when both are
replaced. -/
theorem exists_perm_pair {l : List β} {i j : Nat} {x y : β} (hij : i ≠ j) (hi : l[i]? = some x)
    (hj : l[j]? = some y) : ∃ rest : List β, l.Perm (x :: y :: rest) ∧
      ∀ x' y', ((l.set i x').set j y').Perm (x' :: y' :: rest) := by
  -- the first position among the elements other than the second one
  obtain ⟨k, hk, hset⟩ : ∃ k, (l.eraseIdx j)[k]? = some x ∧
      ∀ x', (l.set i x').eraseIdx j = (l.eraseIdx j).set k x' := by
    rcases Nat.lt_or_gt_of_ne hij with hlt | hgt
    · refine ⟨i, ?_, fun x' => List.eraseIdx_set_gt hlt⟩
      rw [List.getElem?_eraseIdx_of_lt hlt]
      exact hi
    · refine ⟨i - 1, ?_, fun x' => List.eraseIdx_set_lt hgt⟩
      rw [List.getElem?_eraseIdx_of_ge (by omega), Nat.sub_add_cancel (by omega)]
      exact hi
  have hlenj := (List.getElem?_eq_some_iff.mp hj).1
  have hlenk := (List.getElem?_eq_some_iff.mp hk).1
  refine ⟨(l.eraseIdx j).eraseIdx k, ?_, ?_⟩
  · exact (perm_cons_eraseIdx hj).trans
      (((perm_cons_eraseIdx hk).cons y).trans (List.Perm.swap _ _ _))
  · intro x' y'
    refine (set_perm (by rwa [List.length_set]) y').trans ?_
    rw [hset]
    exact ((set_perm hlenk x').cons y').trans (List.Perm.swap _ _ _)

/-- Up to order, the list without the element at a position. -/
theorem swapRemove_perm {l : List β} {i : Nat} (h : i < l.length) :
    (swapRemove l i).Perm (l.eraseIdx i) := by
  rcases List.eq_nil_or_concat l with rfl | ⟨front, last, rfl⟩
  · exact absurd h (Nat.not_lt_zero i)
  · simp only [List.concat_eq_append, List.length_append, List.length_singleton] at h
    have hlast : (front.concat last).getLast? = some last := by simp
    unfold swapRemove
    rw [hlast]
    simp only [List.concat_eq_append]
    by_cases hi : i < front.length
    · rw [List.set_append_left i last hi, List.dropLast_concat, List.eraseIdx_append_of_lt_length hi]
      exact (set_perm hi last).trans (List.perm_append_singleton _ _).symm
    · have hlen : i = front.length := by omega
      subst hlen
      rw [List.set_append_right _ _ (Nat.le_refl _), Nat.sub_self, List.set_cons_zero,
        List.dropLast_concat, List.eraseIdx_append_of_length_le (Nat.le_refl _), Nat.sub_self]
      simp

/-- The place of the element that is taken out goes to the last one; the others stay where they are. -/
theorem getElem?_swapRemove {l : List β} {i : Nat} (h : i < l.length) (j : Nat) :
    (swapRemove l i)[j]? =
      if j + 1 < l.length then if j = i then l.getLast? else l[j]? else none := by
  have hlast : l.getLast? = some (l.get ⟨l.length - 1, by omega⟩) := by
    rw [List.getLast?_eq_getElem?, List.getElem?_eq_getElem (by omega)]
    rfl
  unfold swapRemove
  rw [hlast]
  simp only [List.getElem?_dropLast, List.length_set, List.getElem?_set]
  by_cases hj : j + 1 < l.length
  · by_cases hji : j = i
    · subst hji
      simp [hj, h, Nat.lt_sub_of_add_lt hj]
    · simp [hj, hji, Ne.symm hji, Nat.lt_sub_of_add_lt hj]
  · have hpast : ¬ j < l.length - 1 := by omega
    simp [hj, hpast]

/-- It does not matter whether elements are changed before or after one is taken out. -/
theorem map_swapRemove {γ : Type} (f : β → γ) (l : List β) (i : Nat) :
    (swapRemove l i).map f = swapRemove (l.map f) i := by
  unfold swapRemove
  rw [List.getLast?_map]
  cases l.getLast? with
  | none => rfl
  | some last => simp [List.map_dropLast, List.map_set]

/-- The array form does to the elements what the list form does. -/
theorem toList_swapRemoveAt (a : Array β) (i : Nat) :
    (swapRemoveAt a i).toList = swapRemove a.toList i := by
  unfold swapRemoveAt swapRemove
  rw [← Array.getLast?_toList]
  cases a.toList.getLast? with
  | none => rfl
  | some last => rw [Array.toList_pop, Array.toList_setIfInBounds]

/-- What is left are the elements from the other places. -/
theorem mem_swapRemoveAt {a : Array β} {i : Nat} (hi : i < a.size) {x : β} :
    x ∈ swapRemoveAt a i ↔ ∃ j, j ≠ i ∧ a[j]? = some x := by
  have hperm : (swapRemove a.toList i).Perm (a.toList.eraseIdx i) := swapRemove_perm hi
  rw [← Array.mem_toList_iff, toList_swapRemoveAt, hperm.mem_iff, List.mem_eraseIdx_iff_getElem?]
  simp only [Array.getElem?_toList]

end ConvexCollision
