import ConvexCollision.Proofs.World.Parts
import ConvexCollision.Proofs.World.Registry

/-!
# ConvexCollision.Proofs.World.Dropped -- which elements are left when some are taken out

Whatever the registry says, taking elements out brings in none (`removeAll_subset`). With a right
registry exactly those are left whose identity was not among the ones to be taken out
(`Registered.mem_removeAll`), however often and in whatever order these are named.
-/

namespace ConvexCollision.World

variable {α : Type} [Scalar α] {w w' : World α} {id : EntityId} {ids : List EntityId}

/-- Taking elements out brings in none, and leaves the kill plane where it is. -/
theorem removeAll_subset (h : w.removeAll ids = .ok w') :
    (∀ e ∈ w'.elements, e ∈ w.elements) ∧ w'.killPlane = w.killPlane := by
  apply rel_of_foldlM_eq_ok (R := fun w w' : World α =>
    (∀ e ∈ w'.elements, e ∈ w.elements) ∧ w'.killPlane = w.killPlane) ?_ ?_ ?_ h
  · intro w
    exact ⟨fun _ he => he, rfl⟩
  · intro w₁ w₂ w₃ h₁₂ h₂₃
    exact ⟨fun e he => h₁₂.1 e (h₂₃.1 e he), h₂₃.2.trans h₁₂.2⟩
  · intro w id w' hdrop
    obtain ⟨taken?, hremove⟩ := exists_of_dropElement hdrop
    rcases removeElement_cases hremove with ⟨-, -, rfl⟩ | ⟨i, taken, registry, -, htaken, -, rfl⟩
    · exact ⟨fun _ he => he, rfl⟩
    · refine ⟨fun e' he' => ?_, rfl⟩
      obtain ⟨j, -, hj⟩ := (mem_swapRemoveAt (Array.getElem?_eq_some_iff.mp htaken).1).mp he'
      exact Array.mem_of_getElem? hj

/-- With a right registry, the elements with other identities are left. -/
theorem Registered.mem_dropElement (h : w.Registered) (hdrop : w.dropElement id = .ok w')
    (e : Element α) : e ∈ w'.elements ↔ e ∈ w.elements ∧ e.id ≠ id := by
  obtain ⟨taken?, hremove⟩ := exists_of_dropElement hdrop
  rcases removeElement_cases hremove with ⟨hnone, -, rfl⟩ | ⟨i, taken, registry, hfind, htaken, -, rfl⟩
  · -- an identity that is not on record is that of no element
    refine ⟨fun he => ⟨he, ?_⟩, fun he => he.1⟩
    intro hid
    obtain ⟨i, hi, -⟩ := Option.bind_eq_some_iff.mp (h.find?_eq_some_iff.mpr ⟨he, hid⟩)
    rw [hnone] at hi
    cases hi
  · have hplace := (h.indexes id i).mp hfind
    rw [mem_swapRemoveAt (Array.getElem?_eq_some_iff.mp htaken).1]
    constructor
    · rintro ⟨j, hji, hj⟩
      refine ⟨Array.mem_of_getElem? hj, ?_⟩
      intro hid
      have hsame : w.ids[j]? = some id := by
        rw [getElem?_ids, hj, ← hid]
        rfl
      exact hji (h.indexes.place_unique hsame hplace)
    · rintro ⟨he, hid⟩
      obtain ⟨j, hj⟩ := Array.getElem?_of_mem he
      refine ⟨j, ?_, hj⟩
      rintro rfl
      rw [getElem?_ids, hj] at hplace
      exact hid (Option.some.inj hplace)

/-- **What is left.** With a right registry, taking elements out by identity leaves exactly those that
have none of the identities. -/
theorem Registered.mem_removeAll (h : w.Registered) (hremove : w.removeAll ids = .ok w')
    (e : Element α) : e ∈ w'.elements ↔ e ∈ w.elements ∧ e.id ∉ ids := by
  induction ids generalizing w with
  | nil =>
    cases hremove
    simp
  | cons id ids ih =>
    unfold World.removeAll at hremove
    rw [List.foldlM_cons] at hremove
    obtain ⟨w₁, hdrop, hrest⟩ := bind_eq_ok_iff.mp hremove
    obtain ⟨w₁', hdrop', hregistered⟩ := h.dropElement id
    cases hdrop.symm.trans hdrop'
    rw [ih hregistered hrest, h.mem_dropElement hdrop, List.mem_cons, not_or, and_assoc]

end ConvexCollision.World
