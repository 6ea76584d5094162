import Mathlib.Data.List.Nodup
import ConvexCollision.Proofs.Removal
import ConvexCollision.World.Tick

/-!
# ConvexCollision.Proofs.World.Registry -- an entity is found where it stands

`Registry.Indexes` compares a registry with the identities of the elements, in their order: an identity
is found at a place exactly when the element there has it. That settles every answer of the registry,
so whatever leaves the identities alone leaves the agreement alone. Two operations change identities
and registry together. An element that is added comes last under a new identity
(`Indexes.insert`), and one that is taken out gives its place to the last element, which has to be
entered anew (`Indexes.swapRemove`).

`World.Registered` is the agreement for a world, and that no element has the reserved identity. As long
as it holds, looking up answers by the elements alone, and so does every request to add or to take out.
-/

namespace ConvexCollision

namespace Registry

/-! ## §A Looking up -/

theorem find?_erase (r : Registry) (id other : EntityId) :
    (r.erase id).find? other = if other = id then none else r.find? other := by
  unfold erase find?
  rw [List.find?_filter]
  split
  · next h =>
    subst h
    simp
  · next h =>
    congr 2
    funext e
    by_cases he : e.1 = other
    · subst he
      simp [h]
    · simp [he]

theorem find?_insert (r : Registry) (id other : EntityId) (position : Nat) :
    (r.insert id position).find? other = if other = id then some position else r.find? other := by
  split
  · next h =>
    subst h
    simp [insert, find?]
  · next h =>
    have hskip : (r.insert id position).find? other = (r.erase id).find? other := by
      simp [insert, find?, Ne.symm h]
    rw [hskip, find?_erase, if_neg h]

/-! ## §B Identities and places -/

/-- An identity is found at a place exactly when it stands there. -/
def Indexes (r : Registry) (ids : List EntityId) : Prop :=
  ∀ id i, r.find? id = some i ↔ ids[i]? = some id

namespace Indexes

variable {r : Registry} {ids : List EntityId} {id : EntityId} {i : Nat}

theorem empty : Registry.empty.Indexes [] := by
  intro id i
  exact ⟨(nomatch ·), (nomatch ·)⟩

/-- No identity stands in two places. -/
theorem place_unique (h : r.Indexes ids) {j : Nat} (hi : ids[i]? = some id)
    (hj : ids[j]? = some id) : i = j := by
  have hfirst := (h id i).mpr hi
  rw [(h id j).mpr hj] at hfirst
  exact (Option.some.inj hfirst).symm

theorem nodup (h : r.Indexes ids) : ids.Nodup := by
  rw [List.nodup_iff_getElem?_ne_getElem?]
  intro i j hij hj hsame
  have hi : ids[j]? = some ids[j] := List.getElem?_eq_getElem hj
  exact Nat.ne_of_lt hij (h.place_unique (hsame.trans hi) hi)

theorem contains_iff (h : r.Indexes ids) : r.contains id = true ↔ id ∈ ids := by
  unfold contains
  rw [Option.isSome_iff_exists, List.mem_iff_getElem?]
  simp only [h id]

/-- A new identity comes last. -/
theorem insert (h : r.Indexes ids) (hnew : id ∉ ids) :
    (r.insert id ids.length).Indexes (ids ++ [id]) := by
  intro other i
  rw [find?_insert]
  by_cases hlast : i < ids.length
  · rw [List.getElem?_append_left hlast]
    split
    · next heq =>
      subst heq
      have hother : ids[i]? ≠ some other := fun hi => hnew (List.mem_of_getElem? hi)
      simp [hother, Nat.ne_of_gt hlast]
    · exact h other i
  · rw [List.getElem?_append_right (Nat.le_of_not_lt hlast), List.getElem?_singleton]
    have hold : r.find? other ≠ some i := by
      intro hi
      exact hlast (List.getElem?_eq_some_iff.mp ((h other i).mp hi)).1
    split
    · next heq =>
      subst heq
      simp only [Option.some.injEq]
      split <;> simp <;> omega
    · next hne => simp [hold, Ne.symm hne]

/-- The registry after an identity was taken out and the last one took its place. -/
def reenter (r : Registry) (id : EntityId) (i : Nat) (moved : Option EntityId) : Registry :=
  match moved with
  | some moved => (r.erase id).insert moved i
  | none => r.erase id

/-- Once an identity is erased, any other one is still found where it stands, and none at the place that
became free. -/
theorem find?_erase_iff (h : r.Indexes ids) (hi : ids[i]? = some id) {other : EntityId} {j : Nat} :
    (r.erase id).find? other = some j ↔ ids[j]? = some other ∧ j ≠ i := by
  rw [find?_erase]
  split
  · next heq =>
    subst heq
    simp only [reduceCtorEq, false_iff, not_and, not_not]
    exact fun hj => h.place_unique hj hi
  · next hne =>
    rw [h other j, iff_self_and]
    rintro hj rfl
    exact hne (Option.some.inj (hj.symm.trans hi))

/-- An identity is taken out, and the last one takes its place. -/
theorem swapRemove (h : r.Indexes ids) (hi : ids[i]? = some id) :
    (reenter r id i (ConvexCollision.swapRemove ids i)[i]?).Indexes
      (ConvexCollision.swapRemove ids i) := by
  have hlt : i < ids.length := (List.getElem?_eq_some_iff.mp hi).1
  intro other j
  rw [getElem?_swapRemove hlt, getElem?_swapRemove hlt]
  by_cases hlast : i + 1 < ids.length
  · -- the last identity moves, so that it is found at the place that became free
    obtain ⟨moved, hmoved⟩ : ∃ moved, ids.getLast? = some moved := by
      rw [List.getLast?_eq_getElem?]
      exact ⟨_, List.getElem?_eq_getElem (by omega)⟩
    have hend : ids[ids.length - 1]? = some moved := by rw [← List.getLast?_eq_getElem?, hmoved]
    simp only [hlast, if_true, hmoved, reenter, find?_insert]
    by_cases hother : other = moved
    · subst hother
      rw [if_pos rfl, Option.some.injEq]
      constructor
      · rintro rfl
        rw [if_pos hlast, if_pos rfl]
      · intro hplace
        split at hplace
        · split at hplace
          · next hji => exact hji.symm
          · have hsame := h.place_unique hplace hend
            omega
        · cases hplace
    · rw [if_neg hother, h.find?_erase_iff hi]
      constructor
      · rintro ⟨hj, hji⟩
        have hjend : j ≠ ids.length - 1 := fun heq =>
          hother (Option.some.inj ((heq ▸ hj).symm.trans hend))
        have hjlt := (List.getElem?_eq_some_iff.mp hj).1
        rw [if_pos (by omega), if_neg hji]
        exact hj
      · intro hplace
        split at hplace
        · split at hplace
          · exact absurd (Option.some.inj hplace).symm hother
          · next hji => exact ⟨hplace, hji⟩
        · cases hplace
  · -- it was the last one itself, and nothing moves
    simp only [hlast, if_false, reenter, h.find?_erase_iff hi]
    constructor
    · rintro ⟨hj, hji⟩
      have hjlt := (List.getElem?_eq_some_iff.mp hj).1
      rw [if_pos (by omega), if_neg hji]
      exact hj
    · intro hplace
      split at hplace
      · rw [if_neg (by omega)] at hplace
        exact ⟨hplace, by omega⟩
      · cases hplace

end Indexes

end Registry

/-! ## §C Elements and their identities -/

variable {α : Type} [Scalar α]

namespace Element

omit [Scalar α] in
/-- Overwriting an element under its identity changes none of the identities. -/
theorem ids_set {es : List (Element α)} {i : Nat} {e' : Element α}
    (hi : (es.map Element.id)[i]? = some e'.id) :
    (es.set i e').map Element.id = es.map Element.id := by
  obtain ⟨hlt, hid⟩ := List.getElem?_eq_some_iff.mp hi
  rw [List.map_set, ← hid, List.set_getElem_self]

end Element

namespace World

variable {w w' : World α} {id : EntityId} {e : Element α}

/-- The identities of the elements, in their order. -/
def ids (w : World α) : List EntityId := w.elements.toList.map Element.id

/-- Every element is found under its identity and nothing else is, and no identity is the reserved
one. -/
structure Registered (w : World α) : Prop where
  /-- An identity is found where it stands. -/
  indexes : w.registry.Indexes w.ids
  /-- No element has the reserved identity. -/
  named : EntityId.none ∉ w.ids

theorem mem_ids : id ∈ w.ids ↔ ∃ e ∈ w.elements, e.id = id := by
  simp [ids]

theorem getElem?_ids (w : World α) (i : Nat) : w.ids[i]? = w.elements[i]?.map Element.id := by
  simp [ids]

/-- Whatever leaves the registry and the identities alone leaves their agreement alone. -/
theorem Registered.congr (h : w.Registered) (hregistry : w'.registry = w.registry)
    (hids : w'.ids = w.ids) : w'.Registered := by
  refine ⟨?_, ?_⟩
  · rw [hregistry, hids]
    exact h.indexes
  · rw [hids]
    exact h.named

/-- Looking up finds the one element with the identity. -/
theorem Registered.find?_eq_some_iff (h : w.Registered) :
    w.find? id = some e ↔ e ∈ w.elements ∧ e.id = id := by
  unfold find?
  rw [Option.bind_eq_some_iff, Array.mem_iff_getElem?]
  constructor
  · rintro ⟨i, hi, he⟩
    have hid := (h.indexes id i).mp hi
    rw [getElem?_ids, he] at hid
    exact ⟨⟨i, he⟩, Option.some.inj hid⟩
  · rintro ⟨⟨i, he⟩, rfl⟩
    refine ⟨i, (h.indexes e.id i).mpr ?_, he⟩
    rw [getElem?_ids, he]
    rfl

theorem Registered.findObject?_eq_some_iff (h : w.Registered) {o : DynamicObject α} :
    w.findObject? id = some o ↔ .object o ∈ w.elements ∧ o.id = id := by
  unfold findObject?
  rw [Option.bind_eq_some_iff]
  constructor
  · rintro ⟨e, he, ho⟩
    cases e with
    | object o' =>
      cases ho
      exact h.find?_eq_some_iff.mp he
    | trigger t => cases ho
  · intro ho
    exact ⟨.object o, h.find?_eq_some_iff.mpr ho, rfl⟩

theorem Registered.findTrigger?_eq_some_iff (h : w.Registered) {t : SpatialTrigger α} :
    w.findTrigger? id = some t ↔ .trigger t ∈ w.elements ∧ t.id = id := by
  unfold findTrigger?
  rw [Option.bind_eq_some_iff]
  constructor
  · rintro ⟨e, he, ht⟩
    cases e with
    | object o => cases ht
    | trigger t' =>
      cases ht
      exact h.find?_eq_some_iff.mp he
  · intro ht
    exact ⟨.trigger t, h.find?_eq_some_iff.mpr ht, rfl⟩

/-! ## §D Adding -/

theorem new_registered (config : Config α) : (World.new config).Registered :=
  ⟨Registry.Indexes.empty, List.not_mem_nil⟩

theorem reset_registered (w : World α) : w.reset.Registered :=
  ⟨Registry.Indexes.empty, List.not_mem_nil⟩

/-- A mesh is added as the last one, under the next number. -/
theorem addMesh_eq_ok {m : Mesh α} {handle : MeshHandle} (hadd : w.addMesh m = .ok (w', handle)) :
    w' = ({ w with
      meshes := w.meshes ++ [(⟨w.nextHandle⟩, m)]
      nextHandle := w.nextHandle + 1 } : World α).updateKillPlane := by
  unfold World.addMesh at hadd
  split at hadd
  · exact (congrArg Prod.fst (Except.ok.inj hadd)).symm
  · cases hadd

/-- A mesh that is loaded is taken out under its handle. When none is loaded under it the world is left as
it is. -/
theorem removeMesh_cases (w : World α) (handle : MeshHandle) :
    ((∀ entry ∈ w.meshes, entry.1 ≠ handle) ∧ w.removeMesh handle = (none, w)) ∨
    ∃ m, (handle, m) ∈ w.meshes ∧ w.removeMesh handle =
      (some m, { w with meshes := w.meshes.eraseP fun e => e.1 == handle }.updateKillPlane) := by
  unfold removeMesh
  cases hfound : w.meshes.find? fun e => e.1 == handle with
  | none => exact .inl ⟨by simpa using hfound, rfl⟩
  | some entry =>
    obtain ⟨handle', m⟩ := entry
    obtain rfl : handle' = handle := by simpa using List.find?_some hfound
    exact .inr ⟨m, List.mem_of_find?_eq_some hfound, rfl⟩

/-- An element is added as the last one, or the world is left as it is. -/
theorem addElement_cases (w : World α) (e : Element α) :
    w.addElement e = (.ok (), w.withElement e) ∨ ∃ error, w.addElement e = (.error error, w) := by
  unfold addElement
  split
  · exact .inr ⟨_, rfl⟩
  split
  · exact .inr ⟨_, rfl⟩
  · exact .inl rfl

/-- An element is added exactly when its identity is neither the reserved one nor taken. -/
theorem Registered.addElement_eq_ok_iff (h : w.Registered) :
    w.addElement e = (.ok (), w.withElement e) ↔ e.id ≠ EntityId.none ∧ e.id ∉ w.ids := by
  unfold addElement EntityId.isNone
  rw [← h.indexes.contains_iff]
  by_cases hnone : e.id = EntityId.none
  · simp [hnone]
  · by_cases htaken : w.registry.contains e.id = true
    · simp [hnone, htaken]
    · simp [hnone, htaken]

/-- Otherwise it is refused, and the world is left as it is. -/
theorem Registered.addElement_eq_error_iff (h : w.Registered) :
    (∃ error, w.addElement e = (.error error, w)) ↔
      e.id = EntityId.none ∨ ∃ e' ∈ w.elements, e'.id = e.id := by
  have hok := h.addElement_eq_ok_iff (e := e)
  rw [← mem_ids]
  rcases w.addElement_cases e with hadd | ⟨error, hadd⟩
  · obtain ⟨hnone, hnew⟩ := hok.mp hadd
    simp [hadd, hnone, hnew]
  · have hrefused : ¬(e.id ≠ EntityId.none ∧ e.id ∉ w.ids) := by
      rw [← hok, hadd]
      simp
    refine ⟨fun _ => ?_, fun _ => ⟨error, hadd⟩⟩
    by_contra hboth
    exact hrefused (not_or.mp hboth)

theorem Registered.withElement (h : w.Registered) (hadd : w.addElement e = (.ok (), w.withElement e)) :
    (w.withElement e).Registered := by
  obtain ⟨hnone, hnew⟩ := h.addElement_eq_ok_iff.mp hadd
  have hids : (w.withElement e).ids = w.ids ++ [e.id] := by
    simp [ids, World.withElement]
  refine ⟨?_, ?_⟩
  · rw [hids]
    have hindexes := h.indexes.insert hnew
    simpa [ids, World.withElement] using hindexes
  · rw [hids, List.mem_append, List.mem_singleton]
    rintro (hold | hlast)
    · exact h.named hold
    · exact hnone hlast.symm

/-! ## §E Taking out -/

/-- What is found can be taken out. -/
theorem exists_removeElement (he : w.find? id = some e) :
    ∃ w', w.removeElement id = .ok (some (e.returnContacts w.pool).1, w') := by
  obtain ⟨i, hi, he⟩ := Option.bind_eq_some_iff.mp he
  unfold removeElement
  rw [hi]
  simp only [he]
  exact ⟨_, rfl⟩

/-- With a right registry, taking out what is not found meets no fault and changes nothing. -/
theorem Registered.removeElement_eq_none (h : w.Registered) (he : w.find? id = none) :
    w.removeElement id = .ok (none, w) := by
  unfold World.removeElement
  cases hi : w.registry.find? id with
  | none => rfl
  | some i =>
    have hplace := (h.indexes id i).mp hi
    rw [getElem?_ids, Option.map_eq_some_iff] at hplace
    obtain ⟨e, hplace, -⟩ := hplace
    rw [find?, hi, Option.bind_some, hplace] at he
    cases he

theorem Registered.removeElement (h : w.Registered) {taken? : Option (Element α)}
    (hremove : w.removeElement id = .ok (taken?, w')) : w'.Registered := by
  unfold World.removeElement at hremove
  split at hremove
  · cases hremove
    exact h
  next i hi =>
  split at hremove
  · cases hremove
  cases hremove
  have hplace := (h.indexes id i).mp hi
  have hids : (swapRemoveAt w.elements i).toList.map Element.id = swapRemove w.ids i := by
    rw [toList_swapRemoveAt, map_swapRemove]
    rfl
  refine ⟨?_, ?_⟩
  · have hindexes := h.indexes.swapRemove hplace
    rw [← hids, List.getElem?_map, Array.getElem?_toList] at hindexes
    -- the element that took the free place, if there is one, was entered there
    simp only [ids]
    cases hmoved : (swapRemoveAt w.elements i)[i]? with
    | none => simpa [hmoved, Registry.Indexes.reenter] using hindexes
    | some moved => simpa [hmoved, Registry.Indexes.reenter] using hindexes
  · show EntityId.none ∉ (swapRemoveAt w.elements i).toList.map Element.id
    rw [hids]
    intro hnone
    have hlt := (List.getElem?_eq_some_iff.mp hplace).1
    exact h.named (List.mem_of_mem_eraseIdx ((swapRemove_perm hlt).mem_iff.mp hnone))

/-- An element keeps its kind when it gives its contacts back. -/
theorem isSome_object?_returnContacts (e : Element α) (pool : ContactPool α) :
    (e.returnContacts pool).1.object?.isSome = e.object?.isSome := by
  cases e <;> rfl

theorem isSome_trigger?_returnContacts (e : Element α) (pool : ContactPool α) :
    (e.returnContacts pool).1.trigger?.isSome = e.trigger?.isSome := by
  cases e <;> rfl

/-- An element of a kind that is found is taken out as one of that kind. When none is found the world is
left as it is. -/
theorem removeOf_cases {τ : Type} {kind : Element α → Option τ}
    (hkind : ∀ e pool, (kind (e.returnContacts pool).1).isSome = (kind e).isSome) (w : World α)
    (id : EntityId) :
    ((w.find? id).bind kind = none ∧ removeOf kind w id = .ok (none, w)) ∨
    ((w.find? id).bind kind ≠ none ∧ ∃ e x w', w.removeElement id = .ok (some e, w') ∧ kind e = some x ∧
      removeOf kind w id = .ok (some x, w')) := by
  unfold removeOf
  cases hfound : (w.find? id).bind kind with
  | none => exact .inl ⟨rfl, rfl⟩
  | some y =>
    obtain ⟨e, he, hy⟩ := Option.bind_eq_some_iff.mp hfound
    obtain ⟨w', hremove⟩ := exists_removeElement he
    have hsame := hkind e w.pool
    rw [hy, Option.isSome_some, Option.isSome_iff_exists] at hsame
    obtain ⟨x, hx⟩ := hsame
    refine .inr ⟨Option.some_ne_none y, _, x, w', hremove, hx, ?_⟩
    rw [hremove]
    exact congrArg (fun x => Except.ok (x, w')) hx

/-- Taking out by identity, known or not, meets no fault. -/
theorem Registered.dropElement (h : w.Registered) (id : EntityId) :
    ∃ w', w.dropElement id = .ok w' ∧ w'.Registered := by
  unfold World.dropElement
  cases he : w.find? id with
  | some e =>
    obtain ⟨w', hremove⟩ := exists_removeElement he
    rw [hremove]
    exact ⟨w', rfl, h.removeElement hremove⟩
  | none =>
    rw [h.removeElement_eq_none he]
    exact ⟨w, rfl, h⟩

theorem Registered.removeAll (h : w.Registered) (ids : List EntityId) :
    ∃ w', w.removeAll ids = .ok w' ∧ w'.Registered := by
  induction ids generalizing w with
  | nil => exact ⟨w, rfl, h⟩
  | cons id ids ih =>
    obtain ⟨w₁, hdrop, h₁⟩ := h.dropElement id
    obtain ⟨w', hremove, h'⟩ := ih h₁
    refine ⟨w', ?_, h'⟩
    unfold World.removeAll at hremove ⊢
    rw [List.foldlM_cons, hdrop]
    exact hremove

/-! ## §F Writing to an element -/

/-- An object that is found is written to in its place. When none is found the world is left as it is. -/
theorem modifyObject_cases (w : World α) (id : EntityId) (f : DynamicObject α → DynamicObject α) :
    (w.findObject? id = none ∧ w.modifyObject id f = (none, w)) ∨
    (w.findObject? id ≠ none ∧ ∃ i o, w.registry.find? id = some i ∧ w.findObject? id = some o ∧
      w.modifyObject id f = (some o, { w with elements := w.elements.setIfInBounds i (.object (f o)) })) := by
  unfold modifyObject
  cases ho : w.findObject? id with
  | none => exact .inl ⟨rfl, by cases w.registry.find? id <;> rfl⟩
  | some o =>
    obtain ⟨e, he, -⟩ := Option.bind_eq_some_iff.mp ho
    obtain ⟨i, hi, -⟩ := Option.bind_eq_some_iff.mp he
    rw [hi]
    exact .inr ⟨Option.some_ne_none o, i, o, rfl, rfl, rfl⟩

/-- A trigger that is found is written to in its place. When none is found the world is left as it is. -/
theorem modifyTrigger_cases (w : World α) (id : EntityId) (f : SpatialTrigger α → SpatialTrigger α) :
    (w.findTrigger? id = none ∧ w.modifyTrigger id f = (none, w)) ∨
    (w.findTrigger? id ≠ none ∧ ∃ i t, w.registry.find? id = some i ∧ w.findTrigger? id = some t ∧
      w.modifyTrigger id f = (some t, { w with elements := w.elements.setIfInBounds i (.trigger (f t)) })) := by
  unfold modifyTrigger
  cases ht : w.findTrigger? id with
  | none => exact .inl ⟨rfl, by cases w.registry.find? id <;> rfl⟩
  | some t =>
    obtain ⟨e, he, -⟩ := Option.bind_eq_some_iff.mp ht
    obtain ⟨i, hi, -⟩ := Option.bind_eq_some_iff.mp he
    rw [hi]
    exact .inr ⟨Option.some_ne_none t, i, t, rfl, rfl, rfl⟩

theorem getElem?_of_findObject? {w : World α} {id : EntityId} {i : Nat} {o : DynamicObject α}
    (hi : w.registry.find? id = some i) (ho : w.findObject? id = some o) :
    w.elements[i]? = some (.object o) := by
  unfold findObject? find? at ho
  rw [hi, Option.bind_some] at ho
  obtain ⟨e, he, ho⟩ := Option.bind_eq_some_iff.mp ho
  cases e with
  | object o' =>
    cases ho
    exact he
  | trigger t => cases ho

theorem getElem?_of_findTrigger? {w : World α} {id : EntityId} {i : Nat} {t : SpatialTrigger α}
    (hi : w.registry.find? id = some i) (ht : w.findTrigger? id = some t) :
    w.elements[i]? = some (.trigger t) := by
  unfold findTrigger? find? at ht
  rw [hi, Option.bind_some] at ht
  obtain ⟨e, he, ht⟩ := Option.bind_eq_some_iff.mp ht
  cases e with
  | object o => cases ht
  | trigger t' =>
    cases ht
    exact he

/-- An element is overwritten under its identity. -/
theorem Registered.setElement (h : w.Registered) {i : Nat} {e' : Element α}
    (hi : w.elements[i]? = some e) (hid : e'.id = e.id) :
    ({ w with elements := w.elements.setIfInBounds i e' } : World α).Registered := by
  refine h.congr rfl ?_
  unfold ids
  rw [Array.toList_setIfInBounds]
  exact Element.ids_set (by simp [hi, hid])

end World

end ConvexCollision
