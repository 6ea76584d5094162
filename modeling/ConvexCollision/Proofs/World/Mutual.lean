import ConvexCollision.Proofs.Single.Sign
import ConvexCollision.Proofs.World.Entries
import ConvexCollision.Proofs.World.Run

/-!
# ConvexCollision.Proofs.World.Mutual -- contacts between objects come in twos

Follows what the elements of a world tell of each other through a tick. The broad phase names no two
elements twice, and a pair that it names is resolved once, so that after the pairs that were passed
(`Told`) a contact names the other party of one of them, and two elements know of each other what one
step leaves: of two objects both have one contact or neither has, with opposite normals (`Tells`).
Nothing later adds a contact that names anybody, and what is taken out takes its own list with it, so
that it is still so when the tick has come to its end (`Agreed`).

A contact that is dropped breaks all of it, but then it is on the journal.
-/

namespace ConvexCollision

variable {α : Type} [Scalar α]

/-! ## §A What two elements tell of each other -/

/-- The contacts that name an entity. -/
def naming (id : EntityId) (cs : List (Contact α)) : List (Contact α) :=
  cs.filter fun c => c.other == id

section Naming

variable {id : EntityId} {cs ds : List (Contact α)}

omit [Scalar α] in
@[simp] theorem naming_append : naming id (cs ++ ds) = naming id cs ++ naming id ds :=
  List.filter_append ..

omit [Scalar α] in
theorem mem_naming {c : Contact α} : c ∈ naming id cs ↔ c ∈ cs ∧ c.other = id := by
  simp [naming]

omit [Scalar α] in
theorem naming_eq_self (h : ∀ c ∈ cs, c.other = id) : naming id cs = cs := by
  refine List.filter_eq_self.mpr ?_
  intro c hc
  simp [h c hc]

omit [Scalar α] in
theorem naming_eq_nil (h : ∀ c ∈ cs, c.other ≠ id) : naming id cs = [] := by
  refine List.filter_eq_nil_iff.mpr ?_
  intro c hc
  simp [h c hc]

end Naming

theorem Vec3.neg_neg [Scalar.Negatable α] (v : Vec3 α) : - -v = v := by
  show (⟨- -v.x, - -v.y, - -v.z⟩ : Vec3 α) = v
  simp only [Scalar.Negatable.neg_neg]

namespace Exchange

variable {a b : EntityId} {cs ds : List (Contact α)}

/-- Both parties have a contact or neither has. -/
theorem ne_nil_iff (h : Exchange a b cs ds) : cs ≠ [] ↔ ds ≠ [] := by
  cases h <;> simp

/-- The normals are opposite. -/
theorem opposite_normals [Scalar.Negatable α] (h : Exchange a b cs ds) :
    ∀ c ∈ cs, ∀ d ∈ ds, c.normal = -d.normal ∧ d.normal = -c.normal := by
  cases h with
  | nothing => simp
  | contact _ _ hopposite =>
    intro c hc d hd
    rw [List.mem_singleton.mp hc, List.mem_singleton.mp hd]
    exact ⟨hopposite, by rw [hopposite, Vec3.neg_neg]⟩

end Exchange

/-- The element is an object, not a trigger. -/
def Element.isObject (e : Element α) : Bool := e.object?.isSome

/-- What stays of an element in a tick: what it is, and its identity. -/
def Element.key (e : Element α) : Bool × EntityId := (e.isObject, e.id)

/-- With these contacts of one element that name the other one, and those of the other one that name
it: neither names the other twice, and two objects name each other or do not. -/
structure Tells (x y : Element α) (cs ds : List (Contact α)) : Prop where
  /-- The first names the second at most once. -/
  once : cs.length ≤ 1
  /-- The second names the first at most once. -/
  onceBack : ds.length ≤ 1
  /-- Two objects have one contact each or none. -/
  both : x.isObject = true → y.isObject = true → Exchange x.id y.id cs ds ∨ Exchange y.id x.id ds cs

namespace Tells

variable {x y x' y' : Element α} {cs ds : List (Contact α)}

theorem symm (h : Tells x y cs ds) : Tells y x ds cs :=
  ⟨h.onceBack, h.once, fun hy hx => (h.both hx hy).symm⟩

theorem congr (h : Tells x y cs ds) (hx : x'.key = x.key) (hy : y'.key = y.key) :
    Tells x' y' cs ds := by
  obtain ⟨hkindX, hidX⟩ := Prod.mk.inj hx
  obtain ⟨hkindY, hidY⟩ := Prod.mk.inj hy
  refine ⟨h.once, h.onceBack, ?_⟩
  intro hobjectX hobjectY
  rw [hidX, hidY]
  exact h.both (hkindX ▸ hobjectX) (hkindY ▸ hobjectY)

theorem nothing (x y : Element α) : Tells x y [] [] :=
  ⟨Nat.zero_le 1, Nat.zero_le 1, fun _ _ => .inl .nothing⟩

end Tells

/-! ## §B Pair after pair -/

/-- What the entries tell after the pairs that were passed: a contact names the other party of one of
these pairs, and every two elements know of each other what one step leaves. -/
structure Told (passed : List BroadPhase.Pair) (xs : List (Entry α)) : Prop where
  /-- A contact names the other party of a pair that was passed. -/
  named : ∀ (i : Nat) (x : Entry α), xs[i]? = some x → ∀ c ∈ x.2, ∃ (j : Nat) (y : Entry α),
    xs[j]? = some y ∧ (∃ p ∈ passed, p.same ⟨i, j⟩ = true) ∧ c.other = y.1.id
  /-- Any two elements agree on whether they met. -/
  tells : ∀ (i j : Nat) (x y : Entry α), i ≠ j → xs[i]? = some x → xs[j]? = some y →
    Tells x.1 y.1 (naming y.1.id x.2) (naming x.1.id y.2)

omit [Scalar α] in
/-- Elements with different identities stand in different places. -/
theorem place_eq_of_id_eq {xs : List (Entry α)} (hids : (xs.map fun x => x.1.id).Nodup) {i j : Nat}
    {x y : Entry α} (hi : xs[i]? = some x) (hj : xs[j]? = some y) (h : x.1.id = y.1.id) : i = j := by
  by_contra hij
  have hx : (xs.map fun x => x.1.id)[i]? = some x.1.id := by rw [List.getElem?_map, hi]; rfl
  have hy : (xs.map fun x => x.1.id)[j]? = some x.1.id := by rw [List.getElem?_map, hj, h]; rfl
  have hlti := (List.getElem?_eq_some_iff.mp hx).1
  have hltj := (List.getElem?_eq_some_iff.mp hy).1
  rw [List.nodup_iff_getElem?_ne_getElem?] at hids
  rcases Nat.lt_or_gt_of_ne hij with hlt | hgt
  · exact hids i j hlt hltj (hx.trans hy.symm)
  · exact hids j i hgt hlti (hy.trans hx.symm)

namespace Told

variable {passed : List BroadPhase.Pair} {p : BroadPhase.Pair} {xs ys : List (Entry α)} {i j : Nat}

theorem of_empty (es : List (Element α)) : Told [] (es.map fun e => ((e, []) : Entry α)) := by
  have hnil : ∀ (i : Nat) (x : Entry α), (es.map fun e => ((e, []) : Entry α))[i]? = some x →
      x.2 = [] := by
    intro i x hx
    rw [List.getElem?_map, Option.map_eq_some_iff] at hx
    obtain ⟨e, -, rfl⟩ := hx
    rfl
  refine ⟨?_, ?_⟩
  · intro i x hx c hc
    rw [hnil i x hx] at hc
    cases hc
  · intro i j x y _ hx hy
    rw [hnil i x hx, hnil j y hy]
    exact Tells.nothing x.1 y.1

theorem mono (h : Told passed xs) (p : BroadPhase.Pair) : Told (passed ++ [p]) xs := by
  refine ⟨?_, h.tells⟩
  intro i x hx c hc
  obtain ⟨j, y, hy, ⟨q, hq, hsame⟩, hother⟩ := h.named i x hx c hc
  exact ⟨j, y, hy, ⟨q, List.mem_append_left _ hq, hsame⟩, hother⟩

/-- Elements of a pair that was not passed do not name each other. -/
theorem silent (h : Told passed xs) (hids : (xs.map fun x => x.1.id).Nodup) {x y : Entry α}
    (hi : xs[i]? = some x) (hj : xs[j]? = some y) (hfresh : ∀ q ∈ passed, q.same ⟨i, j⟩ = false) :
    naming y.1.id x.2 = [] := by
  refine naming_eq_nil ?_
  intro c hc hother
  obtain ⟨k, z, hk, ⟨q, hq, hsame⟩, hz⟩ := h.named i x hi c hc
  have hkj : k = j := place_eq_of_id_eq hids hk hj (hz.symm.trans hother)
  rw [hkj, hfresh q hq] at hsame
  exact Bool.false_ne_true hsame

end Told

/-- A step with a pair: every element stays what it is, and what is added to a list names the other
party of the pair. -/
structure Grows (p : BroadPhase.Pair) (xs ys : List (Entry α)) : Prop where
  /-- The elements stay what they are. -/
  keys : (ys.map fun y => y.1.key) = xs.map fun x => x.1.key
  /-- What is added names the other party. -/
  added : ∀ (i : Nat) (x y : Entry α), xs[i]? = some x → ys[i]? = some y → ∃ added, y.2 = added ++ x.2 ∧
    ∀ c ∈ added, ∃ (j : Nat) (z : Entry α), p.same ⟨i, j⟩ = true ∧ xs[j]? = some z ∧ c.other = z.1.id

namespace Grows

variable {passed : List BroadPhase.Pair} {p : BroadPhase.Pair} {xs ys : List (Entry α)} {i : Nat}

omit [Scalar α] in
theorem before (h : Grows p xs ys) {y : Entry α} (hi : ys[i]? = some y) :
    ∃ x, xs[i]? = some x ∧ y.1.key = x.1.key := by
  have hkey : (xs.map fun x => x.1.key)[i]? = some y.1.key := by
    rw [← h.keys, List.getElem?_map, hi]
    rfl
  rw [List.getElem?_map, Option.map_eq_some_iff] at hkey
  obtain ⟨x, hx, hkey⟩ := hkey
  exact ⟨x, hx, hkey.symm⟩

omit [Scalar α] in
theorem after (h : Grows p xs ys) {x : Entry α} (hi : xs[i]? = some x) :
    ∃ y, ys[i]? = some y ∧ y.1.key = x.1.key := by
  have hkey : (ys.map fun y => y.1.key)[i]? = some x.1.key := by
    rw [h.keys, List.getElem?_map, hi]
    rfl
  rw [List.getElem?_map, Option.map_eq_some_iff] at hkey
  exact hkey

/-- After a step with one more pair, if that leaves its two parties with what one step leaves. -/
theorem told (hgrows : Grows p xs ys) (h : Told passed xs) (hids : (xs.map fun x => x.1.id).Nodup)
    (hpair : ∀ x y, ys[p.a]? = some x → ys[p.b]? = some y →
      Tells x.1 y.1 (naming y.1.id x.2) (naming x.1.id y.2)) : Told (passed ++ [p]) ys := by
  -- what is added at a place names nobody but the other party of the pair
  have hsame : ∀ (i j : Nat) (x y x' y' : Entry α), p.same ⟨i, j⟩ = false → xs[i]? = some x →
      xs[j]? = some y → ys[i]? = some x' → naming y.1.id x'.2 = naming y.1.id x.2 := by
    intro i j x y x' y' hother hx hy hx'
    obtain ⟨added, heq, hadded⟩ := hgrows.added i x x' hx hx'
    rw [heq, naming_append, naming_eq_nil, List.nil_append]
    intro c hc hid
    obtain ⟨k, z, hk, hz, hcz⟩ := hadded c hc
    rw [place_eq_of_id_eq hids hz hy (hcz.symm.trans hid), hother] at hk
    exact Bool.false_ne_true hk
  refine ⟨?_, ?_⟩
  · intro i y hy c hc
    obtain ⟨x, hx, -⟩ := hgrows.before hy
    obtain ⟨added, heq, hadded⟩ := hgrows.added i x y hx hy
    rw [heq, List.mem_append] at hc
    rcases hc with hc | hc
    · obtain ⟨j, z, hj, hz, hother⟩ := hadded c hc
      obtain ⟨z', hz', hkey⟩ := hgrows.after hz
      exact ⟨j, z', hz', ⟨p, by simp, hj⟩, hother.trans (Prod.mk.inj hkey).2.symm⟩
    · obtain ⟨j, z, hz, ⟨q, hq, hj⟩, hother⟩ := h.named i x hx c hc
      obtain ⟨z', hz', hkey⟩ := hgrows.after hz
      exact ⟨j, z', hz', ⟨q, List.mem_append_left _ hq, hj⟩,
        hother.trans (Prod.mk.inj hkey).2.symm⟩
  · intro i j x' y' hij hx' hy'
    cases hcase : p.same ⟨i, j⟩ with
    | true =>
      rcases BroadPhase.Pair.same_iff.mp hcase with ⟨rfl, rfl⟩ | ⟨rfl, rfl⟩
      · exact hpair x' y' hx' hy'
      · exact (hpair y' x' hy' hx').symm
    | false =>
      obtain ⟨x, hx, hkeyX⟩ := hgrows.before hx'
      obtain ⟨y, hy, hkeyY⟩ := hgrows.before hy'
      have hback : p.same ⟨j, i⟩ = false := (p.same_swap j i).trans hcase
      have hold := h.tells i j x y hij hx hy
      rw [← hsame i j x y x' y' hcase hx hy hx', ← hsame j i y x y' x' hback hy hx hy'] at hold
      rw [(Prod.mk.inj hkeyX).2, (Prod.mk.inj hkeyY).2]
      exact hold.congr hkeyX hkeyY

omit [Scalar α] in
/-- The list of one party of the pair grows by contacts that name the other one. -/
theorem set {a b : Nat} {e e' f : Element α} {cs ds added : List (Contact α)}
    (ha : xs[a]? = some (e, cs)) (hb : xs[b]? = some (f, ds)) (hp : p.same ⟨a, b⟩ = true)
    (he : e'.key = e.key) (hadded : ∀ c ∈ added, c.other = f.id) :
    Grows p xs (xs.set a (e', added ++ cs)) := by
  constructor
  case keys =>
    have hkey : (xs.map fun x => x.1.key)[a]? = some e'.key := by
      rw [List.getElem?_map, ha, he]
      rfl
    obtain ⟨hlt, hget⟩ := List.getElem?_eq_some_iff.mp hkey
    rw [List.map_set, ← hget, List.set_getElem_self]
  case added =>
    intro i x y hx hy
    by_cases hi : a = i
    · subst hi
      rw [List.getElem?_set_self (List.getElem?_eq_some_iff.mp ha).1] at hy
      cases hy
      cases ha.symm.trans hx
      exact ⟨added, rfl, fun c hc => ⟨b, (f, ds), hp, hb, hadded c hc⟩⟩
    · rw [List.getElem?_set_ne hi] at hy
      cases hx.symm.trans hy
      exact ⟨[], rfl, fun c hc => absurd hc List.not_mem_nil⟩

omit [Scalar α] in
theorem trans {zs : List (Entry α)} (h : Grows p xs ys) (g : Grows p ys zs) : Grows p xs zs := by
  refine ⟨g.keys.trans h.keys, ?_⟩
  intro i x z hx hz
  obtain ⟨y, hy, -⟩ := h.after hx
  obtain ⟨first, heqY, hfirst⟩ := h.added i x y hx hy
  obtain ⟨second, heqZ, hsecond⟩ := g.added i y z hy hz
  refine ⟨second ++ first, by rw [heqZ, heqY, List.append_assoc], ?_⟩
  intro c hc
  rcases List.mem_append.mp hc with hc | hc
  · obtain ⟨j, w, hj, hw, hother⟩ := hsecond c hc
    obtain ⟨v, hv, hkey⟩ := h.before hw
    exact ⟨j, v, hj, hv, hother.trans (Prod.mk.inj hkey).2⟩
  · exact hfirst c hc

end Grows

/-- Two elements that were not paired before get contacts that name each other. -/
theorem Told.meet {passed : List BroadPhase.Pair} {p : BroadPhase.Pair} {xs : List (Entry α)}
    {a b : Nat} {e f e' f' : Element α} {cs ds added addedBack : List (Contact α)}
    (h : Told passed xs) (hids : (xs.map fun x => x.1.id).Nodup) (hab : a ≠ b)
    (ha : xs[a]? = some (e, cs)) (hb : xs[b]? = some (f, ds)) (hp : p.same ⟨a, b⟩ = true)
    (hfresh : ∀ q ∈ passed, q.same p = false) (he : e'.key = e.key) (hf : f'.key = f.key)
    (hadded : ∀ c ∈ added, c.other = f.id) (hback : ∀ c ∈ addedBack, c.other = e.id)
    (htells : Tells e f added addedBack) :
    Told (passed ++ [p]) ((xs.set a (e', added ++ cs)).set b (f', addedBack ++ ds)) := by
  have hlta := (List.getElem?_eq_some_iff.mp ha).1
  have hltb := (List.getElem?_eq_some_iff.mp hb).1
  have hpb : p.same ⟨b, a⟩ = true := (p.same_swap b a).trans hp
  -- one of them is written first, and the other one finds it
  have hset : (xs.set a (e', added ++ cs))[a]? = some (e', added ++ cs) := List.getElem?_set_self hlta
  have hother : (xs.set a (e', added ++ cs))[b]? = some (f, ds) := by rw [List.getElem?_set_ne hab, hb]
  have hgrows : Grows p xs ((xs.set a (e', added ++ cs)).set b (f', addedBack ++ ds)) :=
    (Grows.set ha hb hp he hadded).trans <| .set hother hset hpb hf fun c hc =>
      (hback c hc).trans (Prod.mk.inj he).2.symm
  refine hgrows.told h hids ?_
  -- the two parties did not name each other before
  have hcs : naming f.id cs = [] :=
    h.silent hids ha hb fun q hq => (BroadPhase.Pair.same_congr hp q).symm.trans (hfresh q hq)
  have hds : naming e.id ds = [] :=
    h.silent hids hb ha fun q hq => (BroadPhase.Pair.same_congr hpb q).symm.trans (hfresh q hq)
  have hpair : Tells e' f' (naming f'.id (added ++ cs)) (naming e'.id (addedBack ++ ds)) := by
    rw [(Prod.mk.inj hf).2, (Prod.mk.inj he).2, naming_append, naming_append, hcs, hds,
      naming_eq_self hadded, naming_eq_self hback, List.append_nil, List.append_nil]
    exact htells.congr he hf
  have hplaceA : ((xs.set a (e', added ++ cs)).set b (f', addedBack ++ ds))[a]? =
      some (e', added ++ cs) := by
    rw [List.getElem?_set_ne hab.symm, hset]
  have hplaceB : ((xs.set a (e', added ++ cs)).set b (f', addedBack ++ ds))[b]? =
      some (f', addedBack ++ ds) :=
    List.getElem?_set_self (by rwa [List.length_set])
  intro x y hx hy
  rcases BroadPhase.Pair.same_iff.mp hp with ⟨hpa, hpb⟩ | ⟨hpa, hpb⟩
  · rw [hpa, hplaceA] at hx
    rw [hpb, hplaceB] at hy
    cases hx
    cases hy
    exact hpair
  · rw [hpa, hplaceB] at hx
    rw [hpb, hplaceA] at hy
    cases hx
    cases hy
    exact hpair.symm

/-! ## §C Whatever the order of the elements -/

/-- Any two elements agree on whether they met, no trigger names anybody twice, and no element has the
identity that stands for nobody. -/
structure Agreed (xs : List (Entry α)) : Prop where
  /-- Any two elements agree on whether they met. -/
  tells : xs.Pairwise fun x y => Tells x.1 y.1 (naming y.1.id x.2) (naming x.1.id y.2)
  /-- A trigger names nobody twice. -/
  once : ∀ x ∈ xs, x.1.isObject = false → ∀ id, (naming id x.2).length ≤ 1
  /-- An element has an identity of its own. -/
  identified : ∀ x ∈ xs, x.1.id ≠ EntityId.none

namespace Agreed

variable {xs ys : List (Entry α)} {i : Nat} {x : Entry α}

theorem tells_of_ne (h : Agreed xs) {j : Nat} {y : Entry α} (hij : i ≠ j) (hi : xs[i]? = some x)
    (hj : xs[j]? = some y) : Tells x.1 y.1 (naming y.1.id x.2) (naming x.1.id y.2) := by
  obtain ⟨hlti, rfl⟩ := List.getElem?_eq_some_iff.mp hi
  obtain ⟨hltj, rfl⟩ := List.getElem?_eq_some_iff.mp hj
  have hall := List.pairwise_iff_getElem.mp h.tells
  rcases Nat.lt_or_gt_of_ne hij with hlt | hgt
  · exact hall i j hlti hltj hlt
  · exact (hall j i hltj hlti hgt).symm

theorem perm (h : Agreed xs) (hperm : xs.Perm ys) : Agreed ys :=
  ⟨hperm.pairwise h.tells fun htells => htells.symm,
    fun x hx => h.once x (hperm.mem_iff.mpr hx), fun x hx => h.identified x (hperm.mem_iff.mpr hx)⟩

theorem tail (h : Agreed (x :: xs)) : Agreed xs :=
  ⟨(List.pairwise_cons.mp h.tells).2, fun y hy => h.once y (List.mem_cons_of_mem _ hy),
    fun y hy => h.identified y (List.mem_cons_of_mem _ hy)⟩

/-- Without one of the elements. -/
theorem swapRemove (h : Agreed xs) (hi : i < xs.length) : Agreed (ConvexCollision.swapRemove xs i) := by
  have hfront := h.perm (perm_cons_eraseIdx (List.getElem?_eq_getElem hi))
  exact hfront.tail.perm (swapRemove_perm hi).symm

/-- An object gets contacts that name nobody. -/
theorem settle (h : Agreed xs) {o o' : DynamicObject α} {cs added : List (Contact α)}
    (hi : xs[i]? = some (.object o, cs)) (hid : o'.id = o.id)
    (hadded : ∀ c ∈ added, c.other = EntityId.none) :
    Agreed (xs.set i (.object o', added ++ cs)) := by
  have hlt := (List.getElem?_eq_some_iff.mp hi).1
  have hfront := h.perm (perm_cons_eraseIdx hi)
  refine perm ⟨?_, ?_, ?_⟩ (set_perm hlt (.object o', added ++ cs)).symm
  · obtain ⟨hhead, hrest⟩ := List.pairwise_cons.mp hfront.tells
    refine List.pairwise_cons.mpr ⟨?_, hrest⟩
    intro y hy
    -- what is added does not name the others, since each has an identity of its own
    have hnobody : naming y.1.id added = [] := naming_eq_nil fun c hc hother =>
      hfront.tail.identified y hy (hother.symm.trans (hadded c hc))
    have htells : Tells (.object o) y.1 (naming y.1.id cs) (naming o.id y.2) := hhead y hy
    show Tells (.object o') y.1 (naming y.1.id (added ++ cs)) (naming o'.id y.2)
    rw [naming_append, hnobody, List.nil_append, hid]
    exact htells.congr (Prod.ext rfl hid) rfl
  · intro x hx hkind
    rcases List.mem_cons.mp hx with rfl | hx
    · exact absurd hkind Bool.noConfusion
    · exact hfront.tail.once x hx hkind
  · intro x hx
    rcases List.mem_cons.mp hx with rfl | hx
    · exact fun hnone => hfront.identified _ List.mem_cons_self (hid.symm.trans hnone)
    · exact hfront.tail.identified x hx

end Agreed

/-- After the pairs were passed nobody tells anything that depends on the order of the elements. -/
theorem Told.agreed {passed : List BroadPhase.Pair} {xs : List (Entry α)} (h : Told passed xs)
    (hne : ∀ p ∈ passed, p.a ≠ p.b) (hnone : ∀ x ∈ xs, x.1.id ≠ EntityId.none) : Agreed xs := by
  refine ⟨?_, ?_, hnone⟩
  · rw [List.pairwise_iff_getElem]
    intro i j hi hj hij
    exact h.tells i j xs[i] xs[j] (Nat.ne_of_lt hij) (List.getElem?_eq_getElem hi)
      (List.getElem?_eq_getElem hj)
  · intro x hx _ id
    obtain ⟨i, hi⟩ := List.mem_iff_getElem?.mp hx
    rcases List.eq_nil_or_concat (naming id x.2) with hnil | ⟨front, c, hlast⟩
    · simp [hnil]
    -- whoever is named is the other party of a pair, and known from there
    have hc : c ∈ naming id x.2 := by simp [hlast]
    obtain ⟨hmem, rfl⟩ := mem_naming.mp hc
    obtain ⟨j, y, hj, ⟨p, hp, hsame⟩, hother⟩ := h.named i x hi c hmem
    have hij : i ≠ j := by
      rintro rfl
      rcases BroadPhase.Pair.same_iff.mp hsame with ⟨ha, hb⟩ | ⟨ha, hb⟩ <;>
        exact hne p hp (ha.trans hb.symm)
    rw [hother]
    exact (h.tells i j x y hij hi hj).once

/-! ## §D A tick -/

namespace World

/-- The elements are on the books after the pairs that were passed, none of them has a shadow, and they
tell what these pairs left, unless a contact was dropped. -/
structure Paired (n : Nat) (lost : List ContactId) (passed : List BroadPhase.Pair)
    (s : Array (Element α) × Ledger α) (xs : List (Entry α)) : Prop where
  /-- The elements of the entries. -/
  elements : xs.map Prod.fst = s.1.toList
  /-- What they hold. -/
  booked : BookedAmong n s.2.pool lost xs
  /-- None of them has a shadow. -/
  shadowless : ∀ x ∈ xs, x.1.shadowContact = none
  /-- What they tell. -/
  told : s.2.Exhausted ∨ Told passed xs

namespace Paired

variable {n : Nat} {lost : List ContactId} {passed : List BroadPhase.Pair} {p : BroadPhase.Pair}
  {elements : Array (Element α)} {l : Ledger α} {xs : List (Entry α)} {i : Nat} {e : Element α}

theorem entry (h : Paired n lost passed (elements, l) xs) (hi : elements[i]? = some e) :
    ∃ cs, xs[i]? = some (e, cs) ∧ e.shadowContact = none := by
  have hplace : (xs.map Prod.fst)[i]? = some e := by rwa [h.elements, Array.getElem?_toList]
  rw [List.getElem?_map, Option.map_eq_some_iff] at hplace
  obtain ⟨⟨e, cs⟩, hx, rfl⟩ := hplace
  exact ⟨cs, hx, h.shadowless _ (List.mem_of_getElem? hx)⟩

theorem ids (h : Paired n lost passed (elements, l) xs) :
    (xs.map fun x => x.1.id) = elements.toList.map Element.id := by
  rw [← h.elements, List.map_map]
  rfl

/-- Two objects are resolved. -/
theorem objects {a b a' b' : DynamicObject α} {l' : Ledger α}
    (h : Paired n lost passed (elements, l) xs) (hids : (elements.toList.map Element.id).Nodup)
    (hne : p.a ≠ p.b) (hfresh : ∀ q ∈ passed, q.same p = false)
    (ha : elements[p.a]? = some (.object a)) (hb : elements[p.b]? = some (.object b))
    (hadds : AddsPair a b l a' b' l') :
    ∃ ys, Paired n lost (passed ++ [p])
      ((elements.setIfInBounds p.a (.object a')).setIfInBounds p.b (.object b'), l') ys := by
  obtain ⟨cs, hxa, hshadowA⟩ := h.entry ha
  obtain ⟨ds, hxb, hshadowB⟩ := h.entry hb
  obtain ⟨added, addedBack, hexchange, hbooked⟩ := h.booked.set_pair (q := l'.pool)
    (u := .object a') (v := .object b')
    (R := fun added addedBack => Exchange a.id b.id added addedBack ∨ l'.Exhausted) hne hxa hxb
    hadds.shadowA hadds.shadowB fun books loose hbooks => by
      obtain ⟨added, addedBack, hpool, hexchange⟩ := hadds.booked hbooks
      exact ⟨added, addedBack, hexchange, hpool⟩
  refine ⟨_, ⟨?_, hbooked, ?_, ?_⟩⟩
  · simp [List.map_set, h.elements]
  · intro x hx
    rcases List.mem_or_eq_of_mem_set hx with hx | rfl
    · rcases List.mem_or_eq_of_mem_set hx with hx | rfl
      · exact h.shadowless x hx
      · exact hadds.shadowA.trans hshadowA
    · exact hadds.shadowB.trans hshadowB
  · rcases h.told with hdropped | htold
    · exact .inl (hadds.exhausted hdropped)
    rcases hexchange with hexchange | hdropped
    · refine .inr (htold.meet (by rwa [h.ids]) hne hxa hxb
        (BroadPhase.Pair.same_iff.mpr (.inl ⟨rfl, rfl⟩)) hfresh ?_ ?_ ?_ ?_ ?_)
      · exact Prod.ext rfl hadds.idA
      · exact Prod.ext rfl hadds.idB
      · cases hexchange with
        | nothing => simp
        | contact hnames => simpa [Element.id] using hnames
      · cases hexchange with
        | nothing => simp
        | contact _ hnamed => simpa [Element.id] using hnamed
      · refine ⟨?_, ?_, fun _ _ => .inl hexchange⟩ <;> cases hexchange <;> simp
    · exact .inl hdropped

/-- A trigger looks at an object. -/
theorem trigger {o : DynamicObject α} {t : SpatialTrigger α} {a b : Nat}
    (h : Paired n lost passed (elements, l) xs) (hids : (elements.toList.map Element.id).Nodup)
    (hab : a ≠ b) (hp : p.same ⟨a, b⟩ = true) (hfresh : ∀ q ∈ passed, q.same p = false)
    (ha : elements[a]? = some (.object o)) (hb : elements[b]? = some (.trigger t)) :
    ∃ ys, Paired n lost (passed ++ [p])
      (elements.setIfInBounds b (.trigger (Resolve.objectInTrigger o t l).1),
        (Resolve.objectInTrigger o t l).2) ys := by
  obtain ⟨cs, hxa, -⟩ := h.entry ha
  obtain ⟨ds, hxb, -⟩ := h.entry hb
  obtain ⟨hid, hexhausted, hpool⟩ := Resolve.objectInTrigger_adds o t l
  obtain ⟨added, ⟨honce, hnames⟩, hbooked⟩ := h.booked.set
    (f := .trigger (Resolve.objectInTrigger o t l).1)
    (R := fun added => added.length ≤ 1 ∧ ∀ c ∈ added, c.other = o.id) hxb fun books loose hbooks => by
      obtain ⟨added, honce, hnames, hpool⟩ := hpool hbooks
      exact ⟨added, ⟨honce, hnames⟩, hpool⟩
  -- nothing is added on the side of the object
  have hsame : xs.set a (.object o, [] ++ cs) = xs := by
    obtain ⟨hlt, hget⟩ := List.getElem?_eq_some_iff.mp hxa
    rw [List.nil_append, ← hget, List.set_getElem_self]
  refine ⟨_, ⟨?_, hbooked, ?_, ?_⟩⟩
  · simp [List.map_set, h.elements]
  · intro x hx
    rcases List.mem_or_eq_of_mem_set hx with hx | rfl
    · exact h.shadowless x hx
    · rfl
  · rcases h.told with hdropped | htold
    · exact .inl (hexhausted hdropped)
    · have hmeet : Told (passed ++ [p]) ((xs.set a (.object o, [] ++ cs)).set b
          (.trigger (Resolve.objectInTrigger o t l).1, added ++ ds)) :=
        htold.meet (by rwa [h.ids]) hab hxa hxb hp hfresh rfl (Prod.ext rfl hid) (by simp) hnames
          ⟨by simp, honce, fun _ hobject => absurd hobject Bool.false_ne_true⟩
      rw [hsame] at hmeet
      exact .inr hmeet

/-- A pair of different elements that were not paired before is resolved. -/
theorem resolvePair {s : Array (Element α) × Ledger α} (befores : Array (Before α))
    (h : Paired n lost passed s xs) (hids : (s.1.toList.map Element.id).Nodup) (hne : p.a ≠ p.b)
    (hfresh : ∀ q ∈ passed, q.same p = false) :
    ∃ ys, Paired n lost (passed ++ [p]) (World.resolvePair befores s p) ys := by
  obtain ⟨elements, l⟩ := s
  unfold World.resolvePair
  simp only
  split
  · next a b ha hb => exact h.objects hids hne hfresh ha hb (resolveObjects_adds a _ b _ l)
  · next o t ho ht =>
    exact h.trigger hids hne (BroadPhase.Pair.same_iff.mpr (.inl ⟨rfl, rfl⟩)) hfresh ho ht
  · next t o ht ho =>
    exact h.trigger hids hne.symm (BroadPhase.Pair.same_iff.mpr (.inr ⟨rfl, rfl⟩)) hfresh ho ht
  · exact ⟨xs, h.elements, h.booked, h.shadowless, h.told.imp_right fun htold => htold.mono p⟩

end Paired

/-- All pairs that the broad phase names are resolved, each of them once. -/
theorem resolvePairs_paired {n : Nat} {lost : List ContactId} (befores : Array (Before α))
    {elements : Array (Element α)} {l : Ledger α} {xs : List (Entry α)}
    (h : Paired n lost [] (elements, l) xs) (hids : (elements.toList.map Element.id).Nodup) :
    ∃ pairs ys, (∀ p ∈ pairs, p.a ≠ p.b) ∧
      Paired n lost pairs (resolvePairs befores elements l) ys := by
  unfold resolvePairs
  simp only
  generalize (elements.zip befores).map (fun x => sweptBox x.1 x.2) = boxes
  let resolved := (BroadPhase.pairs boxes).foldl (World.resolvePair befores) (elements, l)
  have hall : resolved.1.toList.map Element.id = elements.toList.map Element.id ∧
      ∃ ys, Paired n lost (BroadPhase.pairs boxes) resolved ys := by
    refine inv_foldl_passed (fun passed (s : Array (Element α) × Ledger α) =>
      s.1.toList.map Element.id = elements.toList.map Element.id ∧
        ∃ ys, Paired n lost passed s ys) ?_ ⟨rfl, xs, h⟩
    rintro passed p rest s hsplit ⟨hsame, ys, hys⟩
    refine ⟨(resolvePair_ids befores s p).trans hsame, ?_⟩
    refine hys.resolvePair befores (hsame ▸ hids) ?_ ?_
    · exact BroadPhase.pairs_ne boxes p (hsplit ▸ List.mem_append_right _ List.mem_cons_self)
    · -- the broad phase names no two elements twice
      have hdistinct := BroadPhase.pairs_distinct boxes
      rw [hsplit, List.pairwise_append] at hdistinct
      exact fun q hq => hdistinct.2.2 q hq p List.mem_cons_self
  obtain ⟨-, ys, hys⟩ := hall
  exact ⟨_, ys, BroadPhase.pairs_ne boxes, hys⟩

/-- The elements are on the books when those before a place were settled, none from there on has a
shadow, and they agree, unless a contact was dropped. -/
structure Settled (n : Nat) (lost : List ContactId) (i : Nat)
    (s : Array (Element α) × Ledger α × List EntityId) (xs : List (Entry α)) : Prop where
  /-- The elements of the entries. -/
  elements : xs.map Prod.fst = s.1.toList
  /-- What they hold. -/
  booked : BookedAmong n s.2.1.pool lost xs
  /-- Those to come have no shadow. -/
  shadowless : ∀ (j : Nat) (x : Entry α), i ≤ j → xs[j]? = some x → x.1.shadowContact = none
  /-- They agree. -/
  agreed : s.2.1.Exhausted ∨ Agreed xs

/-- The element at a place is settled. -/
theorem Settled.settleAt {n : Nat} {lost : List ContactId} {w : World α} {befores : Array (Before α)}
    {i : Nat} {s s' : Array (Element α) × Ledger α × List EntityId} {xs : List (Entry α)}
    (h : Settled n lost i s xs) (hs : World.settleAt w befores s i = .ok s') :
    ∃ ys, Settled n lost (i + 1) s' ys := by
  obtain ⟨elements, l, fallen⟩ := s
  have hlater : ∀ (j : Nat) (x : Entry α), i + 1 ≤ j → xs[j]? = some x → x.1.shadowContact = none :=
    fun j x hj => h.shadowless j x (Nat.le_of_succ_le hj)
  rcases settleAt_cases hs with ⟨rfl, -⟩ | ⟨o, o', fell, l', ho, -, hsettle, rfl⟩
  · exact ⟨xs, h.elements, h.booked, hlater, h.agreed⟩
  · have hplace : (xs.map Prod.fst)[i]? = some (.object o) := by
      rwa [h.elements, Array.getElem?_toList]
    rw [List.getElem?_map, Option.map_eq_some_iff] at hplace
    obtain ⟨⟨_, cs⟩, hx, rfl⟩ := hplace
    have hsettles := settle_settles hsettle (h.shadowless i _ (Nat.le_refl i) hx)
    obtain ⟨added, hnobody, hbooked⟩ := h.booked.set (q := l'.pool) (f := .object o')
      (R := fun added => ∀ c ∈ added, c.other = EntityId.none) hx fun books loose hbooks =>
        hsettles.booked hbooks
    refine ⟨_, ?_, hbooked, ?_, ?_⟩
    · simp [List.map_set, h.elements]
    · intro j x hj hx
      rw [List.getElem?_set_ne (by omega)] at hx
      exact hlater j x hj hx
    · rcases h.agreed with hdropped | hagreed
      · exact .inl (hsettles.exhausted hdropped)
      · exact .inr (hagreed.settle hx (settle_id hsettle) hnobody)

/-- Whoever is taken out leaves the others in agreement. -/
theorem removeAll_agreed {n : Nat} {lost : List ContactId} {w w' : World α} {ids : List EntityId}
    {dropped : Prop} (hremove : w.removeAll ids = .ok w')
    (h : ∃ xs, w.Enters n lost xs ∧ (dropped ∨ Agreed xs)) :
    ∃ xs, w'.Enters n lost xs ∧ (dropped ∨ Agreed xs) := by
  refine rel_of_foldlM_eq_ok (R := fun w w' : World α =>
    (∃ xs, w.Enters n lost xs ∧ (dropped ∨ Agreed xs)) →
      ∃ xs, w'.Enters n lost xs ∧ (dropped ∨ Agreed xs))
    (fun _ => id) (fun _ _ _ hab hbc h => hbc (hab h)) ?_ hremove h
  rintro w id w' hdrop ⟨xs, henters, hagreed⟩
  obtain ⟨taken?, hremove⟩ := exists_of_dropElement hdrop
  rcases henters.removeElement hremove with rfl | ⟨i, hi, henters'⟩
  · exact ⟨xs, henters, hagreed⟩
  · exact ⟨_, henters', hagreed.imp_right fun hagreed => hagreed.swapRemove hi⟩

/-- After a tick all elements are on the books, and they agree, unless a contact was dropped. -/
theorem collide_agreed {w : World α} {outcome : Outcome α} (hsound : w.pool.Sound)
    (hregistered : w.Registered) (hcollide : w.collide = .ok outcome) :
    ∃ n lost xs, outcome.world.Enters n lost xs ∧
      ((∃ other, Event.poolExhausted other ∈ outcome.journal) ∨ Agreed xs) := by
  have hids := (start_ids w).1
  have hbare := start_bare w
  obtain ⟨n, lost, hlost⟩ := start_sound hsound
  have hnodup : (w.start.1.elements.toList.map Element.id).Nodup := by
    have hnodup := hregistered.indexes.nodup
    rwa [← hids] at hnodup
  -- at the start nobody holds anything, so that all elements can be entered
  have hstart : Paired n lost [] (w.start.1.elements, (⟨w.start.1.pool, #[]⟩ : Ledger α))
      (w.start.1.elements.toList.map fun e => (e, [])) := by
    refine ⟨by simp [Function.comp_def], ?_, ?_, .inr (Told.of_empty _)⟩
    · exact BookedAmong.of_bare hlost fun e he => hbare e (Array.mem_toList_iff.mp he)
    · intro x hx
      obtain ⟨e, he, rfl⟩ := List.mem_map.mp hx
      exact (hbare e (Array.mem_toList_iff.mp he)).shadowContact
  obtain ⟨pairs, xs, hne, hpaired⟩ := resolvePairs_paired w.start.2 hstart hnodup
  have hnone : ∀ x ∈ xs, x.1.id ≠ EntityId.none := by
    intro x hx hid
    refine hregistered.named ?_
    have hmem : x.1.id ∈ (resolvePairs w.start.2 w.start.1.elements ⟨w.start.1.pool, #[]⟩).1.toList.map
        Element.id := by
      rw [← hpaired.elements, List.map_map]
      exact List.mem_map_of_mem hx
    rw [resolvePairs_ids] at hmem
    exact hid ▸ hids ▸ hmem
  unfold collide at hcollide
  simp only at hcollide
  obtain ⟨⟨elements, l, fallen⟩, hsettle, hcollide⟩ := bind_eq_ok_iff.mp hcollide
  obtain ⟨w', hremove, hcollide⟩ := bind_eq_ok_iff.mp hcollide
  cases hcollide
  obtain ⟨ys, hsettled⟩ := inv_of_foldlM_range_eq_ok
    (fun i s => ∃ ys, Settled n lost i s ys)
    (fun i s s' ⟨ys, hys⟩ hstep => hys.settleAt hstep)
    ⟨xs, hpaired.elements, hpaired.booked,
      fun j x _ hx => hpaired.shadowless x (List.mem_of_getElem? hx),
      hpaired.told.imp_right fun htold => htold.agreed hne hnone⟩ hsettle
  refine ⟨n, lost, removeAll_agreed (Ledger.eq_ok_of_guarding hremove) ?_⟩
  exact ⟨ys, ⟨hsettled.elements, hsettled.booked⟩, hsettled.agreed⟩

/-! ## §E Whole runs -/

/-- No request that is granted puts a contact in two places. -/
theorem granted_sound {w w' : World α} {r : Request α} (h : w.pool.Sound) (hregistered : w.Registered)
    (hgranted : w.Granted r w') : w'.pool.Sound := by
  cases hgranted with
  | addObject => exact h
  | addTrigger => exact h
  | removeObject removed => exact removeElement_sound h removed
  | removeTrigger removed => exact removeElement_sound h removed
  | addMesh => exact h
  | removeMesh => exact h
  | reset => exact h.clear
  | collide ends =>
    obtain ⟨n, lost, xs, henters, -⟩ := collide_agreed h hregistered ends
    exact henters.booked.balanced.sound
  | modifyObject => exact h
  | modifyTrigger => exact h

/-- No contact is in two places in any run, whatever is written over the contacts of an element. -/
theorem Run.sound {w : World α} (h : Run w) : w.pool.Sound := by
  induction h with
  | new config => exact (ContactPool.balanced_ofCapacity config.contactPoolCapacity).sound
  | @step w before r keeps ih =>
    rcases w.after_cases r with hgranted | hsame
    · exact granted_sound ih before.registered hgranted
    · exact hsame.symm ▸ ih

/-- The contacts of the element that is registered under an identity that name an entity. -/
def contactsNaming (w : World α) (id other : EntityId) : List (Contact α) :=
  naming other ((w.contactsOf id).map w.pool.get)

/-- Looking up the contacts of an element finds all of its list, as its entry has it. -/
theorem Enters.contactsOf {w : World α} {n : Nat} {lost : List ContactId} {xs : List (Entry α)}
    (h : w.Enters n lost xs) {id : EntityId} {e : Element α} (hfind : w.find? id = some e) {i : Nat}
    {cs : List (Contact α)} (hi : xs[i]? = some (e, cs)) :
    w.pool.Linked e.activeContacts (w.contactsOf id) ∧
      ∀ other, w.contactsNaming id other = naming other cs := by
  obtain ⟨hcontents, hlinked⟩ := h.booked.contacts_eq (List.mem_of_getElem? hi)
  have hlist : w.contactsOf id = w.pool.toList e.activeContacts := by
    unfold World.contactsOf
    rw [hfind, Option.bind_some]
  refine ⟨hlist ▸ hlinked, ?_⟩
  intro other
  rw [contactsNaming, hlist]
  exact congrArg (naming other) hcontents

/-- **Contacts between objects are mutual.** After a tick of a world that came about in a run, if no
contact was dropped: of two objects that are still there, each has at most one contact that names the
other one, it has one exactly when the other one has, and their normals are opposite. A trigger names
nobody twice. The contacts that are looked up are all that the element has. -/
theorem Run.contacts_mutual [Scalar.Negatable α] {w : World α} (h : Run w) {outcome : Outcome α}
    (hcollide : w.collide = .ok outcome)
    (hkept : ∀ other, Event.poolExhausted other ∉ outcome.journal) :
    (∀ id e, outcome.world.find? id = some e →
      outcome.world.pool.Linked e.activeContacts (outcome.world.contactsOf id)) ∧
    (∀ a b, a ≠ b → (outcome.world.findObject? a).isSome → (outcome.world.findObject? b).isSome →
      (outcome.world.contactsNaming a b).length ≤ 1 ∧
      (outcome.world.contactsNaming a b ≠ [] ↔ outcome.world.contactsNaming b a ≠ []) ∧
      ∀ c ∈ outcome.world.contactsNaming a b, ∀ d ∈ outcome.world.contactsNaming b a,
        c.normal = -d.normal ∧ d.normal = -c.normal) ∧
    ∀ a, (outcome.world.findTrigger? a).isSome →
      ∀ b, (outcome.world.contactsNaming a b).length ≤ 1 := by
  obtain ⟨n, lost, xs, henters, hagreed⟩ := collide_agreed h.sound h.registered hcollide
  have hagreed := hagreed.resolve_left fun ⟨other, hother⟩ => hkept other hother
  have hregistered := h.registered.collide hcollide
  have hentry : ∀ id e, outcome.world.find? id = some e →
      e.id = id ∧ ∃ (i : Nat) (cs : List (Contact α)), xs[i]? = some (e, cs) := by
    intro id e hfind
    obtain ⟨hmem, hid⟩ := hregistered.find?_eq_some_iff.mp hfind
    rw [← Array.mem_toList_iff, ← henters.elements, List.mem_map] at hmem
    obtain ⟨⟨e, cs⟩, hx, rfl⟩ := hmem
    obtain ⟨i, hi⟩ := List.mem_iff_getElem?.mp hx
    exact ⟨hid, i, cs, hi⟩
  refine ⟨?_, ?_, ?_⟩
  · intro id e hfind
    obtain ⟨-, i, cs, hi⟩ := hentry id e hfind
    exact (henters.contactsOf hfind hi).1
  · intro a b hab ha hb
    obtain ⟨x, ha⟩ := Option.isSome_iff_exists.mp ha
    obtain ⟨y, hb⟩ := Option.isSome_iff_exists.mp hb
    obtain ⟨e, hfindA, hx⟩ := Option.bind_eq_some_iff.mp ha
    obtain ⟨f, hfindB, hy⟩ := Option.bind_eq_some_iff.mp hb
    obtain ⟨rfl, i, cs, hi⟩ := hentry a e hfindA
    obtain ⟨rfl, j, ds, hj⟩ := hentry b f hfindB
    rw [(henters.contactsOf hfindA hi).2, (henters.contactsOf hfindB hj).2]
    have hobjects : e.isObject = true ∧ f.isObject = true := by simp [Element.isObject, hx, hy]
    have hij : i ≠ j := by
      rintro rfl
      cases hi.symm.trans hj
      exact hab rfl
    have htells := hagreed.tells_of_ne hij hi hj
    rcases htells.both hobjects.1 hobjects.2 with hexchange | hexchange
    · exact ⟨htells.once, hexchange.ne_nil_iff, hexchange.opposite_normals⟩
    · refine ⟨htells.once, hexchange.ne_nil_iff.symm, ?_⟩
      exact fun c hc d hd => (hexchange.opposite_normals d hd c hc).symm
  · intro a ha b
    obtain ⟨t, ha⟩ := Option.isSome_iff_exists.mp ha
    obtain ⟨e, hfind, ht⟩ := Option.bind_eq_some_iff.mp ha
    obtain ⟨-, i, cs, hi⟩ := hentry a e hfind
    rw [(henters.contactsOf hfind hi).2]
    refine hagreed.once _ (List.mem_of_getElem? hi) ?_ b
    cases e with
    | object o => cases ht
    | trigger t => rfl

/-- Two boxes that overlap, the second of which only wants to know what it touches. -/
def touching : World Float32 :=
  let box (id : UInt32) (x : Float32) : DynamicObject Float32 :=
    .create ⟨id⟩ ⟨.box ⟨1, 1, 1⟩, 0, 0, 0⟩ Layers.all ⟨x, 0, 0⟩ none
  ((World.new { Config.standard with contactPoolCapacity := 3 }).after (.addObject (box 1 0))).after
    (.addObject { box 2 1.5 with triggerType := .basic })

theorem touching_run : Run touching := by
  unfold touching
  exact ((Run.new _).step (.addObject _) trivial).step (.addObject _) trivial

theorem touching_pairs : BroadPhase.pairs
    ((touching.start.1.elements.zip touching.start.2).map fun x => sweptBox x.1 x.2) = [⟨0, 1⟩] := by
  unfold BroadPhase.pairs
  rw [BroadPhase.sortedEdges_eq [⟨-8, false, 0⟩, ⟨4, false, 1⟩, ⟨8, true, 0⟩, ⟨20, true, 1⟩]
    (by decide +kernel) (by decide +kernel) (by decide +kernel)]
  decide +kernel

/-- In a tick the first box gets a contact that names the second one, and nothing is dropped. -/
theorem touching_collide : ∃ outcome, touching.collide = .ok outcome ∧ outcome.journal = #[] ∧
    (outcome.world.findObject? ⟨1⟩).isSome ∧ (outcome.world.findObject? ⟨2⟩).isSome ∧
    (outcome.world.contactsNaming ⟨1⟩ ⟨2⟩).length = 1 := by
  have hall : (touching.collide.toOption.map fun outcome => (outcome.journal.size,
      (outcome.world.findObject? ⟨1⟩).isSome, (outcome.world.findObject? ⟨2⟩).isSome,
      (outcome.world.contactsNaming ⟨1⟩ ⟨2⟩).length)) = some (0, true, true, 1) := by
    rw [collide_of_pairs touching_pairs]
    decide +kernel
  obtain ⟨outcome, hcollide, hfound⟩ := exists_eq_ok_of_map hall
  simp only [Prod.mk.injEq, Array.size_eq_zero_iff] at hfound
  exact ⟨outcome, hcollide, hfound⟩

/-- Since the first box has a contact that names the second one, the second one has one back. -/
theorem touching_contacts_mutual : ∃ outcome, touching.collide = .ok outcome ∧
    (outcome.world.contactsNaming ⟨1⟩ ⟨2⟩).length = 1 ∧
    outcome.world.contactsNaming ⟨2⟩ ⟨1⟩ ≠ [] ∧
    ∀ c ∈ outcome.world.contactsNaming ⟨1⟩ ⟨2⟩, ∀ d ∈ outcome.world.contactsNaming ⟨2⟩ ⟨1⟩,
      d.normal = -c.normal := by
  obtain ⟨outcome, hcollide, hjournal, hfirst, hsecond, hone⟩ := touching_collide
  have hmutual := Run.contacts_mutual touching_run hcollide fun other => by simp [hjournal]
  obtain ⟨-, hback, hopposite⟩ := hmutual.2.1 ⟨1⟩ ⟨2⟩ (by decide) hfirst hsecond
  refine ⟨outcome, hcollide, hone, hback.mp ?_, fun c hc d hd => (hopposite c hc d hd).2⟩
  intro hnil
  rw [hnil] at hone
  exact absurd hone (by decide)

end World

end ConvexCollision
