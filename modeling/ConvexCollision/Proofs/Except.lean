import Mathlib.Data.List.Forall2
import Mathlib.Order.Lattice

/-!
# ConvexCollision.Proofs.Except -- computations that succeed, and folds

A computation that succeeds went through its steps one by one, each of which succeeded. What each step
of a fold keeps up holds at its end, of what is still to come (`inv_foldl`), of what was passed
(`inv_foldl_passed`, `inv_foldlM_passed`), or between any two states (`rel_of_foldlM_eq_ok`). A fold that
keeps the better of two elements finds a best one (`foldl_least`).
-/

namespace ConvexCollision

variable {ε β γ : Type}

theorem exists_eq_ok_of_isOk {x : Except ε β} (h : x.isOk = true) : ∃ b, x = .ok b := by
  cases x with
  | error e => exact absurd h Bool.false_ne_true
  | ok b => exact ⟨b, rfl⟩

theorem eq_ok_of_toOption {x : Except ε β} {b : β} (h : x.toOption = some b) : x = .ok b := by
  cases x with
  | error e => cases h
  | ok c => exact congrArg Except.ok (Option.some.inj h)

/-- A computation succeeds when something is told of its result. -/
theorem exists_eq_ok_of_map {x : Except ε β} {f : β → γ} {c : γ} (h : x.toOption.map f = some c) :
    ∃ b, x = .ok b ∧ f b = c := by
  obtain ⟨b, hb, hc⟩ := Option.map_eq_some_iff.mp h
  exact ⟨b, eq_ok_of_toOption hb, hc⟩

/-- What comes after a result goes on with it. -/
theorem ok_bind (b : β) (f : β → Except ε γ) : (Except.ok b >>= f) = f b := rfl

/-- One computation after another one succeeds when both do. -/
theorem bind_eq_ok_iff {x : Except ε β} {f : β → Except ε γ} {c : γ} :
    (x >>= f) = .ok c ↔ ∃ b, x = .ok b ∧ f b = .ok c := by
  cases x with
  | error e => exact ⟨fun h => (nomatch h), fun ⟨_, h, _⟩ => (nomatch h)⟩
  | ok b => exact ⟨fun h => ⟨b, rfl, h⟩, fun ⟨_, h, hf⟩ => by cases h; exact hf⟩

/-- One computation after another one fails when the first one does, or the second one after it. -/
theorem bind_eq_error_iff {x : Except ε β} {f : β → Except ε γ} {e : ε} :
    (x >>= f) = .error e ↔ x = .error e ∨ ∃ b, x = .ok b ∧ f b = .error e := by
  cases x with
  | error e' =>
    refine ⟨fun h => .inl (congrArg _ (Except.error.inj h)), ?_⟩
    rintro (h | ⟨_, h, _⟩)
    · exact congrArg _ (Except.error.inj h)
    · cases h
  | ok b =>
    refine ⟨fun h => .inr ⟨b, rfl, h⟩, ?_⟩
    rintro (h | ⟨_, h, hf⟩)
    · cases h
    · cases h
      exact hf

/-- What comes after a computation matters where that succeeds. -/
theorem bind_congr_of_ok {x : Except ε β} {f g : β → Except ε γ} (h : ∀ b, x = .ok b → f b = g b) :
    (x >>= f) = (x >>= g) := by
  cases x with
  | error e => rfl
  | ok b => exact h b rfl

/-- What is told of a result is told of a success. -/
theorem map_eq_ok_iff {x : Except ε β} {f : β → γ} {c : γ} :
    x.map f = .ok c ↔ ∃ b, x = .ok b ∧ f b = c := by
  cases x with
  | error e => exact ⟨fun h => (nomatch h), fun ⟨_, h, _⟩ => (nomatch h)⟩
  | ok b => exact ⟨fun h => ⟨b, rfl, Except.ok.inj h⟩, fun ⟨_, h, hf⟩ => by cases h; exact congrArg _ hf⟩

/-- A computation that succeeds for a whole list succeeds for each of its elements. -/
theorem forall₂_of_mapM_eq_ok {f : β → Except ε γ} {l : List β} {results : List γ}
    (h : l.mapM f = .ok results) : List.Forall₂ (fun x y => f x = .ok y) l results := by
  induction l generalizing results with
  | nil =>
    cases h
    exact .nil
  | cons x l ih =>
    rw [List.mapM_cons] at h
    obtain ⟨y, hy, h⟩ := bind_eq_ok_iff.mp h
    obtain ⟨ys, hys, h⟩ := bind_eq_ok_iff.mp h
    cases h
    exact .cons hy (ih hys)

/-- A computation that succeeds for each element of a list succeeds for the whole list. -/
theorem mapM_eq_ok_map {f : β → Except ε γ} {g : β → γ} {l : List β}
    (h : ∀ x ∈ l, f x = .ok (g x)) : l.mapM f = .ok (l.map g) := by
  induction l with
  | nil => rfl
  | cons x l ih =>
    rw [List.mapM_cons, h x List.mem_cons_self, ih fun y hy => h y (List.mem_cons_of_mem x hy)]
    rfl

/-- A fold whose steps all succeed succeeds. -/
theorem exists_foldlM_eq_ok {σ : Type} {f : σ → β → Except ε σ} {l : List β}
    (h : ∀ x ∈ l, ∀ s, ∃ s', f s x = .ok s') (s : σ) : ∃ s', l.foldlM f s = .ok s' := by
  induction l generalizing s with
  | nil => exact ⟨s, rfl⟩
  | cons x l ih =>
    obtain ⟨s₁, hx⟩ := h x List.mem_cons_self s
    obtain ⟨s', hs'⟩ := ih (fun y hy => h y (List.mem_cons_of_mem x hy)) s₁
    refine ⟨s', ?_⟩
    rw [List.foldlM_cons, hx]
    exact hs'

/-- A fold whose steps succeed, and keep up with those of another fold, does so as a whole. -/
theorem exists_foldlM_of_rel {σ τ : Type} {R : σ → τ → Prop} {f : σ → β → Except ε σ} {g : τ → β → τ}
    (hstep : ∀ x s t, R s t → ∃ s', f s x = .ok s' ∧ R s' (g t x)) (l : List β) {s : σ} {t : τ}
    (h : R s t) : ∃ s', l.foldlM f s = .ok s' ∧ R s' (l.foldl g t) := by
  induction l generalizing s t with
  | nil => exact ⟨s, rfl, h⟩
  | cons x l ih =>
    obtain ⟨s₁, hx, h₁⟩ := hstep x s t h
    obtain ⟨s', hl, h'⟩ := ih h₁
    refine ⟨s', ?_, h'⟩
    rw [List.foldlM_cons, hx]
    exact hl

/-- A fold that fails fails at one of its steps. -/
theorem exists_of_foldlM_eq_error {σ : Type} {f : σ → β → Except ε σ} {l : List β} {s : σ} {e : ε}
    (h : l.foldlM f s = .error e) : ∃ x ∈ l, ∃ s, f s x = .error e := by
  induction l generalizing s with
  | nil => cases h
  | cons x l ih =>
    rw [List.foldlM_cons] at h
    rcases bind_eq_error_iff.mp h with hx | ⟨s₁, -, hl⟩
    · exact ⟨x, List.mem_cons_self, s, hx⟩
    · obtain ⟨y, hy, hfails⟩ := ih hl
      exact ⟨y, List.mem_cons_of_mem x hy, hfails⟩

/-- A search that succeeds for a whole list succeeds for each of its elements. -/
theorem forall₂_of_mapM_eq_some {f : β → Option γ} {l : List β} {results : List γ}
    (h : l.mapM f = some results) : List.Forall₂ (fun x y => f x = some y) l results := by
  induction l generalizing results with
  | nil =>
    cases h
    exact .nil
  | cons x l ih =>
    rw [List.mapM_cons] at h
    obtain ⟨y, hy, h⟩ := Option.bind_eq_some_iff.mp h
    obtain ⟨ys, hys, h⟩ := Option.bind_eq_some_iff.mp h
    cases h
    exact .cons hy (ih hys)

/-- Each result comes from an element of the list. -/
theorem exists_of_forall₂_of_mem {R : β → γ → Prop} {l : List β} {results : List γ} {y : γ}
    (h : List.Forall₂ R l results) (hy : y ∈ results) : ∃ x ∈ l, R x y := by
  induction h with
  | nil => cases hy
  | cons hxy _ ih =>
    rcases List.mem_cons.mp hy with rfl | hy
    · exact ⟨_, List.mem_cons_self, hxy⟩
    · obtain ⟨x, hx, hxy⟩ := ih hy
      exact ⟨x, List.mem_cons_of_mem _ hx, hxy⟩

/-- A list and its results look the same when each element looks like its result. -/
theorem map_eq_map_of_forall₂ {δ : Type} {R : β → γ → Prop} {l : List β} {results : List γ}
    {f : β → δ} {g : γ → δ} (h : List.Forall₂ R l results)
    (heq : ∀ x ∈ l, ∀ y, R x y → f x = g y) : l.map f = results.map g := by
  induction h with
  | nil => rfl
  | cons hxy _ ih =>
    rw [List.map_cons, List.map_cons, heq _ List.mem_cons_self _ hxy,
      ih fun x hx => heq x (List.mem_cons_of_mem _ hx)]

/-- Two relations of lists, element by element, give a third one. -/
theorem forall₂_trans {δ : Type} {R : β → γ → Prop} {S : γ → δ → Prop} {T : β → δ → Prop}
    (hRS : ∀ x y z, R x y → S y z → T x z) {l : List β} {results : List γ} {last : List δ}
    (h : List.Forall₂ R l results) (g : List.Forall₂ S results last) : List.Forall₂ T l last := by
  induction h generalizing last with
  | nil =>
    cases g
    exact .nil
  | cons hxy _ ih =>
    cases g with
    | cons hyz g => exact .cons (hRS _ _ _ hxy hyz) (ih g)

/-- One element of a list is replaced by one that it is related to. -/
theorem forall₂_set {R : β → β → Prop} (hrefl : ∀ x, R x x) {l : List β} {i : Nat} {x y : β}
    (hi : l[i]? = some x) (h : R x y) : List.Forall₂ R l (l.set i y) := by
  obtain ⟨hlt, rfl⟩ := List.getElem?_eq_some_iff.mp hi
  refine List.forall₂_iff_get.mpr ⟨(List.length_set).symm, ?_⟩
  intro j hj hj'
  simp only [List.get_eq_getElem, List.getElem_set]
  split
  · next heq =>
    subst heq
    exact h
  · exact hrefl _

/-- What every step of a fold does to its state, the whole fold does, if it succeeds and doing nothing
and doing two steps in a row are such steps as well. -/
theorem rel_of_foldlM_eq_ok {σ : Type} {R : σ → σ → Prop} (hrefl : ∀ s, R s s)
    (htrans : ∀ a b c, R a b → R b c → R a c) {step : σ → β → Except ε σ}
    (hstep : ∀ s x s', step s x = .ok s' → R s s') {xs : List β} {s s' : σ}
    (h : xs.foldlM step s = .ok s') : R s s' := by
  induction xs generalizing s with
  | nil =>
    cases h
    exact hrefl _
  | cons x xs ih =>
    rw [List.foldlM_cons] at h
    obtain ⟨s₁, hx, h⟩ := bind_eq_ok_iff.mp h
    exact htrans _ _ _ (hstep s x s₁ hx) (ih h)

/-- A fold whose states look otherwise goes the same way when each of its steps does. -/
theorem foldlM_map_state {σ τ : Type} {step : σ → β → Except ε σ} {step' : τ → β → Except ε τ}
    (φ : σ → τ) (hstep : ∀ s x, step' (φ s) x = (step s x).map φ) (xs : List β) (s : σ) :
    xs.foldlM step' (φ s) = (xs.foldlM step s).map φ := by
  induction xs generalizing s with
  | nil => rfl
  | cons x xs ih =>
    rw [List.foldlM_cons, List.foldlM_cons, hstep]
    cases step s x with
    | error e => rfl
    | ok s₁ => exact ih s₁

/-- A fold that prepares each element before it takes it in, where everything can be prepared, is the
fold over what is prepared. -/
theorem foldlM_prepared {σ : Type} {prepare : β → Except ε γ} {step : σ → γ → Except ε σ} {xs : List β}
    {ys : List γ} (h : List.Forall₂ (fun x y => prepare x = .ok y) xs ys) (s : σ) :
    xs.foldlM (fun s x => prepare x >>= step s) s = ys.foldlM step s := by
  induction h generalizing s with
  | nil => rfl
  | @cons x y xs ys hxy _ ih =>
    rw [List.foldlM_cons, List.foldlM_cons, hxy]
    show (step s y >>= _) = _
    cases step s y with
    | error e => rfl
    | ok s₁ => exact ih s₁

/-- If such a fold succeeds, everything can be prepared. -/
theorem exists_prepared {σ : Type} {prepare : β → Except ε γ} {step : σ → γ → Except ε σ} {xs : List β}
    {s s' : σ} (h : xs.foldlM (fun s x => prepare x >>= step s) s = .ok s') :
    ∃ ys, List.Forall₂ (fun x y => prepare x = .ok y) xs ys := by
  induction xs generalizing s with
  | nil => exact ⟨[], .nil⟩
  | cons x xs ih =>
    rw [List.foldlM_cons] at h
    obtain ⟨s₁, hx, h⟩ := bind_eq_ok_iff.mp h
    obtain ⟨y, hy, -⟩ := bind_eq_ok_iff.mp hx
    obtain ⟨ys, hys⟩ := ih h
    exact ⟨y :: ys, .cons hy hys⟩

/-- What every step of a fold keeps up, as less and less of the list is to come, holds at its end. -/
theorem inv_foldl {σ : Type} (inv : List β → σ → Prop) {step : σ → β → σ}
    (hstep : ∀ x xs s, inv (x :: xs) s → inv xs (step s x)) {xs : List β} {s : σ} (hs : inv xs s) :
    inv [] (xs.foldl step s) := by
  induction xs generalizing s with
  | nil => exact hs
  | cons x xs ih => exact ih (hstep x xs s hs)

/-- What every step of a fold keeps up, as more and more of the list was passed, holds of all of it. A
step may use where in the list it stands. -/
theorem inv_foldl_passed {σ : Type} (inv : List β → σ → Prop) {step : σ → β → σ} {l : List β}
    (hstep : ∀ passed x rest s, l = passed ++ x :: rest → inv passed s →
      inv (passed ++ [x]) (step s x)) {s : σ} (hs : inv [] s) : inv l (l.foldl step s) := by
  have hfrom : ∀ (rest passed : List β) (s : σ), l = passed ++ rest → inv passed s →
      inv l (rest.foldl step s) := by
    intro rest
    induction rest with
    | nil =>
      intro passed s hl hs
      rw [List.append_nil] at hl
      exact hl ▸ hs
    | cons x rest ih =>
      intro passed s hl hs
      refine ih (passed ++ [x]) (step s x) ?_ (hstep passed x rest s hl hs)
      rw [hl, List.append_assoc, List.singleton_append]
  exact hfrom l [] s rfl hs

/-- The same of a fold whose steps may fail, if it succeeds. -/
theorem inv_foldlM_passed {σ : Type} (inv : List β → σ → Prop) {step : σ → β → Except ε σ} {l : List β}
    (hstep : ∀ passed x rest s s', l = passed ++ x :: rest → inv passed s → step s x = .ok s' →
      inv (passed ++ [x]) s') {s s' : σ} (hs : inv [] s) (h : l.foldlM step s = .ok s') : inv l s' := by
  have hfrom : ∀ (rest passed : List β) (s : σ), l = passed ++ rest → inv passed s →
      rest.foldlM step s = .ok s' → inv l s' := by
    intro rest
    induction rest with
    | nil =>
      intro passed s hl hs h
      rw [List.append_nil] at hl
      cases h
      exact hl ▸ hs
    | cons x rest ih =>
      intro passed s hl hs h
      rw [List.foldlM_cons] at h
      obtain ⟨s₁, hx, h⟩ := bind_eq_ok_iff.mp h
      refine ih (passed ++ [x]) s₁ ?_ (hstep passed x rest s s₁ hl hs hx) h
      rw [hl, List.append_assoc, List.singleton_append]
  exact hfrom l [] s rfl hs h

/-- A fold that takes up what has a smaller key finds an element with the least key. -/
theorem foldl_least {κ : Type} [LinearOrder κ] (key : β → κ) (l : List β) (first : β) :
    l.foldl (fun best x => if key x < key best then x else best) first ∈ first :: l ∧
      ∀ x ∈ first :: l,
        key (l.foldl (fun best x => if key x < key best then x else best) first) ≤ key x := by
  refine inv_foldl_passed (fun passed best => best ∈ first :: passed ∧
    ∀ x ∈ first :: passed, key best ≤ key x) ?_ ?_
  · rintro passed x rest best - ⟨hmem, hle⟩
    rw [← List.cons_append]
    split
    · rename_i hlt
      refine ⟨List.mem_append_right _ (List.mem_singleton_self x), fun y hy => ?_⟩
      rcases List.mem_append.mp hy with hy | hy
      · exact hlt.le.trans (hle y hy)
      · rw [List.mem_singleton.mp hy]
    · rename_i hge
      refine ⟨List.mem_append_left _ hmem, fun y hy => ?_⟩
      rcases List.mem_append.mp hy with hy | hy
      · exact hle y hy
      · rw [List.mem_singleton.mp hy]
        exact not_lt.mp hge
  · exact ⟨List.mem_cons_self, fun x hx => by rw [List.mem_singleton.mp hx]⟩

/-- What every step of a fold over the first numbers keeps up holds after all of them. -/
theorem inv_of_foldlM_range_eq_ok {σ : Type} (inv : Nat → σ → Prop) {step : σ → Nat → Except ε σ}
    (hstep : ∀ i s s', inv i s → step s i = .ok s' → inv (i + 1) s') {n : Nat} {s s' : σ}
    (hs : inv 0 s) (h : (List.range n).foldlM step s = .ok s') : inv n s' := by
  induction n generalizing s' with
  | zero =>
    cases h
    exact hs
  | succ n ih =>
    rw [List.range_succ, List.foldlM_append] at h
    obtain ⟨s₁, hfront, h⟩ := bind_eq_ok_iff.mp h
    rw [List.foldlM_cons] at h
    obtain ⟨s₂, hlast, h⟩ := bind_eq_ok_iff.mp h
    cases h
    exact hstep n s₁ _ (ih hfront) hlast

end ConvexCollision
