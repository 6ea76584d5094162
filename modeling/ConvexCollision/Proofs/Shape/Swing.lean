import ConvexCollision.Proofs.Except
import ConvexCollision.Shape

/-!
# ConvexCollision.Proofs.Shape.Swing -- a swing as a ring of two pairs

The slots of a swing are a ring of two places, each for a pair of corners. Pair number `i` since the last
clear goes to place `i % 2`, so that the last two pairs always stand in different places (`Holds`), and
from the empty swing every sequence of strokes succeeds and leaves the last pairs in the slots in use
(`exists_strokes_empty`).

The counts of a swing that was read from a file can be anything. `Sound` is what is left of the ring when
the pairs are forgotten: the next pair goes to the start of a place, and whole places are in use. It is
kept up by every stroke, and a swing without it is brought to an index out of range by two strokes at most
(`usable_iff`).
-/

namespace ConvexCollision.Swing

variable {α : Type} {s s' : Swing α}

/-! ## §A The ring -/

/-- The slots hold the last two of some pairs, pair number `i` in place `i % 2`. -/
structure Holds (s : Swing α) (pairs : List (Vec3 α × Vec3 α)) : Prop where
  /-- The next pair has the next place. -/
  next : s.nextCorner = 2 * (pairs.length % 2)
  /-- So many slots are in use, four at most. -/
  count : s.dataCount = min 4 (2 * pairs.length)
  /-- The last two pairs stand in their places. -/
  recent : ∀ i a b, pairs[i]? = some (a, b) → pairs.length ≤ i + 2 →
    s.slots.toList[2 * (i % 2)]? = some a ∧ s.slots.toList[2 * (i % 2) + 1]? = some b

/-- An added pair is written to the slots from the next corner on, which have to be there, and the others
stay. -/
theorem add_eq_ok {a b : Vec3 α} (hadd : s.add a b = .ok s') : s.nextCorner + 1 < 4 ∧
    s'.nextCorner = s.nextCorner ^^^ 2 ∧
    s'.dataCount = (if s.dataCount < 4 then s.dataCount + 2 else s.dataCount) ∧
    ∀ j, s'.slots.toList[j]? =
      if j = s.nextCorner then some a else if j = s.nextCorner + 1 then some b else s.slots.toList[j]? := by
  unfold Swing.add at hadd
  split at hadd
  · next hroom =>
    cases hadd
    refine ⟨hroom, rfl, rfl, fun j => ?_⟩
    simp only [Vector.toList_set, List.getElem?_set, List.length_set, Vector.length_toList]
    by_cases hfirst : j = s.nextCorner
    · rw [if_neg (by omega), if_pos hfirst.symm, if_pos (by omega), if_pos hfirst]
    · by_cases hsecond : j = s.nextCorner + 1
      · rw [if_pos hsecond.symm, if_pos (by omega), if_neg hfirst, if_pos hsecond]
      · rw [if_neg (Ne.symm hsecond), if_neg (Ne.symm hfirst), if_neg hfirst, if_neg hsecond]
  · cases hadd

theorem exists_add (hroom : s.nextCorner + 1 < 4) (a b : Vec3 α) : ∃ s', s.add a b = .ok s' :=
  ⟨_, dif_pos hroom⟩

/-- The next place is the other one. -/
theorem xor_two {n : Nat} (h : n = 0 ∨ n = 2) : n ^^^ 2 = 2 - n := by
  rcases h with rfl | rfl <;> rfl

/-- Another pair takes the place of the last but one. -/
theorem Holds.add {pairs : List (Vec3 α × Vec3 α)} (h : s.Holds pairs) (a b : Vec3 α) :
    ∃ s', s.add a b = .ok s' ∧ s'.Holds (pairs ++ [(a, b)]) := by
  have hnext := h.next
  have hcount := h.count
  obtain ⟨s', hadd⟩ := exists_add (s := s) (by omega) a b
  obtain ⟨-, hnext', hcount', hslots⟩ := add_eq_ok hadd
  refine ⟨s', hadd, ?_, ?_, ?_⟩
  · rw [hnext', xor_two (by omega), List.length_append, List.length_singleton]
    omega
  · rw [hcount', List.length_append, List.length_singleton]
    split <;> omega
  · intro i c d hi hlast
    rw [List.length_append, List.length_singleton] at hlast
    rw [hslots, hslots]
    by_cases hold : i < pairs.length
    · -- the last pair so far stands in the other place
      rw [List.getElem?_append_left hold] at hi
      rw [if_neg (by omega), if_neg (by omega), if_neg (by omega), if_neg (by omega)]
      exact h.recent i c d hi (by omega)
    · rw [List.getElem?_append_right (by omega), List.getElem?_singleton] at hi
      split at hi
      · cases hi
        rw [if_pos (by omega), if_neg (by omega), if_pos (by omega)]
        exact ⟨rfl, rfl⟩
      · cases hi

theorem toList_four {β : Type} (v : Vector β 4) : ∃ a b c d, v.toList = [a, b, c, d] := by
  match v with
  | ⟨⟨[a, b, c, d]⟩, _⟩ => exact ⟨a, b, c, d, rfl⟩

/-- The corners of some pairs. -/
def cornersOf (pairs : List (Vec3 α × Vec3 α)) : List (Vec3 α) := pairs.flatMap fun p => [p.1, p.2]

/-- The slots in use are the corners of the last two pairs, or of the only one, in one order or the
other. -/
theorem Holds.held {pairs : List (Vec3 α × Vec3 α)} (h : s.Holds pairs) :
    ∃ shown, shown.Perm (pairs.drop (pairs.length - 2)) ∧ s.held = cornersOf shown := by
  have hplace (j : Nat) (a b : Vec3 α) (hj : (pairs.drop (pairs.length - 2))[j]? = some (a, b)) :
      s.slots.toList[2 * ((pairs.length - 2 + j) % 2)]? = some a ∧
        s.slots.toList[2 * ((pairs.length - 2 + j) % 2) + 1]? = some b := by
    rw [List.getElem?_drop] at hj
    exact h.recent _ a b hj (by omega)
  have hlength : (pairs.drop (pairs.length - 2)).length = min pairs.length 2 := by
    rw [List.length_drop]
    omega
  have hcount := h.count
  obtain ⟨v, w, x, y, hslots⟩ := toList_four s.slots
  unfold Swing.held
  rw [hslots] at hplace ⊢
  generalize pairs.drop (pairs.length - 2) = last at hplace hlength ⊢
  match last with
  | [] =>
    have hnone : s.dataCount = 0 := by
      rw [List.length_nil] at hlength
      omega
    exact ⟨[], .nil, by rw [hnone]; rfl⟩
  | [(a, b)] =>
    have hone : pairs.length = 1 := by
      rw [List.length_singleton] at hlength
      omega
    obtain ⟨rfl, rfl⟩ : v = a ∧ w = b := by simpa [hone] using hplace 0 a b rfl
    rw [hone] at hcount
    exact ⟨[(v, w)], .refl _, by rw [hcount]; rfl⟩
  | [(a, b), (c, d)] =>
    have htwo : 2 ≤ pairs.length := by
      rw [List.length_cons, List.length_singleton] at hlength
      omega
    have hfour : s.dataCount = 4 := by omega
    rw [hfour]
    rcases Nat.mod_two_eq_zero_or_one (pairs.length - 2) with heven | hodd
    · have hother : (pairs.length - 2 + 1) % 2 = 1 := by omega
      obtain ⟨rfl, rfl⟩ : v = a ∧ w = b := by simpa [heven] using hplace 0 a b rfl
      obtain ⟨rfl, rfl⟩ : x = c ∧ y = d := by simpa [hother] using hplace 1 c d rfl
      exact ⟨[(v, w), (x, y)], .refl _, rfl⟩
    · have hother : (pairs.length - 2 + 1) % 2 = 0 := by omega
      obtain ⟨rfl, rfl⟩ : x = a ∧ y = b := by simpa [hodd] using hplace 0 a b rfl
      obtain ⟨rfl, rfl⟩ : v = c ∧ w = d := by simpa [hother] using hplace 1 c d rfl
      exact ⟨[(v, w), (x, y)], .swap _ _ _, rfl⟩
  | _ :: _ :: _ :: _ =>
    simp only [List.length_cons] at hlength
    omega

/-- The next pair goes to the start of a place, and whole places are in use. -/
structure Sound (s : Swing α) : Prop where
  /-- The next pair goes to the start of a place. -/
  next : s.nextCorner = 0 ∨ s.nextCorner = 2
  /-- Whole places are in use. -/
  count : s.dataCount = 0 ∨ s.dataCount = 2 ∨ s.dataCount = 4

/-- A swing that holds pairs is sound. -/
theorem Holds.sound {pairs : List (Vec3 α × Vec3 α)} (h : s.Holds pairs) : s.Sound := by
  have hnext := h.next
  have hcount := h.count
  exact ⟨by omega, by omega⟩

variable [Scalar α]

/-! ## §B Strokes and readings -/

/-- What is done to a swing. -/
inductive Stroke (α : Type) where
  /-- A blade position is added. -/
  | add (a b : Vec3 α)
  /-- All corners are forgotten. -/
  | clear

/-- The swing after a stroke. -/
def stroke (s : Swing α) : Stroke α → Except Fault (Swing α)
  | .add a b => s.add a b
  | .clear => .ok empty

/-- The swing after some strokes, in order. -/
def strokes (s : Swing α) (l : List (Stroke α)) : Except Fault (Swing α) := l.foldlM stroke s

/-- The pairs since the last clear, after another stroke. -/
def Stroke.record (pairs : List (Vec3 α × Vec3 α)) : Stroke α → List (Vec3 α × Vec3 α)
  | add a b => pairs ++ [(a, b)]
  | clear => []

/-- The pairs that were added since the last clear, oldest first. -/
def recorded (l : List (Stroke α)) : List (Vec3 α × Vec3 α) := l.foldl Stroke.record []

/-- The support point, or a fault when the corners cannot be read. -/
def support? (s : Swing α) (dir : Vec3 α) : Except Fault (Vec3 α) :=
  s.corners.map fun corners =>
    (corners.foldl (fun (best : Vec3 α × α) corner =>
      let test := corner.dot dir
      if best.2 < test then (corner, test) else best) (Vec3.zero, -Scalar.maxFinite)).1

/-- The box, or a fault when the corners cannot be read. Without corners they are not looked at. -/
def boundingBox? (s : Swing α) (rotation : Option (Rotation α)) : Except Fault (Bounds α) :=
  if s.dataCount = 0 then .ok ⟨Vec3.zero, Vec3.zero⟩
  else s.corners.map fun corners => Bounds.ofPoints (corners.map (rotation.getD Rotation.identity).yawToWorld)

/-- Whatever is read off the swing succeeds, and is what it is taken for elsewhere. -/
structure Readable (s : Swing α) : Prop where
  /-- The corners are those in use. -/
  corners : s.corners = .ok s.held
  /-- The support points. -/
  support : ∀ dir, s.support? dir = .ok (s.support dir)
  /-- The boxes. -/
  boundingBox : ∀ rotation, s.boundingBox? rotation = .ok (s.boundingBox rotation)

/-- The swing can be read after any strokes, all of which succeed. -/
def Usable (s : Swing α) : Prop := ∀ l, ∃ s', s.strokes l = .ok s' ∧ s'.Readable

/-- A swing can be read exactly when its count stays within the four slots. -/
theorem readable_iff : s.Readable ↔ s.dataCount ≤ 4 := by
  constructor
  · intro h
    have hcorners := h.corners
    unfold corners at hcorners
    split at hcorners
    · next hrange => exact of_decide_eq_true hrange
    · cases hcorners
  · intro h
    have hcorners : s.corners = .ok s.held := if_pos (decide_eq_true h)
    refine ⟨hcorners, fun dir => ?_, fun rotation => ?_⟩
    · unfold support?
      rw [hcorners]
      rfl
    · unfold boundingBox? boundingBox
      rw [hcorners]
      split <;> rfl

theorem isInRange_iff : s.isInRange = true ↔ s.Readable := decide_eq_true_iff.trans readable_iff.symm

theorem holds_empty : (empty : Swing α).Holds [] :=
  ⟨rfl, rfl, fun _ _ _ h => by cases h⟩

/-- Every stroke succeeds, and the slots hold the last pairs again. -/
theorem Holds.stroke {pairs : List (Vec3 α × Vec3 α)} (h : s.Holds pairs) (t : Stroke α) :
    ∃ s', s.stroke t = .ok s' ∧ s'.Holds (t.record pairs) := by
  cases t with
  | add a b => exact h.add a b
  | clear => exact ⟨empty, rfl, holds_empty⟩

theorem Holds.strokes {pairs : List (Vec3 α × Vec3 α)} (h : s.Holds pairs) (l : List (Stroke α)) :
    ∃ s', s.strokes l = .ok s' ∧ s'.Holds (l.foldl Stroke.record pairs) :=
  exists_foldlM_of_rel (fun t _ _ h => h.stroke t) l h

/-! ## §C Any counts -/

theorem Sound.stroke (h : s.Sound) (t : Stroke α) : ∃ s', s.stroke t = .ok s' ∧ s'.Sound := by
  have hnext := h.next
  have hcount := h.count
  cases t with
  | add a b =>
    obtain ⟨s', hadd⟩ := exists_add (s := s) (by omega) a b
    obtain ⟨-, hnext', hcount', -⟩ := add_eq_ok hadd
    rw [xor_two h.next] at hnext'
    refine ⟨s', hadd, by omega, ?_⟩
    rw [hcount']
    split <;> omega
  | clear => exact ⟨empty, rfl, .inl rfl, .inl rfl⟩

theorem Sound.readable (h : s.Sound) : s.Readable := by
  have hcount := h.count
  exact readable_iff.mpr (by omega)

theorem Sound.strokes (h : s.Sound) (l : List (Stroke α)) : ∃ s', s.strokes l = .ok s' ∧ s'.Sound :=
  exists_foldlM_of_rel (R := fun (s : Swing α) (_ : Unit) => s.Sound) (g := fun t _ => t)
    (fun t _ _ h => h.stroke t) l (t := ()) h

/-- A swing is usable for ever exactly when its counts are those of a ring of two places. -/
theorem usable_iff : s.Usable ↔ s.Sound := by
  constructor
  · intro h
    obtain ⟨s₀, h₀, hread₀⟩ := h []
    cases h₀
    obtain ⟨s₂, hboth, hread₂⟩ := h [.add Vec3.zero Vec3.zero, .add Vec3.zero Vec3.zero]
    obtain ⟨s₁, hfirst, hrest⟩ := bind_eq_ok_iff.mp hboth
    obtain ⟨_, hsecond, hnil⟩ := bind_eq_ok_iff.mp hrest
    cases hnil
    obtain ⟨hroom, hnext₁, hcount₁, -⟩ := add_eq_ok hfirst
    obtain ⟨hroom₁, -, hcount₂, -⟩ := add_eq_ok hsecond
    have hcount := readable_iff.mp hread₀
    have hcount' := readable_iff.mp hread₂
    refine ⟨?_, ?_⟩
    · -- from the middle of the slots the second pair would go past them
      have hmiddle : s.nextCorner ≠ 1 := by
        intro hone
        rw [hnext₁, hone] at hroom₁
        exact absurd hroom₁ (by decide)
      omega
    · -- an odd count grows past the slots
      split at hcount₁ <;> split at hcount₂ <;> omega
  · intro h l
    obtain ⟨s', hs', hsound⟩ := h.strokes l
    exact ⟨s', hs', hsound.readable⟩

/-- From the empty swing every sequence of strokes succeeds, and what is left is usable for ever. Its corners
are those of the last two pairs that were added since the last clear, or of the only one, and there are none
when nothing was added since. -/
theorem exists_strokes_empty (l : List (Stroke α)) :
    ∃ s' : Swing α, empty.strokes l = .ok s' ∧ s'.Usable ∧
      ∃ shown, shown.Perm ((recorded l).drop ((recorded l).length - 2)) ∧ s'.corners = .ok (cornersOf shown) := by
  obtain ⟨s', hs', hholds⟩ := holds_empty.strokes l
  obtain ⟨shown, hperm, hheld⟩ := hholds.held
  exact ⟨s', hs', usable_iff.mpr hholds.sound, shown, hperm, hheld ▸ hholds.sound.readable.corners⟩

end ConvexCollision.Swing
