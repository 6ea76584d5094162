/-!
# ConvexCollision.Removal -- taking an element out without closing the gap

The last element takes the place of the one that is removed, so only one element changes its number.
-/

namespace ConvexCollision

/-- The list without the element at a position; the last element takes its place. -/
def swapRemove {β : Type} (l : List β) (i : Nat) : List β :=
  match l.getLast? with
  | none => l
  | some last => (l.set i last).dropLast

/-- The array without the element at a position; the last element takes its place. -/
def swapRemoveAt {β : Type} (a : Array β) (i : Nat) : Array β :=
  match a.back? with
  | none => a
  | some last => (a.setIfInBounds i last).pop

end ConvexCollision
