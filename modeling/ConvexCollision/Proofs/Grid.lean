import ConvexCollision.BroadPhase
import ConvexCollision.KdTree
import ConvexCollision.Proofs.Order

/-!
# ConvexCollision.Proofs.Grid -- the cells of a grid keep the order of the numbers

A tree records its splits in cells, rounded outward, and a query is put on the same cells, rounded
outward too. That no triangle is lost between the two rests on `cellFloor_le_cellCeil`: of two
numbers in order, the cell below the lower one comes no later than the cell above the higher one.

An axis on which the grid is flat, or wider than the numbers reach, has cells of no size. An infinite
number is put on such a grid by multiplying it with zero. The product is undefined and gives way to
the first cell, where all other numbers are.

The sweep over the starts and ends of boxes has a grid of its own, with cells of a fixed size.
-/

namespace ConvexCollision

/-- The cells of the sweep keep the order of the numbers. -/
class BroadPhase.GridOrdered (α : Type) [Scalar α] : Prop extends Scalar.WholeParts α where
  /-- Scaling to cells keeps the order. -/
  cells_mono : ∀ {a b : α}, a ≤ b → a * cellsPerUnit ≤ b * cellsPerUnit
  /-- Truncation to 32 bits keeps the order. -/
  toInt32_mono : ∀ {a b : α}, a ≤ b → Scalar.toInt32 a ≤ Scalar.toInt32 b

/-- Subtracting a finite number, scaling by a number that is not negative and truncation to 16 bits
keep the order. -/
class Grid.Ordered (α : Type) [Scalar α] : Prop extends Scalar.WholeParts α, Scalar.FiniteRange α where
  /-- Subtracting a finite number keeps the order. -/
  sub_mono : ∀ {a b c : α}, Scalar.isFinite c = true → a ≤ b → a - c ≤ b - c
  /-- Scaling keeps the order of those products that are defined. -/
  mul_mono : ∀ {a b c : α}, 0 ≤ c → a ≤ b → a * c ≤ a * c → b * c ≤ b * c → a * c ≤ b * c
  /-- A product is undefined only where those before it are not above zero. -/
  mul_le_zero : ∀ {a b c : α}, 0 ≤ c → a ≤ b → a * c ≤ a * c → ¬ b * c ≤ b * c → a * c ≤ 0
  /-- Truncation to 16 bits keeps the order. -/
  toUInt16_mono : ∀ {a b : α}, a ≤ b → Scalar.toUInt16 a ≤ Scalar.toUInt16 b
  /-- The last cell comes after the first one. -/
  zero_le_lastCell : (0 : α) ≤ Grid.lastCell
  /-- There are not fewer than no cells in a unit of length. -/
  zero_le_lastCell_div : ∀ {a : α}, Scalar.epsilon < a → (0 : α) ≤ Grid.lastCell / a

/-- What cells need of the numbers: the laws of `Grid.Ordered`, without an end to the finite numbers. -/
class Grid.Lawful (α : Type) [Scalar α] : Prop extends Scalar.WholeParts α, Scalar.FiniteEnds α where
  /-- Subtracting a finite number keeps the order. -/
  sub_mono : ∀ {a b c : α}, Scalar.isFinite c = true → a ≤ b → a - c ≤ b - c
  /-- Scaling keeps the order of those products that are defined. -/
  mul_mono : ∀ {a b c : α}, 0 ≤ c → a ≤ b → a * c ≤ a * c → b * c ≤ b * c → a * c ≤ b * c
  /-- A product is undefined only where those before it are not above zero. -/
  mul_le_zero : ∀ {a b c : α}, 0 ≤ c → a ≤ b → a * c ≤ a * c → ¬ b * c ≤ b * c → a * c ≤ 0
  /-- Truncation to 16 bits keeps the order. -/
  toUInt16_mono : ∀ {a b : α}, a ≤ b → Scalar.toUInt16 a ≤ Scalar.toUInt16 b
  /-- The last cell comes after the first one. -/
  zero_le_lastCell : (0 : α) ≤ Grid.lastCell
  /-- There are not fewer than no cells in a unit of length. -/
  zero_le_lastCell_div : ∀ {a : α}, Scalar.epsilon < a → (0 : α) ≤ Grid.lastCell / a

namespace Grid

instance {α : Type} [Scalar α] [Ordered α] : Lawful α where
  sub_mono := Ordered.sub_mono
  mul_mono := Ordered.mul_mono
  mul_le_zero := Ordered.mul_le_zero
  toUInt16_mono := Ordered.toUInt16_mono
  zero_le_lastCell := Ordered.zero_le_lastCell
  zero_le_lastCell_div := Ordered.zero_le_lastCell_div

variable {α : Type} [Scalar α] [Lawful α] {g : Grid α} {axis : Axis}

/-- A grid on which numbers can be placed: it starts at a finite place and its cells do not run
backward. -/
structure Usable (g : Grid α) : Prop where
  /-- The place where the grid starts. -/
  start : ∀ axis, Scalar.isFinite (g.bounds.mins.coord axis) = true
  /-- The number of cells in a unit of length. -/
  scale : ∀ axis, 0 ≤ g.sizeInv.coord axis

/-- Scaling keeps the order from zero on, an undefined product counting as zero. -/
theorem maxNum_mul_mono {a b c : α} (hc : 0 ≤ c) (h : a ≤ b) :
    Scalar.maxNum (a * c) 0 ≤ Scalar.maxNum (b * c) 0 := by
  have hzero : (0 : α) ≤ 0 := Scalar.Ordered.defined_left hc
  by_cases ha : a * c ≤ a * c
  · by_cases hb : b * c ≤ b * c
    · refine Scalar.maxNum_le ?_ (Scalar.le_maxNum_right hzero)
      exact Scalar.Ordered.le_trans (Lawful.mul_mono hc h ha hb) (Scalar.le_maxNum_left hb hzero)
    · rw [Scalar.maxNum_of_undefined 0 hb]
      exact Scalar.maxNum_le (Lawful.mul_le_zero hc h ha hb) hzero
  · rw [Scalar.maxNum_of_undefined 0 ha]
    exact Scalar.le_maxNum_right hzero

/-- Placing numbers on the grid keeps their order. -/
theorem Usable.quantize_mono (hg : g.Usable) {a b : α} (h : a ≤ b) :
    g.quantize axis a ≤ g.quantize axis b := by
  have hlast : (lastCell : α) ≤ lastCell := Scalar.Ordered.defined_right Lawful.zero_le_lastCell
  have hscaled := maxNum_mul_mono (hg.scale axis) (Lawful.sub_mono (hg.start axis) h)
  unfold quantize
  refine Scalar.le_minNum ?_ ?_
  · exact Scalar.Ordered.le_trans
      (Scalar.minNum_le_left (Scalar.Ordered.defined_left hscaled) hlast) hscaled
  · exact Scalar.minNum_le_right (Scalar.Ordered.defined_left hscaled) hlast

/-- **Outward rounding agrees.** Of two numbers in order, the cell below the first comes no later
than the cell above the second. -/
theorem Usable.cellFloor_le_cellCeil (hg : g.Usable) {a b : α} (h : a ≤ b) :
    g.cellFloor axis a ≤ g.cellCeil axis b :=
  Lawful.toUInt16_mono (Scalar.floor_le_ceil_of_le (hg.quantize_mono h))

/-- The grid over a box that starts at a finite place is usable, however wide or flat the box is. -/
theorem usable_ofBounds {bounds : Bounds α}
    (h : ∀ axis, Scalar.isFinite (bounds.mins.coord axis) = true) : (Grid.ofBounds bounds).Usable := by
  refine ⟨h, ?_⟩
  intro axis
  have hscale : (ofBounds bounds).sizeInv.coord axis =
      if Scalar.epsilon < bounds.width.coord axis then lastCell / bounds.width.coord axis else 0 := by
    cases axis <;> rfl
  rw [hscale]
  split
  · next hsize => exact Lawful.zero_le_lastCell_div hsize
  · exact Scalar.Ordered.defined_left Lawful.zero_le_lastCell

end Grid

end ConvexCollision
