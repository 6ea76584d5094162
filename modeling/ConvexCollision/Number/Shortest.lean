import ConvexCollision.Number.Binary

/-!
# ConvexCollision.Number.Shortest -- the fewest decimal digits that read back

The decimal numbers that round to a binary number fill an interval around it, whose ends belong to
it when its mantissa is even. For one digit, two digits and so on, the two decimal numbers next to
the binary one are tried; the first of them to lie in the interval is the answer, and of two the
nearer. Two that are equally near give the larger.
-/

namespace ConvexCollision

/-- The number `digits · 10^exponent`. -/
structure Decimal where
  /-- The digits as a number. -/
  digits : Nat
  /-- The power of ten. -/
  exponent : Int
deriving DecidableEq

/-- The number of decimal digits of a natural number; at least one. -/
def decimalLength (n : Nat) : Nat := (Nat.toDigits 10 n).length

namespace Decimal

/-- Removes zeros from the end of the digits, at most so many. -/
def stripZeros : Nat → Decimal → Decimal
  | 0, d => d
  | limit + 1, d =>
    if d.digits ≠ 0 ∧ d.digits % 10 = 0 then stripZeros limit ⟨d.digits / 10, d.exponent + 1⟩ else d

end Decimal

/-- An interval of fractions around a value. All three are numerators over one denominator. -/
structure Neighbourhood where
  /-- The lower end. -/
  low : Nat
  /-- The value. -/
  value : Nat
  /-- The upper end. -/
  high : Nat
  /-- The denominator. -/
  den : Nat
  /-- The ends belong to the interval. -/
  closed : Bool

namespace Neighbourhood

/-- What rounds to a number of a format. Below a power of two numbers lie twice as dense. -/
def of (f : BinaryFormat) (x : Dyadic) : Neighbourhood :=
  let unit := Ratio.scale ⟨1, 4⟩ 2 x.exponent
  let gap := if x.mantissa = f.leastFull ∧ f.minExponent < x.exponent then 1 else 2
  { low := (4 * x.mantissa - gap) * unit.num
    value := 4 * x.mantissa * unit.num
    high := (4 * x.mantissa + 2) * unit.num
    den := unit.den
    closed := x.mantissa % 2 = 0 }

/-- The interval holds a decimal number. -/
def holds (n : Neighbourhood) (d : Decimal) : Bool :=
  let r := Ratio.scale ⟨d.digits, 1⟩ 10 d.exponent
  let point := r.num * n.den
  let low := n.low * r.den
  let high := n.high * r.den
  if n.closed then low ≤ point && point ≤ high else low < point && point < high

/-- The position of the value's first decimal digit: the value is below `10^position` and at least a
tenth of it. The value has to be at least `10^(-places)`. -/
def position (n : Neighbourhood) (places : Nat) : Int :=
  (decimalLength (n.value * Nat.pow 10 places / n.den) : Int) - places

/-- The decimal number of the interval next to the value on the grid of multiples of `10^exponent`. -/
def nearest? (n : Neighbourhood) (exponent : Int) : Option Decimal :=
  let r := Ratio.scale ⟨n.value, n.den⟩ 10 (-exponent)
  let below : Decimal := ⟨r.num / r.den, exponent⟩
  let above : Decimal := ⟨r.num / r.den + 1, exponent⟩
  let prefersBelow := 2 * (r.num % r.den) < r.den
  match n.holds below, n.holds above with
  | true, true => some (if prefersBelow then below else above)
  | true, false => some below
  | false, true => some above
  | false, false => none

/-- The first hit with at most the given number of further digits. -/
def search (n : Neighbourhood) (position : Int) : (further : Nat) → (used : Nat) → Option Decimal
  | 0, _ => none
  | further + 1, used =>
    match n.nearest? (position - used) with
    | some d => some d
    | none => search n position further (used + 1)

end Neighbourhood

/-- The shortest decimal number that rounds to a positive number of a format, the nearest one of
those. -/
def shortest (f : BinaryFormat) (x : Dyadic) : Decimal :=
  let n := Neighbourhood.of f x
  let position := n.position (-x.exponent).toNat
  match n.search position f.precision 1 with
  | some d => d.stripZeros f.precision
  | none => ⟨0, 0⟩

end ConvexCollision
