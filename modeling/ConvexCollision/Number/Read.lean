import ConvexCollision.Number.Shortest

/-!
# ConvexCollision.Number.Read -- numbers from decimal digits

A decimal number is rounded once, to the nearest number of a format. Single precision is reached
through double precision, so that a number that no double can hold is told apart from one that is
merely too large for a single.
-/

namespace ConvexCollision

/-! ## Digits -/

/-- The value of a decimal digit. -/
def digitValue (c : Char) : Nat := c.toNat - '0'.toNat

/-- The digits at the start of a text as a number, continuing one, their count, continuing one, and
the rest. -/
def takeDigits : (value count : Nat) → List Char → Nat × Nat × List Char
  | value, count, c :: rest =>
    if c.isDigit then takeDigits (10 * value + digitValue c) (count + 1) rest
    else (value, count, c :: rest)
  | value, count, [] => (value, count, [])

/-- A natural number that is all of a text. -/
def digitsOfText? (cs : List Char) : Option Nat :=
  match takeDigits 0 0 cs with
  | (value, count, []) => if count = 0 then none else some value
  | _ => none

/-- A natural number that is all of a text, after an optional plus sign. -/
def natOfText? : List Char → Option Nat
  | '+' :: cs => digitsOfText? cs
  | cs => digitsOfText? cs

/-! ## Rounding -/

/-- A decimal number rounded to a format. Nothing beyond the format. Numbers whose size alone decides
are not computed. -/
def Decimal.round? (f : BinaryFormat) (d : Decimal) : Option Dyadic :=
  -- the number lies below the power of ten of this exponent, and reaches a tenth of it
  let position := d.exponent + decimalLength d.digits
  if d.digits = 0 ∨ position < f.minExponent then some ⟨0, f.minExponent⟩
  else if f.maxExponent + f.precision < position then none
  else f.round? (Ratio.scale ⟨d.digits, 1⟩ 10 d.exponent)

/-- A decimal number rounded to double and then to single precision. Nothing beyond every double. -/
def Decimal.toSingle? (d : Decimal) (negative : Bool) : Option Float32 :=
  (d.round? BinaryFormat.double).map (Dyadic.toSingle · negative)

/-- A decimal number rounded to double precision; infinite beyond every double. -/
def Decimal.toDouble (d : Decimal) (negative : Bool) : Float :=
  match d.round? BinaryFormat.double with
  | some x => x.toDouble negative
  | none => if negative then -(1 / 0) else 1 / 0

/-! ## Numbers with a fraction -/

/-- The exponent that is all of a text, after an optional sign. -/
def exponentOfText? : List Char → Option Int
  | '-' :: cs => (digitsOfText? cs).map fun n => -(n : Int)
  | cs => (natOfText? cs).map fun n => (n : Int)

/-- The decimal number that is all of a text: digits with an optional point among, before or after
them, and an optional exponent. -/
def decimalOfText? (cs : List Char) : Option Decimal :=
  let (whole, wholeCount, rest) := takeDigits 0 0 cs
  let (digits, fractionCount, rest) := match rest with
    | '.' :: rest => takeDigits whole 0 rest
    | rest => (whole, 0, rest)
  if wholeCount + fractionCount = 0 then none
  else
    match rest with
    | [] => some ⟨digits, -fractionCount⟩
    | c :: rest =>
      if c = 'e' ∨ c = 'E' then
        (exponentOfText? rest).map fun e => ⟨digits, e - fractionCount⟩
      else none

/-- A double-precision number from a text: a sign, then a decimal number or one of the words for what
is not finite, in any case. -/
def doubleOfText? (text : String) : Option Float :=
  let (negative, cs) := match text.toList with
    | '-' :: cs => (true, cs)
    | '+' :: cs => (false, cs)
    | cs => (false, cs)
  let word := String.ofList (cs.map Char.toLower)
  if word = "inf" ∨ word = "infinity" then some (if negative then -(1 / 0) else 1 / 0)
  else if word = "nan" then some (0 / 0)
  else (decimalOfText? cs).map fun d => d.toDouble negative

end ConvexCollision
