import ConvexCollision.Number.Shortest

/-!
# ConvexCollision.Number.Text -- how numbers are written

A number is written with its shortest digits. A `NumberStyle` decides the rest: from which size on
the exponent is split off, whether a whole number keeps a fraction, and how a zero shows its sign.
-/

namespace ConvexCollision

/-- The decisions of a way to write numbers. -/
structure NumberStyle where
  /-- The least and the largest exponent of the first digit for which no exponent is written, if
  there is a limit. -/
  positional : Option (Int × Int)
  /-- What follows the point of a whole number, together with the point. -/
  wholeSuffix : String
  /-- A negative zero shows its sign. -/
  signedZero : Bool

namespace NumberStyle

/-- Numbers in reports on positions and velocities: very large and very small ones have an exponent,
and a whole number keeps one zero. -/
def scientific : NumberStyle := ⟨some (-4, 15), ".0", false⟩

/-- Numbers within sentences: no exponent, and no fraction for a whole number. -/
def plain : NumberStyle := ⟨none, "", true⟩

end NumberStyle

/-- So many zeros. -/
def zeros (n : Nat) : String := String.ofList (List.replicate n '0')

namespace Decimal

/-- The exponent of the first digit. -/
def leading (d : Decimal) : Int := d.exponent + decimalLength d.digits - 1

/-- The digits with the point in its place. -/
def positionalText (d : Decimal) (wholeSuffix : String) : String :=
  let text := toString d.digits
  if 0 ≤ d.exponent then text ++ zeros d.exponent.toNat ++ wholeSuffix
  else
    let places := (-d.exponent).toNat
    let padded := zeros (places + 1 - text.length) ++ text
    let whole := padded.length - places
    String.ofList (padded.toList.take whole) ++ "." ++ String.ofList (padded.toList.drop whole)

/-- One digit, the point and the other digits, and the exponent of the first digit. -/
def scientificText (d : Decimal) : String :=
  let mantissa := match (toString d.digits).toList with
    | first :: second :: rest => String.ofList (first :: '.' :: second :: rest)
    | short => String.ofList short
  mantissa ++ "e" ++ toString d.leading

/-- The number in a style. -/
def text (style : NumberStyle) (d : Decimal) : String :=
  let isPositional := match style.positional with
    | some (least, most) => d.digits == 0 || (decide (least ≤ d.leading) && decide (d.leading ≤ most))
    | none => true
  if isPositional then d.positionalText style.wholeSuffix else d.scientificText

end Decimal

namespace BinaryValue

/-- A value of a format in a style. -/
def text (f : BinaryFormat) (style : NumberStyle) : BinaryValue → String
  | undefined => "NaN"
  | infinite negative => if negative then "-inf" else "inf"
  | finite negative magnitude =>
    if magnitude.mantissa = 0 then
      (if negative && style.signedZero then "-" else "") ++ Decimal.text style ⟨0, 0⟩
    else
      (if negative then "-" else "") ++ Decimal.text style (shortest f magnitude)

end BinaryValue

/-- A single-precision number in a style. -/
def singleText (style : NumberStyle) (x : Float32) : String :=
  (BinaryValue.ofSingle x).text BinaryFormat.single style

/-- A double-precision number in a style. -/
def doubleText (style : NumberStyle) (x : Float) : String :=
  (BinaryValue.ofDouble x).text BinaryFormat.double style

end ConvexCollision
