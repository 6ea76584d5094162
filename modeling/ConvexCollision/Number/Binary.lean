/-!
# ConvexCollision.Number.Binary -- binary floating-point numbers in exact arithmetic

A format has the numbers `m · 2^e` with `m` below `2^precision` and `e` between two bounds. This
module takes single- and double-precision numbers apart into `m` and `e`, puts them together again,
and rounds fractions to the nearest number of a format. All of it is arithmetic on natural numbers,
so that what is written, read and counted does not depend on how a machine rounds.
-/

namespace ConvexCollision

/-- The number `mantissa · 2^exponent`. -/
structure Dyadic where
  /-- The factor before the power. -/
  mantissa : Nat
  /-- The power of two. -/
  exponent : Int
deriving DecidableEq, Inhabited

/-- A quotient of natural numbers, rounded to the nearest whole number; halves go to the even
neighbour. -/
def roundHalfEven (num den : Nat) : Nat :=
  let q := num / den
  let r := num % den
  if 2 * r < den then q
  else if den < 2 * r then q + 1
  else if q % 2 = 0 then q else q + 1

/-- A fraction of natural numbers. -/
structure Ratio where
  /-- The numerator. -/
  num : Nat
  /-- The denominator. -/
  den : Nat
deriving DecidableEq

/-- The fraction multiplied by a power of a base. -/
def Ratio.scale (r : Ratio) (base : Nat) (power : Int) : Ratio :=
  if 0 ≤ power then ⟨r.num * Nat.pow base power.toNat, r.den⟩ else ⟨r.num, r.den * Nat.pow base (-power).toNat⟩

/-- The fraction rounded to the nearest whole number, halves to the even neighbour. -/
def Ratio.round (r : Ratio) : Nat := roundHalfEven r.num r.den

namespace Dyadic

/-- The number as a fraction. -/
def ratio (x : Dyadic) : Ratio := Ratio.scale ⟨x.mantissa, 1⟩ 2 x.exponent

end Dyadic

/-- The numbers `m · 2^e` with `m < 2^precision` and `e` between the bounds. -/
structure BinaryFormat where
  /-- Binary digits of a mantissa. -/
  precision : Nat
  /-- The smallest exponent. -/
  minExponent : Int
  /-- The largest exponent. -/
  maxExponent : Int

/-- A number of a format, or what stands for one that has none. -/
inductive BinaryValue where
  /-- A finite number by sign and magnitude. -/
  | finite (negative : Bool) (magnitude : Dyadic)
  /-- Beyond every finite number. -/
  | infinite (negative : Bool)
  /-- Not a number. -/
  | undefined
deriving DecidableEq

namespace BinaryFormat

/-- Single precision. -/
def single : BinaryFormat := ⟨24, -149, 104⟩

/-- Double precision. -/
def double : BinaryFormat := ⟨53, -1074, 971⟩

/-- The least mantissa of full length. -/
def leastFull (f : BinaryFormat) : Nat := Nat.pow 2 (f.precision - 1)

/-- The exponent at which a positive fraction has a mantissa of full length, or the smallest
exponent for a fraction below that. -/
def exponentOf (f : BinaryFormat) (r : Ratio) : Int :=
  let l : Int := (r.num.log2 : Int) - r.den.log2
  let atLeast := (Ratio.scale ⟨1, 1⟩ 2 l)
  let log := if atLeast.num * r.den ≤ r.num * atLeast.den then l else l - 1
  max (log - (f.precision - 1)) f.minExponent

/-- A fraction rounded to the nearest number of the format, halves to the even mantissa. Nothing
when that is beyond the format. -/
def round? (f : BinaryFormat) (r : Ratio) : Option Dyadic :=
  if r.num = 0 then some ⟨0, f.minExponent⟩
  else
    let e := f.exponentOf r
    let m := (r.scale 2 (-e)).round
    let x : Dyadic := if m < 2 * f.leastFull then ⟨m, e⟩ else ⟨m / 2, e + 1⟩
    if x.exponent ≤ f.maxExponent then some x else none

/-- The bits of an infinity, apart from its sign. -/
def infinityBits (f : BinaryFormat) : Nat :=
  (f.maxExponent - f.minExponent + 2).toNat * f.leastFull

/-- The bits of a magnitude of the format. A mantissa of full length adds one to the exponent field
by itself. -/
def bitsOf (f : BinaryFormat) (x : Dyadic) : Nat :=
  (x.exponent - f.minExponent).toNat * f.leastFull + x.mantissa

/-- The value behind the bits of a magnitude. -/
def ofBits (f : BinaryFormat) (negative : Bool) (bits : Nat) : BinaryValue :=
  if f.infinityBits < bits then .undefined
  else if bits = f.infinityBits then .infinite negative
  else
    let field := bits / f.leastFull
    let fraction := bits % f.leastFull
    if field = 0 then .finite negative ⟨fraction, f.minExponent⟩
    else .finite negative ⟨fraction + f.leastFull, f.minExponent + (field - 1)⟩

end BinaryFormat

/-! ## The two formats of the machine -/

/-- The bit that stands for a minus sign in single precision. -/
def singleSign : Nat := 2147483648

/-- The bit that stands for a minus sign in double precision. -/
def doubleSign : Nat := 9223372036854775808

/-- A single-precision number taken apart. -/
def BinaryValue.ofSingle (x : Float32) : BinaryValue :=
  let bits := x.toBits.toNat
  BinaryFormat.single.ofBits (singleSign ≤ bits) (bits % singleSign)

/-- A double-precision number taken apart. -/
def BinaryValue.ofDouble (x : Float) : BinaryValue :=
  let bits := x.toBits.toNat
  BinaryFormat.double.ofBits (doubleSign ≤ bits) (bits % doubleSign)

namespace Dyadic

/-- The nearest single-precision number, with a sign; infinite beyond the range. -/
def toSingle (x : Dyadic) (negative : Bool) : Float32 :=
  let magnitude := match BinaryFormat.single.round? x.ratio with
    | some y => BinaryFormat.single.bitsOf y
    | none => BinaryFormat.single.infinityBits
  Float32.ofBits (UInt32.ofNat (magnitude + if negative then singleSign else 0))

/-- The double-precision number whose mantissa and exponent these are, with a sign. -/
def toDouble (x : Dyadic) (negative : Bool) : Float :=
  Float.ofBits (UInt64.ofNat (BinaryFormat.double.bitsOf x + if negative then doubleSign else 0))

end Dyadic

end ConvexCollision
