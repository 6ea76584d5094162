/-!
# ConvexCollision.Text.Hex -- hexadecimal digits

Digits above nine may be written in either case; only the small letters are written.
-/

namespace ConvexCollision

/-- The value of a hexadecimal digit. -/
def hexValue? (c : Char) : Option Nat :=
  if '0' ≤ c ∧ c ≤ '9' then some (c.toNat - '0'.toNat)
  else if 'a' ≤ c ∧ c ≤ 'f' then some (c.toNat - 'a'.toNat + 10)
  else if 'A' ≤ c ∧ c ≤ 'F' then some (c.toNat - 'A'.toNat + 10)
  else none

/-- The number that hexadecimal digits write, continuing one. -/
def hexNumber? (value : Nat) : List Char → Option Nat
  | [] => some value
  | c :: rest => (hexValue? c).bind fun d => hexNumber? (16 * value + d) rest

/-- A number in hexadecimal digits, as short as possible. -/
def hexText (n : Nat) : String := String.ofList (Nat.toDigits 16 n)

end ConvexCollision
