import ConvexCollision.Json
import ConvexCollision.Json.Token

/-!
# ConvexCollision.Json.Read -- documents from text

A whole number that fits 64 bits keeps its exact value. Any other number is rounded to the nearest
double and from there to single precision; beyond every double it has no value. A negative zero is
not a whole number of that kind, since it would lose its sign. Arrays and objects make `deepest`
levels at most; one that would make another has no value either.
-/

namespace ConvexCollision

namespace Json

/-- A number of a text as a value. -/
def ofNumber (n : NumberText) : Json Float32 :=
  let whole : Int := if n.negative then -n.magnitude.digits else n.magnitude.digits
  let isExact := n.isWhole && !(n.negative && whole == 0) && decide (-9223372036854775808 ≤ whole) &&
    decide (whole < UInt64.size)
  if isExact then int whole
  else
    match n.magnitude.toSingle? n.negative with
    | some x => float x
    | none => unreadable

/-- A field: its key, which may have no value, and its value. -/
abbrev ReadField := Option String × Json Float32

/-- An object of some fields. With a key that has no value it has none itself. -/
def ofFields (fields : List ReadField) : Json Float32 :=
  match fields.mapM fun (key, value) => key.map (·, value) with
  | some fields => obj fields
  | none => unreadable

/-- The number of levels that arrays and objects may make. -/
def deepest : Nat := 127

/-- An array or object, when there is a level left for it. -/
def onLevel (levels : Nat) (j : Json Float32) : Json Float32 := if levels = 0 then unreadable else j

mutual

/-- The value at the start of some words, and the words after it. -/
def readValue (levels : Nat) : (steps : Nat) → List Token → Option (Json Float32 × List Token)
  | steps + 1, .arrayStart :: rest =>
    match rest with
    | .arrayEnd :: rest => some (onLevel levels (arr []), rest)
    | rest => (readItems (levels - 1) steps rest).map fun (items, rest) =>
        (onLevel levels (arr items), rest)
  | steps + 1, .objectStart :: rest =>
    match rest with
    | .objectEnd :: rest => some (onLevel levels (obj []), rest)
    | rest => (readFields (levels - 1) steps rest).map fun (fields, rest) =>
        (onLevel levels (ofFields fields), rest)
  | _ + 1, .null :: rest => some (null, rest)
  | _ + 1, .bool b :: rest => some (bool b, rest)
  | _ + 1, .number n :: rest => some (ofNumber n, rest)
  | _ + 1, .string (some s) :: rest => some (str s, rest)
  | _ + 1, .string none :: rest => some (unreadable, rest)
  | _, _ => none

/-- The items of an array up to its end, at least one. -/
def readItems (levels : Nat) : (steps : Nat) → List Token →
    Option (List (Json Float32) × List Token)
  | 0, _ => none
  | steps + 1, words =>
    match readValue levels steps words with
    | some (item, .comma :: rest) =>
      (readItems levels steps rest).map fun (items, rest) => (item :: items, rest)
    | some (item, .arrayEnd :: rest) => some ([item], rest)
    | _ => none

/-- The fields of an object up to its end, at least one. -/
def readFields (levels : Nat) : (steps : Nat) → List Token →
    Option (List ReadField × List Token)
  | steps + 1, .string key :: .colon :: words =>
    match readValue levels steps words with
    | some (value, .comma :: rest) =>
      (readFields levels steps rest).map fun (fields, rest) => ((key, value) :: fields, rest)
    | some (value, .objectEnd :: rest) => some ([(key, value)], rest)
    | _ => none
  | _, _ => none

end

/-- The document that a text writes. Nothing may follow it. -/
def ofText? (text : String) : Option (Json Float32) := do
  let words ← Token.ofText? text
  -- every second call at least takes a word
  match readValue deepest (2 * words.length + 2) words with
  | some (value, []) => some value
  | _ => none

end Json

end ConvexCollision
