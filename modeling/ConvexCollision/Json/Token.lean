import ConvexCollision.Number.Read
import ConvexCollision.Text.Hex

/-!
# ConvexCollision.Json.Token -- the words of a document's text

The text of a document is cut into words by the grammar of RFC 8259, without comments and without
extensions. A word that begins right after another one needs no blank between them; that two values
do not follow each other is for the reader of the words to see.
-/

namespace ConvexCollision.Json

/-- A number as it is written. -/
structure NumberText where
  /-- It starts with a minus sign. -/
  negative : Bool
  /-- Its magnitude. -/
  magnitude : Decimal
  /-- It has neither a fraction nor an exponent. -/
  isWhole : Bool
deriving DecidableEq

/-- A word. -/
inductive Token where
  /-- Starts an object. -/
  | objectStart
  /-- Ends an object. -/
  | objectEnd
  /-- Starts an array. -/
  | arrayStart
  /-- Ends an array. -/
  | arrayEnd
  /-- Separates items and fields. -/
  | comma
  /-- Separates a key and its value. -/
  | colon
  /-- The word `null`. -/
  | null
  /-- The words `true` and `false`. -/
  | bool (b : Bool)
  /-- A number. -/
  | number (n : NumberText)
  /-- A text; none when half of a surrogate pair stands alone in it. -/
  | string (s : Option String)
deriving DecidableEq

/-- The characters between words. -/
def isGap (c : Char) : Bool := c == ' ' || c == '\t' || c == '\n' || c == '\r'

/-! ## Numbers -/

/-- The whole part: a zero, or digits that do not start with one. -/
def wholePart? : List Char → Option (Nat × List Char)
  | '0' :: rest => some (0, rest)
  | cs =>
    match takeDigits 0 0 cs with
    | (_, 0, _) => none
    | (value, _, rest) => some (value, rest)

/-- The digits after the point, continuing the whole part, and their count. No point, no digits. -/
def fractionPart? (value : Nat) : List Char → Option (Nat × Nat × List Char)
  | '.' :: cs =>
    match takeDigits value 0 cs with
    | (_, 0, _) => none
    | found => some found
  | cs => some (value, 0, cs)

/-- The digits of an exponent after its sign. -/
def exponentDigits? (negative : Bool) (cs : List Char) : Option (Int × List Char) :=
  match takeDigits 0 0 cs with
  | (_, 0, _) => none
  | (value, _, rest) => some (if negative then -value else value, rest)

/-- The exponent, if there is one. -/
def exponentPart? : List Char → Option (Option Int × List Char)
  | c :: cs =>
    if c = 'e' ∨ c = 'E' then
      let signed := match cs with
        | '-' :: cs => exponentDigits? true cs
        | '+' :: cs => exponentDigits? false cs
        | cs => exponentDigits? false cs
      signed.map fun (e, rest) => (some e, rest)
    else some (none, c :: cs)
  | [] => some (none, [])

/-- A number after its sign. -/
def number? (negative : Bool) (cs : List Char) : Option (NumberText × List Char) := do
  let (whole, cs) ← wholePart? cs
  let (digits, places, cs) ← fractionPart? whole cs
  let (exponent, cs) ← exponentPart? cs
  return (⟨negative, ⟨digits, exponent.getD 0 - places⟩, places == 0 && exponent.isNone⟩, cs)

/-! ## Texts -/

/-- A piece of a text: a character, or the unit that an escape gives by number. -/
inductive TextPiece where
  /-- A character. -/
  | char (c : Char)
  /-- A UTF-16 code unit. -/
  | unit (n : Nat)

/-- The character that a letter after a backslash stands for. -/
def escaped? : Char → Option Char
  | '"' => some '"'
  | '\\' => some '\\'
  | '/' => some '/'
  | 'b' => some '\x08'
  | 'f' => some '\x0c'
  | 'n' => some '\n'
  | 'r' => some '\r'
  | 't' => some '\t'
  | _ => none

/-- The pieces of a text up to its closing quote, after those already read, the last one first, and
the rest. Control characters have to be escaped. -/
def textPieces? (read : List TextPiece) : List Char → Option (List TextPiece × List Char)
  | [] => none
  | '"' :: rest => some (read.reverse, rest)
  | '\\' :: 'u' :: a :: b :: c :: d :: rest =>
    (hexNumber? 0 [a, b, c, d]).bind fun n => textPieces? (.unit n :: read) rest
  | '\\' :: c :: rest => (escaped? c).bind fun c => textPieces? (.char c :: read) rest
  | c :: rest => if c < ' ' then none else textPieces? (.char c :: read) rest

/-- The characters of some pieces: two units of a surrogate pair make one character. -/
def joinPieces? : List TextPiece → Option (List Char)
  | [] => some []
  | .char c :: rest => (joinPieces? rest).map (c :: ·)
  | .unit high :: .unit low :: rest =>
    if 0xD800 ≤ high ∧ high < 0xDC00 ∧ 0xDC00 ≤ low ∧ low < 0xE000 then
      (joinPieces? rest).map
        (Char.ofNat (0x10000 + (high - 0xD800) * 0x400 + (low - 0xDC00)) :: ·)
    else if 0xD800 ≤ high ∧ high < 0xE000 then none
    else (joinPieces? (.unit low :: rest)).map (Char.ofNat high :: ·)
  | .unit n :: rest =>
    if 0xD800 ≤ n ∧ n < 0xE000 then none else (joinPieces? rest).map (Char.ofNat n :: ·)

/-- A text after its opening quote. -/
def string? (cs : List Char) : Option (Option String × List Char) :=
  (textPieces? [] cs).map fun (pieces, rest) => ((joinPieces? pieces).map String.ofList, rest)

/-! ## Words -/

/-- The first word of a text that does not start with a blank. -/
def Token.next? : List Char → Option (Token × List Char)
  | '\x7b' :: cs => some (objectStart, cs)
  | '\x7d' :: cs => some (objectEnd, cs)
  | '[' :: cs => some (arrayStart, cs)
  | ']' :: cs => some (arrayEnd, cs)
  | ',' :: cs => some (comma, cs)
  | ':' :: cs => some (colon, cs)
  | 'n' :: 'u' :: 'l' :: 'l' :: cs => some (null, cs)
  | 't' :: 'r' :: 'u' :: 'e' :: cs => some (bool true, cs)
  | 'f' :: 'a' :: 'l' :: 's' :: 'e' :: cs => some (bool false, cs)
  | '"' :: cs => (string? cs).map fun (s, rest) => (string s, rest)
  | '-' :: cs => (number? true cs).map fun (n, rest) => (number n, rest)
  | cs => (number? false cs).map fun (n, rest) => (number n, rest)

/-- The words of a text, after those already read, the last one first, with at most so many steps.
Every step takes a character at least. -/
def Token.scan (read : List Token) : (steps : Nat) → List Char → Option (List Token)
  | _, [] => some read.reverse
  | 0, _ => none
  | steps + 1, c :: cs =>
    if isGap c then Token.scan read steps cs
    else
      match Token.next? (c :: cs) with
      | some (t, rest) => Token.scan (t :: read) steps rest
      | none => none

/-- The words of a text. -/
def Token.ofText? (text : String) : Option (List Token) :=
  let cs := text.toList
  Token.scan [] cs.length cs

end ConvexCollision.Json
