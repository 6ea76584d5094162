import ConvexCollision.Entity
import ConvexCollision.Text.Blank
import ConvexCollision.Text.Hex

/-!
# ConvexCollision.Format.Layers -- sets of layers as text

A set of layers is written as the names of its layers with bars between them, bits without a name
together as one hexadecimal number at the end. The empty set is the empty text. Reading allows
blanks around every part, parts in any order and any number of hexadecimal parts.
-/

namespace ConvexCollision.Layers

/-! ## Writing -/

/-- The bits without a name. -/
def unnamed (l : Layers) : Layers := l.diff all

/-- The parts of the text of a set. -/
def parts (l : Layers) : List String :=
  (names.filter fun n => l.contains n.2).map (·.1) ++
    if l.unnamed == empty then [] else ["0x" ++ hexText l.unnamed.bits.toNat]

/-- The text of a set. -/
def text (l : Layers) : String := " | ".intercalate l.parts

/-! ## Reading -/

/-- A word from its hexadecimal digits, at least one. -/
def hexDigits? : List Char → Option UInt16
  | [] => none
  | cs => (hexNumber? 0 cs).bind fun n => if n < UInt16.size then some (UInt16.ofNat n) else none

/-- A word from hexadecimal digits after an optional plus sign. -/
def hexWord? : List Char → Option UInt16
  | '+' :: cs => hexDigits? cs
  | cs => hexDigits? cs

/-- The layers of one part: a name, or a number in hexadecimal digits. -/
def ofPart? : List Char → Option Layers
  | '0' :: 'x' :: cs => (hexWord? cs).map Layers.mk
  | cs => names.lookup (String.ofList cs)

/-- A list of characters cut at the bars. -/
def splitBars (cs : List Char) : List (List Char) :=
  cs.foldr (fun c found =>
    match c, found with
    | '|', found => [] :: found
    | c, first :: rest => (c :: first) :: rest
    | c, [] => [[c]]) [[]]

/-- The set that a text names. -/
def ofText? (text : String) : Option Layers :=
  let cs := trimBlank text.toList
  if cs.isEmpty then some empty
  else (splitBars cs).foldlM (fun l part => (ofPart? (trimBlank part)).map l.union) empty

end ConvexCollision.Layers
