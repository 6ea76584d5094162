import ConvexCollision.Scalar

/-!
# ConvexCollision.Json -- structured documents, and how records and choices are laid out in them

A document is a tree of the values of RFC 8259 whose numbers are those of the geometry. `Record` and
`tagged?` are the two layouts that descriptions use: a record is an object, or an array of the same
fields in their order; a choice is an object that names the alternative under `type`, or an array
that starts with the name.

`unreadable` stands for a part that is written correctly but has no value, such as a number beyond
every double. It may stand where nobody looks, that is in fields that a record does not know.
-/

namespace ConvexCollision

/-- A document. -/
inductive Json (α : Type) where
  /-- The value `null`. -/
  | null
  /-- A truth value. -/
  | bool (b : Bool)
  /-- A number written without fraction and exponent that fits 64 bits. -/
  | int (n : Int)
  /-- Any other number. -/
  | float (x : α)
  /-- A text. -/
  | str (s : String)
  /-- An array. -/
  | arr (items : List (Json α))
  /-- An object; a key may occur several times. -/
  | obj (fields : List (String × Json α))
  /-- Something without a value. -/
  | unreadable

namespace Json

variable {α β : Type}

mutual

/-- Every part has a value. -/
def isReadable : Json α → Bool
  | unreadable => false
  | arr items => itemsReadable items
  | obj fields => fieldsReadable fields
  | _ => true

/-- Every part of every item has a value. -/
def itemsReadable : List (Json α) → Bool
  | [] => true
  | item :: rest => item.isReadable && itemsReadable rest

/-- Every part of every field has a value. -/
def fieldsReadable : List (String × Json α) → Bool
  | [] => true
  | (_, value) :: rest => value.isReadable && fieldsReadable rest

end

/-! ## Simple values -/

/-- A number of the geometry; one that is not finite has no document and becomes `null`. -/
def ofScalar [Scalar α] (x : α) : Json α := if Scalar.isFinite x then float x else null

/-- A number of the geometry. A whole number is rounded to the nearest one. -/
def scalar? [Scalar α] : Json α → Option α
  | float x => some x
  | int n => some (Scalar.ofInt n)
  | _ => none

/-- A natural number. -/
def ofNat (n : Nat) : Json α := int n

/-- A natural number below a limit, written as a whole number. -/
def natBelow? (limit : Nat) : Json α → Option Nat
  | int n => if 0 ≤ n ∧ n.toNat < limit then some n.toNat else none
  | _ => none

/-- A word of 8 bits. -/
def uint8? (j : Json α) : Option UInt8 := (j.natBelow? UInt8.size).map UInt8.ofNat

/-- A word of 16 bits. -/
def uint16? (j : Json α) : Option UInt16 := (j.natBelow? UInt16.size).map UInt16.ofNat

/-- A word of 32 bits. -/
def uint32? (j : Json α) : Option UInt32 := (j.natBelow? UInt32.size).map UInt32.ofNat

/-- A count that fits 64 bits. -/
def count? (j : Json α) : Option Nat := j.natBelow? UInt64.size

/-- A truth value. -/
def bool? : Json α → Option Bool
  | bool b => some b
  | _ => none

/-- A text. -/
def str? : Json α → Option String
  | str s => some s
  | _ => none

/-- The items of an array. -/
def items? : Json α → Option (List (Json α))
  | arr items => some items
  | _ => none

/-- An array, item by item. -/
def listOf? (read? : Json α → Option β) (j : Json α) : Option (List β) := do
  (← j.items?).mapM read?

/-- An array of equal items. -/
def ofList (write : β → Json α) (l : List β) : Json α := arr (l.map write)

/-! ## Alternatives by name -/

/-- One of several values, by its name. The name may also be the only key of an object that holds
`null`. -/
def named? (names : List (String × β)) : Json α → Option β
  | str s => names.lookup s
  | obj [(s, null)] => names.lookup s
  | _ => none

/-- The name of a value. -/
def ofNamed [DecidableEq β] (names : List (String × β)) (value : β) : Json α :=
  match names.find? fun n => n.2 = value with
  | some n => str n.1
  | none => null

/-- The alternative and the document of its fields. -/
def tagged? (j : Json α) : Option (String × Json α) :=
  if j.isReadable then
    match j with
    | obj fields =>
      match fields.partition fun f => f.1 == "type" with
      | ([(_, str tag)], rest) => some (tag, obj rest)
      | _ => none
    | arr (str tag :: items) => some (tag, arr items)
    | _ => none
  else none

/-- An alternative and its fields. -/
def ofTagged (tag : String) (fields : List (String × Json α)) : Json α :=
  obj (("type", str tag) :: fields)

end Json

/-! ## Records -/

/-- The fields of a record as they were given, by name. -/
structure Record (α : Type) where
  /-- Names and values; the names that belong to the record occur once at most. -/
  given : List (String × Json α)

namespace Record

variable {α β : Type}

/-- A record with fields of the given names. An object may have further keys, which do not matter,
but none of these twice; an array has the fields in order, and may end early. -/
def ofJson? (names : List String) : Json α → Option (Record α)
  | .obj fields =>
    if names.all fun name => (fields.filter fun f => f.1 == name).length ≤ 1 then some ⟨fields⟩
    else none
  | .arr items => if items.length ≤ names.length then some ⟨names.zip items⟩ else none
  | _ => none

/-- A field that has to be given. -/
def field (r : Record α) (name : String) (read? : Json α → Option β) : Option β := do
  read? (← r.given.lookup name)

/-- A field that has a value of its own when it is not given. -/
def fieldD (r : Record α) (name : String) (read? : Json α → Option β) (absent : β) : Option β :=
  match r.given.lookup name with
  | some j => read? j
  | none => some absent

end Record

end ConvexCollision
