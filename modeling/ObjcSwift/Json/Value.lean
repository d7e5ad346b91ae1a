import ObjcSwift.Number.Binary64

/-!
# JSON values

The values that trees, graphs and answers are exchanged in. An object keeps its members in the order
they were written, repeated names included, so that a reader can refuse a record that names a field
twice.

Reading a typed value from JSON recurses on the nesting of the value; `Json.size` bounds that
nesting and serves as the fuel of every such reader.
-/

namespace ObjcSwift

/-- A JSON value. A number is an integer when it is written without fraction and exponent and fits
a 64-bit word, signed or unsigned; every other number is a float. -/
inductive Json
  /-- `null` -/
  | null
  /-- `true` or `false` -/
  | bool (value : Bool)
  /-- An integer. -/
  | int (value : Int)
  /-- A number with fraction or exponent, or one too large for a word. -/
  | float (value : Binary64)
  /-- A string. -/
  | str (value : String)
  /-- An array. -/
  | arr (items : List Json)
  /-- An object. -/
  | obj (members : List (String × Json))
  /-- A value that is well written but cannot be held: a number too large for a float, a string with
  half of a surrogate pair, a container too deep inside others. -/
  | unheld
deriving Inhabited

namespace Json

mutual

/-- The number of values in a value, itself included. -/
def size : Json → Nat
  | arr items => itemsSize items + 1
  | obj members => membersSize members + 1
  | _ => 1

/-- The number of values in the items of an array. -/
def itemsSize : List Json → Nat
  | [] => 0
  | item :: items => item.size + itemsSize items

/-- The number of values in the members of an object. -/
def membersSize : List (String × Json) → Nat
  | [] => 0
  | (_, item) :: members => item.size + membersSize members

end

mutual

/-- Whether everything in a value is held. -/
def isHeld : Json → Bool
  | arr items => itemsHeld items
  | obj members => membersHeld members
  | unheld => false
  | _ => true

/-- Whether everything in the items of an array is held. -/
def itemsHeld : List Json → Bool
  | [] => true
  | item :: items => item.isHeld && itemsHeld items

/-- Whether everything in the members of an object is held. -/
def membersHeld : List (String × Json) → Bool
  | [] => true
  | (_, item) :: members => item.isHeld && membersHeld members

end

/-- A string, or `null` for nothing. -/
def ofString? : Option String → Json
  | some s => str s
  | none => null

/-- A natural number. -/
def nat (n : Nat) : Json :=
  int n

/-- A floating-point number; infinities and what is no number are written as `null`. -/
def ofBinary64 (x : Binary64) : Json :=
  if x.isFinite then float x else null

/-- An array of strings. -/
def strs (texts : List String) : Json :=
  arr (texts.map str)

/-- What an encoder gives for a value, or `null` for nothing. -/
def option {α : Type} (encode : α → Json) : Option α → Json
  | some a => encode a
  | none => null

/-- An array of encoded values. -/
def list {α : Type} (encode : α → Json) (items : List α) : Json :=
  arr (items.map encode)

end Json

end ObjcSwift
