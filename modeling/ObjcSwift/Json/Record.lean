import ObjcSwift.Json.Value

/-!
# Records and tagged values in JSON

A **record** is an object with fixed field names: members with other names are ignored, a field
named twice makes the record unreadable. It may also be an array, which lists the fields in their
order; then only fields that have a default may be missing, and only at the end. A **tagged value**
is a case name on its own, or an object whose one member is the case name with its payload.

How a payload may be written depends on where a value stands (`PayloadForm`).
-/

namespace ObjcSwift.Json

/-- The one member of the given name: `none` when the name occurs twice, `some none` when it does
not occur. -/
def member? (name : String) (members : List (String × Json)) : Option (Option Json) :=
  match members.filter (·.1 == name) with
  | [] => some none
  | [(_, j)] => some (some j)
  | _ => none

/-- The members of an object. -/
def members? : Json → Option (List (String × Json))
  | obj members => some members
  | _ => none

/-- The members of a record with the given fields. An array lists at least the `required` first of
them. -/
def record? (fields : List String) (j : Json) (required : Nat := fields.length) :
    Option (List (String × Json)) :=
  match j with
  | obj members => some members
  | arr items =>
    if required ≤ items.length ∧ items.length ≤ fields.length then some (fields.zip items)
    else none
  | _ => none

/-- How the payload of a tagged value may be written. -/
inductive PayloadForm
  /-- Fields are the members of an object, and a case without payload may have `null` for one. -/
  | strict
  /-- Fields may also be listed in an array, and an empty object stands for no payload too. -/
  | free
deriving DecidableEq

/-- The fields of a case from its payload. -/
def payloadFields? (form : PayloadForm) (fields : List String) (payload : Json)
    (required : Nat := fields.length) : Option (List (String × Json)) :=
  match form with
  | .strict => payload.members?
  | .free => payload.record? fields required

/-- A field that must be present. -/
def field {α : Type} (members : List (String × Json)) (name : String) (decode : Json → Option α) :
    Option α := do
  match ← member? name members with
  | some j => decode j
  | none => none

/-- A field that may be missing or `null`. -/
def field? {α : Type} (members : List (String × Json)) (name : String) (decode : Json → Option α) :
    Option (Option α) := do
  match ← member? name members with
  | none | some null => some none
  | some j => (decode j).map some

/-- A field that has a default when it is missing. -/
def fieldD {α : Type} (members : List (String × Json)) (name : String) (default : α)
    (decode : Json → Option α) : Option α := do
  match ← member? name members with
  | none => some default
  | some j => decode j

/-- A value that may be `null`. -/
def nullable {α : Type} (decode : Json → Option α) : Json → Option (Option α)
  | null => some none
  | j => (decode j).map some

/-- The case name and the payload of a tagged value. -/
def tagged : Json → Option (String × Option Json)
  | str name => some (name, none)
  | obj [(name, payload)] => some (name, some payload)
  | _ => none

/-- The case name of a tagged value without payload. -/
def bareTag (j : Json) (form : PayloadForm := .strict) : Option String :=
  match tagged j with
  | some (name, none) | some (name, some null) => some name
  | some (name, some (obj [])) => if form = .free then some name else none
  | _ => none

/-! ### Plain values -/

/-- A Boolean. -/
def toBool? : Json → Option Bool
  | bool b => some b
  | _ => none

/-- A string. -/
def toString? : Json → Option String
  | str s => some s
  | _ => none

/-- The items of an array. -/
def items? : Json → Option (List Json)
  | arr items => some items
  | _ => none

/-- An array whose items are all readable. -/
def listOf {α : Type} (decode : Json → Option α) (j : Json) : Option (List α) := do
  (← items? j).mapM decode

/-- A signed 64-bit integer. -/
def toInt64? : Json → Option Int64
  | int i =>
    if Int64.minValue.toInt ≤ i ∧ i ≤ Int64.maxValue.toInt then some (Int64.ofInt i) else none
  | _ => none

/-- An unsigned 64-bit integer. -/
def toUInt64? : Json → Option UInt64
  | int i => if 0 ≤ i ∧ i.toNat < UInt64.size then some (UInt64.ofNat i.toNat) else none
  | _ => none

/-- An unsigned 32-bit integer. -/
def toUInt32? : Json → Option UInt32
  | int i => if 0 ≤ i ∧ i.toNat < UInt32.size then some (UInt32.ofNat i.toNat) else none
  | _ => none

/-- A floating-point number; an integer is rounded. -/
def toBinary64? : Json → Option Binary64
  | float x => some x
  | int i => some (Binary64.ofInt i)
  | _ => none

/-- The case of an enumeration, looked up by its name. -/
def enumOf {α : Type} (cases : List (String × α)) (j : Json) (form : PayloadForm := .strict) :
    Option α := do
  cases.lookup (← bareTag j form)

end ObjcSwift.Json
