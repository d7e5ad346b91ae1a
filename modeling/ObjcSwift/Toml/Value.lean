/-!
# TOML values

A TOML document is a table. A table can be written in pieces: by a header `[a.b]`, by a dotted key
`a.b = 1`, or at once as an inline table. Each table remembers how it came about, because that
decides what may still be added to it:

* a header opens a table that is new or that only longer headers have mentioned;
* a dotted key reaches into tables that dotted keys made, and nowhere else;
* nothing is added to an inline table, and no key is given twice.

`TomlTable.insert?`, `TomlTable.open?` and `TomlTable.openItem?` are these rules; they give nothing
when a rule is broken.
-/

namespace ObjcSwift

/-- How a table came about. -/
inductive TableOrigin
  /-- By a header of its own. -/
  | header
  /-- By a longer header. -/
  | implicit
  /-- By a dotted key. -/
  | dotted
  /-- In braces. -/
  | inlined
deriving DecidableEq

/-- A TOML value. -/
inductive TomlValue
  /-- A string. -/
  | string (value : String)
  /-- An integer of 64 bits. -/
  | integer (value : Int)
  /-- A floating-point number, as it is written. -/
  | float (text : String)
  /-- A Boolean. -/
  | boolean (value : Bool)
  /-- A date, a time of day or both, as it is written. -/
  | moment (text : String)
  /-- An array. -/
  | array (items : List TomlValue)
  /-- A table. -/
  | table (origin : TableOrigin) (entries : List (String × TomlValue))
  /-- The tables of headers `[[a]]`, the latest first. -/
  | items (latest : List (String × TomlValue)) (earlier : List (List (String × TomlValue)))

/-- The entries of a table. -/
abbrev TomlTable := List (String × TomlValue)

namespace TomlTable

/-- A table with what a function makes of the value of a key, or of its absence. -/
def update? (key : String) (f : Option TomlValue → Option TomlValue) : TomlTable → Option TomlTable
  | [] => (f none).map fun v => [(key, v)]
  | (k, v) :: rest =>
    if k = key then (f (some v)).map fun v => (k, v) :: rest
    else (update? key f rest).map ((k, v) :: ·)

/-- Adds a key that is new. -/
def add? (key : String) (v : TomlValue) : TomlTable → Option TomlTable :=
  update? key fun
    | none => some v
    | some _ => none

/-- Adds a key under a path of keys, by the rule for dotted keys. Under a header a path may also go
through tables that only longer headers have mentioned, as long as it ends in a table that a dotted
key made. -/
def insert? (inBraces : Bool) (key : String) (v : TomlValue) :
    (path : List String) → TomlTable → Option TomlTable
  | [] => add? key v
  | p :: path => update? p fun
    | none => (insert? inBraces key v path []).map (.table .dotted)
    | some (.table origin entries) =>
      let passes := origin = .dotted ∨ (¬inBraces ∧ path ≠ [] ∧ origin = .implicit)
      if passes then (insert? inBraces key v path entries).map (.table origin) else none
    | some (.items latest earlier) =>
      if path = [] then none else (insert? inBraces key v path latest).map (.items · earlier)
    | some _ => none

/-- What a function makes of the table under a path of keys. Tables on the way that do not exist are
made. -/
def reach? (last : Option TomlValue → Option TomlValue) :
    (path : List String) → TomlTable → Option TomlTable
  | [] => some
  | [key] => update? key last
  | p :: path => update? p fun
    | none => (reach? last path []).map (.table .implicit)
    | some (.table origin entries) =>
      if origin = .inlined then none else (reach? last path entries).map (.table origin)
    | some (.items latest earlier) => (reach? last path latest).map (.items · earlier)
    | some _ => none

/-- What becomes of the place of a header `[path]`. -/
def opened? : Option TomlValue → Option TomlValue
  | none => some (.table .header [])
  | some (.table .implicit entries) => some (.table .header entries)
  | some _ => none

/-- What becomes of the place of a header `[[path]]`. -/
def openedItem? : Option TomlValue → Option TomlValue
  | none => some (.items [] [])
  | some (.items latest earlier) => some (.items [] (latest :: earlier))
  | some _ => none

/-- Opens the table of a header `[path]`. -/
def open? (path : List String) : TomlTable → Option TomlTable :=
  reach? opened? path

/-- Opens one more table of a header `[[path]]`. -/
def openItem? (path : List String) : TomlTable → Option TomlTable :=
  reach? openedItem? path

/-- Changes the table that a header opened. -/
def within? (f : TomlTable → Option TomlTable) : (path : List String) → TomlTable → Option TomlTable
  | [] => f
  | p :: path => update? p fun
    | some (.table origin entries) => (within? f path entries).map (.table origin)
    | some (.items latest earlier) => (within? f path latest).map (.items · earlier)
    | _ => none

end TomlTable

end ObjcSwift
