import ObjcSwift.Json.Value
import ObjcSwift.Number.Shortest

/-!
# Writing JSON text

The compact form: no blanks, members in the order the object holds them. Only quotes, backslashes
and control characters are escaped, the five that have a short escape by it.
-/

namespace ObjcSwift.Json

/-- A character as it stands in a written string. -/
def escape (c : Char) : String :=
  if c == '"' then "\\\""
  else if c == '\\' then "\\\\"
  else if c == '\x08' then "\\b"
  else if c == '\x0c' then "\\f"
  else if c == '\n' then "\\n"
  else if c == '\t' then "\\t"
  else if c == '\r' then "\\r"
  else if c.toNat < 0x20 then "\\u" ++ Text.paddedHex 4 c.toNat
  else String.singleton c

/-- A string in quotes. -/
def quoted (s : String) : String :=
  s.foldl (fun done c => done ++ escape c) "\"" ++ "\""

mutual

/-- The compact text of a value, written after `done`. -/
def write (done : String) : Json → String
  | null | unheld => done ++ "null"
  | bool true => done ++ "true"
  | bool false => done ++ "false"
  | int i => done ++ Text.signedDecimal i
  | float x => done ++ x.jsonText
  | str s => done ++ quoted s
  | arr items => writeItems (done ++ "[") true items ++ "]"
  | obj members => writeMembers (done ++ "\x7b") true members ++ "\x7d"

/-- The items of an array, a comma before each but the first. -/
def writeItems (done : String) (first : Bool) : List Json → String
  | [] => done
  | item :: items => writeItems (write (if first then done else done ++ ",") item) false items

/-- The members of an object, a comma before each but the first. -/
def writeMembers (done : String) (first : Bool) : List (String × Json) → String
  | [] => done
  | (name, item) :: members =>
    writeMembers (write ((if first then done else done ++ ",") ++ quoted name ++ ":") item) false
      members

end

/-- The compact text of a value. -/
def render (j : Json) : String :=
  write "" j

end ObjcSwift.Json
