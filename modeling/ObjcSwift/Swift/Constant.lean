import ObjcSwift.Json.Record
import ObjcSwift.Number.Shortest

/-!
# Literals

The literals of Swift expressions. A string literal is written with escapes so that reading it back,
where a backslash takes the next character with it, gives the string again and ends exactly at its
closing quote.
-/

namespace ObjcSwift

/-- A literal. -/
inductive Constant
  /-- A decimal integer. -/
  | int (value : Int64)
  /-- A binary integer. -/
  | binary (value : Int64)
  /-- An octal integer. -/
  | octal (value : Int64)
  /-- A hexadecimal integer. -/
  | hexadecimal (value : Int64)
  /-- A floating-point number. -/
  | float (value : Binary64)
  /-- `true` or `false` -/
  | boolean (value : Bool)
  /-- A string. -/
  | string (value : String)
  /-- `nil` -/
  | nil
  /-- Text kept as it is. -/
  | raw (text : String)
deriving DecidableEq

namespace Constant

/-- The integer that an integer literal writes. -/
def integerValue? : Constant → Option Int64
  | int value | binary value | octal value | hexadecimal value => some value
  | _ => none

/-- Whether this is an integer literal. -/
def isInteger (c : Constant) : Bool :=
  c.integerValue?.isSome

/-- Whether two literals are equal, floating-point numbers by their value. -/
def same : Constant → Constant → Bool
  | float x, float y => x.numEq y
  | a, b => a == b

/-- The characters of a string literal between its quotes. -/
def escape : List Char → List Char
  | [] => []
  | '"' :: cs => '\\' :: '"' :: escape cs
  | '\\' :: cs => '\\' :: '\\' :: escape cs
  | '\n' :: cs => '\\' :: 'n' :: escape cs
  | '\t' :: cs => '\\' :: 't' :: escape cs
  | '\r' :: cs => '\\' :: 'r' :: escape cs
  | c :: cs => c :: escape cs

/-- A literal as it is written in Swift. -/
def text : Constant → String
  | int value => Text.signedDecimal value.toInt
  | binary value => "0b" ++ Text.wordDigits 2 value.toUInt64
  | octal value => "0o" ++ Text.wordDigits 8 value.toUInt64
  | hexadecimal value => "0x" ++ Text.wordDigits 16 value.toUInt64
  | float value => value.text
  | boolean true => "true"
  | boolean false => "false"
  | string value => "\"" ++ String.ofList (escape value.toList) ++ "\""
  | nil => "nil"
  | raw text => text

/-- A literal as JSON. -/
def toJson : Constant → Json
  | int value => .obj [("Int", .int value.toInt)]
  | binary value => .obj [("Binary", .int value.toInt)]
  | octal value => .obj [("Octal", .int value.toInt)]
  | hexadecimal value => .obj [("Hexadecimal", .int value.toInt)]
  | float value => .obj [("Float", .ofBinary64 value)]
  | boolean value => .obj [("Boolean", .bool value)]
  | string value => .obj [("String", .str value)]
  | nil => .str "Nil"
  | raw text => .obj [("Raw", .str text)]

/-- Reads a literal from a given form. -/
def ofJsonIn? (form : Json.PayloadForm) (j : Json) : Option Constant := do
  if j.bareTag form = some "Nil" then some nil
  else
    let (tag, payload?) ← j.tagged
    let payload ← payload?
    match tag with
    | "Int" => payload.toInt64?.map int
    | "Binary" => payload.toInt64?.map binary
    | "Octal" => payload.toInt64?.map octal
    | "Hexadecimal" => payload.toInt64?.map hexadecimal
    | "Float" => payload.toBinary64?.map float
    | "Boolean" => payload.toBool?.map boolean
    | "String" => payload.toString?.map string
    | "Raw" => payload.toString?.map raw
    | _ => none

/-- Reads a literal. -/
def ofJson? (j : Json) : Option Constant :=
  ofJsonIn? .strict j

end Constant

end ObjcSwift
