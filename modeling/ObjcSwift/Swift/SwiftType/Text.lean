import ObjcSwift.Swift.SwiftType

/-!
# The text of a type

A type as it is written in Swift. A composition and a closure type are put in parentheses before
`?`, `!` and `.Type`; nothing else is.
-/

namespace ObjcSwift.SwiftType

/-- The text of a generic type from the texts of its arguments; arrays and dictionaries are written
in brackets. -/
def genericText (name : String) : List String → String
  | [e] => if name == "Array" then "[" ++ e ++ "]" else name ++ "<" ++ e ++ ">"
  | [k, v] =>
    if name == "Dictionary" then "[" ++ k ++ ": " ++ v ++ "]"
    else name ++ "<" ++ k ++ ", " ++ v ++ ">"
  | texts => name ++ "<" ++ String.intercalate ", " texts ++ ">"

/-- The text of a type that a suffix follows. -/
def beforeSuffix (text : String) : SwiftType → String
  | composition _ | block _ _ => "(" ++ text ++ ")"
  | _ => text

mutual

/-- The text of a type. -/
def text : SwiftType → String
  | named name => name
  | generic name parameters => genericText name (texts parameters)
  | composition members => String.intercalate " & " (texts members)
  | tuple [] => "Void"
  | tuple members => "(" ++ String.intercalate ", " (texts members) ++ ")"
  | block result parameters =>
    "(" ++ String.intercalate ", " (texts parameters) ++ ") -> " ++ text result
  | optional inner => beforeSuffix (text inner) inner ++ "?"
  | implicitlyUnwrapped inner => beforeSuffix (text inner) inner ++ "!"
  | metatype inner => beforeSuffix (text inner) inner ++ ".Type"
  | nested parts => String.intercalate "." (texts parts)

/-- The texts of several types. -/
def texts : List SwiftType → List String
  | [] => []
  | t :: ts => text t :: texts ts

end

/-- The texts of several types are the texts of each. -/
@[simp]
theorem texts_eq_map (ts : List SwiftType) : texts ts = ts.map text := by
  induction ts with
  | nil => rfl
  | cons t ts ih => simp [texts, ih]

end ObjcSwift.SwiftType
