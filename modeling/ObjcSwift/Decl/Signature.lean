import ObjcSwift.Swift.SwiftType.Codec
import ObjcSwift.Swift.SwiftType.Text

/-!
# Signatures

The signature of a function or method. Two signatures have the same **selector shape** when their
name, their number of parameters and every argument label agree; types and the static flag do not
count.
-/

namespace ObjcSwift

/-- A parameter of a function. -/
structure Parameter where
  /-- The label an argument has at a call, none for `_`. -/
  label : Option String
  /-- The name it has in the body. -/
  name : String
  /-- Its type. -/
  type : SwiftType
deriving DecidableEq

/-- The signature of a function or method. -/
structure Signature where
  /-- Its name; initializers are named `init`. -/
  name : String
  /-- Its parameters. -/
  parameters : List Parameter
  /-- The type it returns. -/
  result : SwiftType
  /-- Whether it belongs to the type rather than to its instances. -/
  isStatic : Bool
deriving DecidableEq

/-- A parameter as it is declared; a label equal to the name is written once. -/
def Parameter.text (p : Parameter) : String :=
  match p.label with
  | some label =>
    if label == p.name then p.name ++ ": " ++ p.type.text
    else label ++ " " ++ p.name ++ ": " ++ p.type.text
  | none => "_ " ++ p.name ++ ": " ++ p.type.text

namespace Signature

/-- The labels of the parameters. -/
def labels (s : Signature) : List (Option String) :=
  s.parameters.map (·.label)

/-- Whether two signatures have the same selector shape. -/
def sameSelector (s t : Signature) : Bool :=
  s.name == t.name && s.labels == t.labels

/-- Whether a call with these argument labels may be meant for the signature. -/
def acceptsLabels (s : Signature) (labels : List (Option String)) : Bool :=
  s.labels == labels

/-- The selector shape as it is written in Swift: `insert(_:atIndex:)`. -/
def selectorText (s : Signature) : String :=
  s.name ++ "(" ++ String.join (s.labels.map fun label => label.getD "_" ++ ":") ++ ")"

/-- The signature as a closure type. -/
def closureType (s : Signature) : SwiftType :=
  .block s.result (s.parameters.map (·.type))

/-- Whether this is an initializer. -/
def isInitializer (s : Signature) : Bool :=
  s.name == "init"

/-- The signature as it is declared. -/
def text (s : Signature) : String :=
  (if s.isStatic then "static " else "") ++
    (if s.isInitializer then "init(" else "func " ++ s.name ++ "(") ++
    String.intercalate ", " (s.parameters.map (·.text)) ++ ")" ++
    (if s.result.isVoid || s.isInitializer then "" else " -> " ++ s.result.text)

end Signature

/-- A parameter as JSON. -/
def Parameter.toJson (p : Parameter) : Json :=
  .obj [("label", .ofString? p.label), ("name", .str p.name), ("ty", p.type.toJson)]

/-- Reads a parameter. -/
def Parameter.ofJson? (j : Json) : Option Parameter := do
  let members ← j.record? ["label", "name", "ty"]
  let label ← Json.field? members "label" Json.toString?
  let name ← Json.field members "name" Json.toString?
  let type ← Json.field members "ty" SwiftType.ofJson?
  some ⟨label, name, type⟩

/-- A signature as JSON. -/
def Signature.toJson (s : Signature) : Json :=
  .obj [("name", .str s.name), ("parameters", .list Parameter.toJson s.parameters),
    ("return_type", s.result.toJson), ("is_static", .bool s.isStatic)]

/-- Reads a signature. -/
def Signature.ofJson? (j : Json) : Option Signature := do
  let members ← j.record? ["name", "parameters", "return_type", "is_static"]
  let name ← Json.field members "name" Json.toString?
  let parameters ← Json.field members "parameters" (Json.listOf Parameter.ofJson?)
  let result ← Json.field members "return_type" SwiftType.ofJson?
  let isStatic ← Json.field members "is_static" Json.toBool?
  some ⟨name, parameters, result, isStatic⟩

end ObjcSwift
