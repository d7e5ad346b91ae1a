import ObjcSwift.Typing.Catalog

/-!
# Known declarations in JSON
-/

namespace ObjcSwift

namespace KnownKind

/-- The case name. -/
def caseName : KnownKind → String
  | .classType => "Class"
  | .protocolType => "Protocol"
  | .structType => "Struct"

/-- Reads a kind. -/
def ofJson? (j : Json) : Option KnownKind :=
  Json.enumOf ([KnownKind.classType, .protocolType, .structType].map fun k => (k.caseName, k)) j

end KnownKind

namespace Member

/-- A member as JSON. -/
def toJson : Member → Json
  | property name type isStatic =>
    .obj [("Property",
      .obj [("name", .str name), ("ty", type.toJson), ("is_static", .bool isStatic)])]
  | field name type => .obj [("Field", .obj [("name", .str name), ("ty", type.toJson)])]
  | method signature => .obj [("Method", signature.toJson)]

/-- Reads a member. -/
def ofJson? (j : Json) : Option Member := do
  let (tag, payload?) ← j.tagged
  let payload ← payload?
  match tag with
  | "Property" =>
    let members ← payload.members?
    let name ← Json.field members "name" Json.toString?
    let type ← Json.field members "ty" SwiftType.ofJson?
    let isStatic ← Json.field members "is_static" Json.toBool?
    some (property name type isStatic)
  | "Field" =>
    let members ← payload.members?
    let name ← Json.field members "name" Json.toString?
    let type ← Json.field members "ty" SwiftType.ofJson?
    some (field name type)
  | "Method" => (Signature.ofJson? payload).map method
  | _ => none

end Member

namespace KnownSubscript

/-- A subscript as JSON. -/
def toJson (s : KnownSubscript) : Json :=
  .obj [("index", s.index.toJson), ("element", s.element.toJson)]

/-- Reads a subscript. -/
def ofJson? (j : Json) : Option KnownSubscript := do
  let members ← j.record? ["index", "element"]
  let index ← Json.field members "index" SwiftType.ofJson?
  let element ← Json.field members "element" SwiftType.ofJson?
  some ⟨index, element⟩

end KnownSubscript

namespace KnownType

/-- A known type as JSON. -/
def toJson (t : KnownType) : Json :=
  .obj [("name", .str t.name), ("kind", .str t.kind.caseName),
    ("generic_parameters", .strs t.genericParameters), ("supertype", .ofString? t.supertype),
    ("conformances", .strs t.conformances), ("members", .list Member.toJson t.members),
    ("subscript", .option KnownSubscript.toJson t.subscript)]

/-- Reads a known type. -/
def ofJson? (j : Json) : Option KnownType := do
  let members ← j.record? ["name", "kind", "generic_parameters", "supertype", "conformances",
    "members", "subscript"]
  let name ← Json.field members "name" Json.toString?
  let kind ← Json.field members "kind" KnownKind.ofJson?
  let genericParameters ← Json.field members "generic_parameters" (Json.listOf Json.toString?)
  let supertype ← Json.field? members "supertype" Json.toString?
  let conformances ← Json.field members "conformances" (Json.listOf Json.toString?)
  let declared ← Json.field members "members" (Json.listOf Member.ofJson?)
  let subscript ← Json.field? members "subscript" KnownSubscript.ofJson?
  some ⟨name, kind, genericParameters, supertype, conformances, declared, subscript⟩

end KnownType

/-- Reads a known global. -/
def KnownGlobal.ofJson? (j : Json) : Option KnownGlobal := do
  let (tag, payload?) ← j.tagged
  let payload ← payload?
  match tag with
  | "Variable" =>
    let members ← payload.members?
    let name ← Json.field members "name" Json.toString?
    let type ← Json.field members "ty" SwiftType.ofJson?
    some (value name type)
  | "Function" => (Signature.ofJson? payload).map function
  | _ => none

end ObjcSwift
