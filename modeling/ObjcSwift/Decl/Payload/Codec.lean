import ObjcSwift.Decl.Payload
import ObjcSwift.Swift.Expr.Codec

/-!
# Declarations in JSON

A declaration is a tagged record. What may be absent is written as `null` and may be left out when
it is read.
-/

namespace ObjcSwift

/-! ### Small parts -/

namespace DeclId

/-- A number as JSON. -/
def toJson (id : DeclId) : Json :=
  .nat id.index.toNat

/-- Reads a number. -/
def ofJson? (j : Json) : Option DeclId :=
  j.toUInt32?.map mk

/-- Several numbers as JSON. -/
def listJson (ids : List DeclId) : Json :=
  .list toJson ids

end DeclId

namespace Access

/-- The case name. -/
def caseName : Access → String
  | enclosing => "Private"
  | file => "Fileprivate"
  | module => "Internal"
  | everywhere => "Public"

/-- Reads an access level. -/
def ofJson? (j : Json) : Option Access :=
  Json.enumOf ([enclosing, file, module, everywhere].map fun a => (a.caseName, a)) j

end Access

namespace Ownership

/-- The case name. -/
def caseName : Ownership → String
  | strong => "Strong"
  | weak => "Weak"
  | unowned => "Unowned"
  | unownedUnsafe => "UnownedUnsafe"

/-- Reads an ownership. -/
def ofJson? (j : Json) : Option Ownership :=
  Json.enumOf ([strong, weak, unowned, unownedUnsafe].map fun o => (o.caseName, o)) j

end Ownership

namespace SourceRef

/-- A source reference as JSON. -/
def toJson (r : SourceRef) : Json :=
  .obj [("file", .ofString? r.file), ("node_kind", .str r.nodeKind), ("span", r.span.toJson)]

/-- Reads a source reference. -/
def ofJson? (j : Json) : Option SourceRef := do
  let members ← j.record? ["file", "node_kind", "span"]
  let file ← Json.field? members "file" Json.toString?
  let nodeKind ← Json.field members "node_kind" Json.toString?
  let span ← Json.field members "span" Span.ofJson?
  some ⟨file, nodeKind, span⟩

end SourceRef

namespace Header

/-- A header as JSON. -/
def toJson (h : Header) : Json :=
  .obj [("access_level", .str h.access.caseName), ("source", .option SourceRef.toJson h.source),
    ("in_nonnull_context", .bool h.nonnull)]

/-- Reads a header. -/
def ofJson? (j : Json) : Option Header := do
  let members ← j.record? ["access_level", "source", "in_nonnull_context"]
  let access ← Json.field members "access_level" Access.ofJson?
  let source ← Json.field? members "source" SourceRef.ofJson?
  let nonnull ← Json.field members "in_nonnull_context" Json.toBool?
  some ⟨access, source, nonnull⟩

end Header

namespace Storage

/-- A storage as JSON. -/
def toJson (s : Storage) : Json :=
  .obj [("ty", s.type.toJson), ("ownership", .str s.ownership.caseName),
    ("is_constant", .bool s.constant)]

/-- Reads a storage. -/
def ofJson? (j : Json) : Option Storage := do
  let members ← j.record? ["ty", "ownership", "is_constant"]
  let type ← Json.field members "ty" SwiftType.ofJson?
  let ownership ← Json.field members "ownership" Ownership.ofJson?
  let constant ← Json.field members "is_constant" Json.toBool?
  some ⟨type, ownership, constant⟩

end Storage

namespace Code

/-- A function body as JSON. -/
def toJson (c : Code) : Json :=
  .obj [("body", Body.toJson c.body), ("source", .option SourceRef.toJson c.source)]

/-- Reads a function body. -/
def ofJson? (j : Json) : Option Code := do
  let members ← j.record? ["body", "source"]
  let body ← Json.field members "body" Body.ofJson?
  let source ← Json.field? members "source" SourceRef.ofJson?
  some ⟨body, source⟩

end Code

namespace Setter

/-- A setter as JSON. -/
def toJson (s : Setter) : Json :=
  .obj [("value_identifier", .str s.valueName), ("body", s.code.toJson)]

/-- Reads a setter. -/
def ofJson? (j : Json) : Option Setter := do
  let members ← j.record? ["value_identifier", "body"]
  let valueName ← Json.field members "value_identifier" Json.toString?
  let code ← Json.field members "body" Code.ofJson?
  some ⟨valueName, code⟩

end Setter

namespace PropertyMode

/-- The mode of a property as JSON. -/
def toJson : PropertyMode → Json
  | field => .str "Field"
  | computed getter setter =>
    .obj [("Computed", .obj [("getter", getter.toJson), ("setter", .option Setter.toJson setter)])]
  | full getter setter =>
    .obj [("Property", .obj [("getter", getter.toJson), ("setter", setter.toJson)])]

/-- Reads the mode of a property. -/
def ofJson? (j : Json) : Option PropertyMode := do
  if j.bareTag = some "Field" then some field
  else
    let (tag, payload?) ← j.tagged
    let members ← (← payload?).members?
    match tag with
    | "Computed" =>
      let getter ← Json.field members "getter" Code.ofJson?
      let setter ← Json.field? members "setter" Setter.ofJson?
      some (computed getter setter)
    | "Property" =>
      let getter ← Json.field members "getter" Code.ofJson?
      let setter ← Json.field members "setter" Setter.ofJson?
      some (full getter setter)
    | _ => none

end PropertyMode

namespace PropertyAttribute

/-- An attribute as JSON. -/
def toJson : PropertyAttribute → Json
  | word text => .obj [("Attribute", .str text)]
  | getter name => .obj [("Getter", .str name)]
  | setter name => .obj [("Setter", .str name)]

/-- Reads an attribute. -/
def ofJson? (j : Json) : Option PropertyAttribute := do
  let (tag, payload?) ← j.tagged
  let text ← (← payload?).toString?
  match tag with
  | "Attribute" => some (word text)
  | "Getter" => some (getter text)
  | "Setter" => some (setter text)
  | _ => none

end PropertyAttribute

namespace TypeKind

/-- The kind of a type as JSON. -/
def toJson : TypeKind → Json
  | classDecl superclass => .obj [("Class", .obj [("superclass_name", .ofString? superclass)])]
  | extensionDecl category => .obj [("Extension", .obj [("category_name", .ofString? category)])]
  | protocolDecl => .str "Protocol"

/-- Reads the kind of a type. -/
def ofJson? (j : Json) : Option TypeKind := do
  if j.bareTag = some "Protocol" then some protocolDecl
  else
    let (tag, payload?) ← j.tagged
    let members ← (← payload?).members?
    match tag with
    | "Class" => (Json.field? members "superclass_name" Json.toString?).map classDecl
    | "Extension" => (Json.field? members "category_name" Json.toString?).map extensionDecl
    | _ => none

end TypeKind

/-! ### Declarations -/

/-- Reads a list of numbers. -/
def declIds? (j : Json) : Option (List DeclId) :=
  Json.listOf DeclId.ofJson? j

namespace FileDecl

/-- A file as JSON. -/
def toJson (d : FileDecl) : Json :=
  .obj [("source_path", .str d.sourcePath), ("target_path", .str d.targetPath),
    ("header", d.header.toJson), ("preprocessor_directives", .strs d.directives),
    ("types", DeclId.listJson d.types), ("typealiases", DeclId.listJson d.aliases),
    ("global_functions", DeclId.listJson d.functions),
    ("global_variables", DeclId.listJson d.globals)]

/-- Reads a file. -/
def ofJson? (j : Json) : Option FileDecl := do
  let members ← j.record? ["source_path", "target_path", "header", "preprocessor_directives",
    "types", "typealiases", "global_functions", "global_variables"]
  let sourcePath ← Json.field members "source_path" Json.toString?
  let targetPath ← Json.field members "target_path" Json.toString?
  let header ← Json.field members "header" Header.ofJson?
  let directives ← Json.field members "preprocessor_directives" (Json.listOf Json.toString?)
  let types ← Json.field members "types" declIds?
  let aliases ← Json.field members "typealiases" declIds?
  let functions ← Json.field members "global_functions" declIds?
  let globals ← Json.field members "global_variables" declIds?
  some ⟨sourcePath, targetPath, header, directives, types, aliases, functions, globals⟩

end FileDecl

namespace TypeDecl

/-- A type declaration as JSON. -/
def toJson (d : TypeDecl) : Json :=
  .obj [("type_name", .str d.name), ("kind", d.kind.toJson), ("header", d.header.toJson),
    ("properties", DeclId.listJson d.properties), ("methods", DeclId.listJson d.methods),
    ("instance_variables", DeclId.listJson d.ivars), ("protocols", DeclId.listJson d.conformances)]

/-- Reads a type declaration. -/
def ofJson? (j : Json) : Option TypeDecl := do
  let members ← j.record? ["type_name", "kind", "header", "properties", "methods",
    "instance_variables", "protocols"]
  let name ← Json.field members "type_name" Json.toString?
  let kind ← Json.field members "kind" TypeKind.ofJson?
  let header ← Json.field members "header" Header.ofJson?
  let properties ← Json.field members "properties" declIds?
  let methods ← Json.field members "methods" declIds?
  let ivars ← Json.field members "instance_variables" declIds?
  let conformances ← Json.field members "protocols" declIds?
  some ⟨name, kind, header, properties, methods, ivars, conformances⟩

end TypeDecl

namespace PropertyDecl

/-- A property as JSON. -/
def toJson (d : PropertyDecl) : Json :=
  .obj [("name", .str d.name), ("storage", d.storage.toJson), ("mode", d.mode.toJson),
    ("attributes", .list PropertyAttribute.toJson d.attributes), ("is_static", .bool d.isStatic),
    ("header", d.header.toJson)]

/-- Reads a property. -/
def ofJson? (j : Json) : Option PropertyDecl := do
  let members ← j.record? ["name", "storage", "mode", "attributes", "is_static", "header"]
  let name ← Json.field members "name" Json.toString?
  let storage ← Json.field members "storage" Storage.ofJson?
  let mode ← Json.field members "mode" PropertyMode.ofJson?
  let attributes ← Json.field members "attributes" (Json.listOf PropertyAttribute.ofJson?)
  let isStatic ← Json.field members "is_static" Json.toBool?
  let header ← Json.field members "header" Header.ofJson?
  some ⟨name, storage, mode, attributes, isStatic, header⟩

end PropertyDecl

namespace MethodDecl

/-- A method as JSON. -/
def toJson (d : MethodDecl) : Json :=
  .obj [("signature", d.signature.toJson), ("body", .option Code.toJson d.code),
    ("header", d.header.toJson)]

/-- Reads a method. -/
def ofJson? (j : Json) : Option MethodDecl := do
  let members ← j.record? ["signature", "body", "header"]
  let signature ← Json.field members "signature" Signature.ofJson?
  let code ← Json.field? members "body" Code.ofJson?
  let header ← Json.field members "header" Header.ofJson?
  some ⟨signature, code, header⟩

end MethodDecl

namespace IvarDecl

/-- An instance variable as JSON. -/
def toJson (d : IvarDecl) : Json :=
  .obj [("name", .str d.name), ("storage", d.storage.toJson), ("header", d.header.toJson)]

/-- Reads an instance variable. -/
def ofJson? (j : Json) : Option IvarDecl := do
  let members ← j.record? ["name", "storage", "header"]
  let name ← Json.field members "name" Json.toString?
  let storage ← Json.field members "storage" Storage.ofJson?
  let header ← Json.field members "header" Header.ofJson?
  some ⟨name, storage, header⟩

end IvarDecl

namespace ConformanceDecl

/-- A conformance as JSON. -/
def toJson (d : ConformanceDecl) : Json :=
  .obj [("protocol_name", .str d.name), ("header", d.header.toJson)]

/-- Reads a conformance. -/
def ofJson? (j : Json) : Option ConformanceDecl := do
  let members ← j.record? ["protocol_name", "header"]
  let name ← Json.field members "protocol_name" Json.toString?
  let header ← Json.field members "header" Header.ofJson?
  some ⟨name, header⟩

end ConformanceDecl

namespace FunctionDecl

/-- A global function as JSON. -/
def toJson (d : FunctionDecl) : Json :=
  .obj [("signature", d.signature.toJson), ("body", .option Code.toJson d.code),
    ("header", d.header.toJson)]

/-- Reads a global function. -/
def ofJson? (j : Json) : Option FunctionDecl := do
  let members ← j.record? ["signature", "body", "header"]
  let signature ← Json.field members "signature" Signature.ofJson?
  let code ← Json.field? members "body" Code.ofJson?
  let header ← Json.field members "header" Header.ofJson?
  some ⟨signature, code, header⟩

end FunctionDecl

namespace VariableDecl

/-- A global variable as JSON. -/
def toJson (d : VariableDecl) : Json :=
  .obj [("name", .str d.name), ("storage", d.storage.toJson),
    ("initial_value", .option Expr.toJson d.initial), ("header", d.header.toJson)]

/-- Reads a global variable. -/
def ofJson? (j : Json) : Option VariableDecl := do
  let members ← j.record? ["name", "storage", "initial_value", "header"]
  let name ← Json.field members "name" Json.toString?
  let storage ← Json.field members "storage" Storage.ofJson?
  let initial ← Json.field? members "initial_value" Expr.ofJson?
  let header ← Json.field members "header" Header.ofJson?
  some ⟨name, storage, initial, header⟩

end VariableDecl

namespace AliasDecl

/-- A type alias as JSON. -/
def toJson (d : AliasDecl) : Json :=
  .obj [("name", .str d.name), ("aliased", d.aliased.toJson), ("header", d.header.toJson)]

/-- Reads a type alias. -/
def ofJson? (j : Json) : Option AliasDecl := do
  let members ← j.record? ["name", "aliased", "header"]
  let name ← Json.field members "name" Json.toString?
  let aliased ← Json.field members "aliased" SwiftType.ofJson?
  let header ← Json.field members "header" Header.ofJson?
  some ⟨name, aliased, header⟩

end AliasDecl

namespace Decl

/-- The record of a declaration as JSON, without its tag. -/
def recordJson : Decl → Json
  | file d => d.toJson
  | type d => d.toJson
  | property d => d.toJson
  | method d => d.toJson
  | ivar d => d.toJson
  | conformance d => d.toJson
  | globalFunction d => d.toJson
  | globalVariable d => d.toJson
  | typeAlias d => d.toJson

/-- The tag of a declaration. -/
def tag : Decl → String
  | file _ => "File"
  | type _ => "Type"
  | property _ => "Property"
  | method _ => "Method"
  | ivar _ => "InstanceVariable"
  | conformance _ => "ProtocolConformance"
  | globalFunction _ => "GlobalFunction"
  | globalVariable _ => "GlobalVariable"
  | typeAlias _ => "Typealias"

/-- A declaration as JSON. -/
def toJson (d : Decl) : Json :=
  .obj [(d.tag, d.recordJson)]

/-- Reads a declaration. -/
def ofJson? (j : Json) : Option Decl := do
  let (tag, payload?) ← j.tagged
  let payload ← payload?
  match tag with
  | "File" => (FileDecl.ofJson? payload).map file
  | "Type" => (TypeDecl.ofJson? payload).map type
  | "Property" => (PropertyDecl.ofJson? payload).map property
  | "Method" => (MethodDecl.ofJson? payload).map method
  | "InstanceVariable" => (IvarDecl.ofJson? payload).map ivar
  | "ProtocolConformance" => (ConformanceDecl.ofJson? payload).map conformance
  | "GlobalFunction" => (FunctionDecl.ofJson? payload).map globalFunction
  | "GlobalVariable" => (VariableDecl.ofJson? payload).map globalVariable
  | "Typealias" => (AliasDecl.ofJson? payload).map typeAlias
  | _ => none

end Decl

end ObjcSwift
