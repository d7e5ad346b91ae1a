import ObjcSwift.Objc.Node
import ObjcSwift.Objc.ObjcType.Codec
import ObjcSwift.Swift.Expr.Codec

/-!
# Objective-C syntax trees in JSON

The kind of a node is a record whose member `node` names the kind; a method has its own fields
beside that name. Everything that may be missing in a record may be left out. Inside a kind,
payloads have the free form.
-/

namespace ObjcSwift

/-! ### Writing -/

/-- A part of a selector as JSON. -/
def KeywordPart.toJson (p : KeywordPart) : Json :=
  .obj [("keyword", .ofString? p.keyword), ("ty", p.type.toJson), ("name", .str p.name)]

/-- A selector as JSON. -/
def Selector.toJson : Selector → Json
  | simple name => .obj [("Simple", .str name)]
  | keywords parts => .obj [("Keywords", .list KeywordPart.toJson parts)]

/-- The fields of a method. -/
def MethodDefinition.fields (m : MethodDefinition) : List (String × Json) :=
  [("is_class_method", .bool m.isClassMethod), ("return_type", m.result.toJson),
    ("selector", m.selector.toJson), ("body", .option Body.toJson m.body)]

/-- A parameter of a function as JSON. -/
def FunctionParameter.toJson (p : FunctionParameter) : Json :=
  .obj [("name", .str p.name), ("ty", p.type.toJson)]

/-- The name of a kind of node, and its fields. -/
def NodeKind.fields : NodeKind → String × List (String × Json)
  | globalContext => ("global_context", [])
  | classInterface name => ("class_interface", [("name", .str name)])
  | classImplementation name => ("class_implementation", [("name", .str name)])
  | classCategory className categoryName implementation =>
    ("class_category", [("class_name", .str className), ("category_name", .ofString? categoryName),
      ("implementation", .bool implementation)])
  | protocolDeclaration name => ("protocol_declaration", [("name", .str name)])
  | superclassName name => ("superclass_name", [("name", .str name)])
  | protocolReferences protocols => ("protocol_reference_list", [("protocols", .strs protocols)])
  | propertyDefinition name type attributes =>
    ("property_definition", [("name", .str name), ("ty", type.toJson),
      ("attributes", .strs attributes)])
  | methodDefinition method => ("method_definition", method.fields)
  | ivarsList => ("ivars_list", [])
  | ivarDeclaration name type => ("ivar_declaration", [("name", .str name), ("ty", type.toJson)])
  | keyword word => ("keyword", [("keyword", .str word)])
  | variableDeclaration name type initializer =>
    ("variable_declaration", [("name", .str name), ("ty", type.toJson),
      ("initializer", .option Expr.toJson initializer)])
  | functionDefinition name result parameters body =>
    ("function_definition", [("name", .str name), ("return_type", result.toJson),
      ("parameters", .list FunctionParameter.toJson parameters),
      ("body", .option Body.toJson body)])
  | typedef name type => ("typedef", [("name", .str name), ("ty", type.toJson)])
  | identifier name => ("identifier", [("name", .str name)])
  | directive text => ("preprocessor_directive", [("text", .str text)])
  | unknown text => ("unknown", [("text", .str text)])

/-- The kind of a node as JSON. -/
def NodeKind.toJson (kind : NodeKind) : Json :=
  .obj (("node", .str kind.fields.1) :: kind.fields.2)

mutual

/-- A tree as JSON; an empty list of children is left out. -/
def ObjcNode.toJson : ObjcNode → Json
  | ⟨kind, span, []⟩ => .obj [("kind", kind.toJson), ("span", span.toJson)]
  | ⟨kind, span, children⟩ =>
    .obj [("kind", kind.toJson), ("span", span.toJson), ("children", .arr (nodeJsons children))]

/-- Several trees as JSON. -/
def nodeJsons : List ObjcNode → List Json
  | [] => []
  | n :: ns => n.toJson :: nodeJsons ns

end

/-! ### Reading -/

/-- Reads a part of a selector from a given form. -/
def KeywordPart.ofJsonIn? (form : Json.PayloadForm) (j : Json) : Option KeywordPart := do
  let members ← j.record? ["keyword", "ty", "name"]
  let keyword ← Json.field? members "keyword" Json.toString?
  let type ← Json.field members "ty" (ObjcType.ofJsonIn? form)
  let name ← Json.field members "name" Json.toString?
  some ⟨keyword, type, name⟩

/-- Reads a selector from a given form. -/
def Selector.ofJsonIn? (form : Json.PayloadForm) (j : Json) : Option Selector := do
  let (tag, payload?) ← j.tagged
  let payload ← payload?
  match tag with
  | "Simple" => payload.toString?.map simple
  | "Keywords" => (Json.listOf (KeywordPart.ofJsonIn? form) payload).map keywords
  | _ => none

/-- Reads a method from a given form. -/
def MethodDefinition.ofJsonIn? (form : Json.PayloadForm) (j : Json) : Option MethodDefinition := do
  let members ← j.record? ["is_class_method", "return_type", "selector", "body"] 3
  let isClassMethod ← Json.fieldD members "is_class_method" false Json.toBool?
  let result ← Json.field members "return_type" (ObjcType.ofJsonIn? form)
  let selector ← Json.field members "selector" (Selector.ofJsonIn? form)
  let body ← Json.field? members "body" (Body.ofJsonIn? form)
  some ⟨isClassMethod, result, selector, body⟩

/-- Reads a method. -/
def MethodDefinition.ofJson? (j : Json) : Option MethodDefinition :=
  MethodDefinition.ofJsonIn? .strict j

/-- Reads a parameter of a function from a given form. -/
def FunctionParameter.ofJsonIn? (form : Json.PayloadForm) (j : Json) :
    Option FunctionParameter := do
  let members ← j.record? ["name", "ty"]
  let name ← Json.field members "name" Json.toString?
  let type ← Json.field members "ty" (ObjcType.ofJsonIn? form)
  some ⟨name, type⟩

/-- Reads a parameter of a function. -/
def FunctionParameter.ofJson? (j : Json) : Option FunctionParameter :=
  FunctionParameter.ofJsonIn? .strict j

namespace NodeKind

/-- The name of a kind and the record of its fields. The name stands beside the fields, or before
them where they are listed. -/
def parts? : Json → Option (String × Json)
  | .obj members => do
    let name ← Json.field members "node" Json.toString?
    some (name, .obj members)
  | .arr (name :: fields) => name.toString?.map (·, .arr fields)
  | _ => none

/-- Reads a kind whose one field is a string. -/
def withString? (field : String) (make : String → NodeKind) (fields : Json) :
    Option NodeKind := do
  (Json.field (← fields.record? [field]) field Json.toString?).map make

/-- Reads a kind whose two fields are a name and a type. -/
def withType? (make : String → ObjcType → NodeKind) (fields : Json) : Option NodeKind := do
  let members ← fields.record? ["name", "ty"]
  let name ← Json.field members "name" Json.toString?
  let type ← Json.field members "ty" (ObjcType.ofJsonIn? .free)
  some (make name type)

/-- Reads the kind of a node by its name. -/
def ofParts? (name : String) (fields : Json) : Option NodeKind :=
  match name with
  | "global_context" => (fields.record? []).map fun _ => globalContext
  | "class_interface" => withString? "name" classInterface fields
  | "class_implementation" => withString? "name" classImplementation fields
  | "class_category" => do
    let members ← fields.record? ["class_name", "category_name", "implementation"] 1
    let className ← Json.field members "class_name" Json.toString?
    let categoryName ← Json.field? members "category_name" Json.toString?
    let implementation ← Json.fieldD members "implementation" false Json.toBool?
    some (classCategory className categoryName implementation)
  | "protocol_declaration" => withString? "name" protocolDeclaration fields
  | "superclass_name" => withString? "name" superclassName fields
  | "protocol_reference_list" => do
    let members ← fields.record? ["protocols"]
    (Json.field members "protocols" ObjcType.strings?).map protocolReferences
  | "property_definition" => do
    let members ← fields.record? ["name", "ty", "attributes"] 2
    let name ← Json.field members "name" Json.toString?
    let type ← Json.field members "ty" (ObjcType.ofJsonIn? .free)
    let attributes ← Json.fieldD members "attributes" [] ObjcType.strings?
    some (propertyDefinition name type attributes)
  | "method_definition" => (MethodDefinition.ofJsonIn? .free fields).map methodDefinition
  | "ivars_list" => (fields.record? []).map fun _ => ivarsList
  | "ivar_declaration" => withType? ivarDeclaration fields
  | "keyword" => withString? "keyword" keyword fields
  | "variable_declaration" => do
    let members ← fields.record? ["name", "ty", "initializer"] 2
    let name ← Json.field members "name" Json.toString?
    let type ← Json.field members "ty" (ObjcType.ofJsonIn? .free)
    let initializer ← Json.field? members "initializer" (Expr.ofJsonIn? .free)
    some (variableDeclaration name type initializer)
  | "function_definition" => do
    let members ← fields.record? ["name", "return_type", "parameters", "body"] 2
    let name ← Json.field members "name" Json.toString?
    let result ← Json.field members "return_type" (ObjcType.ofJsonIn? .free)
    let parameters ←
      Json.fieldD members "parameters" [] (Json.listOf (FunctionParameter.ofJsonIn? .free))
    let body ← Json.field? members "body" (Body.ofJsonIn? .free)
    some (functionDefinition name result parameters body)
  | "typedef" => withType? typedef fields
  | "identifier" => withString? "name" identifier fields
  | "preprocessor_directive" => withString? "text" directive fields
  | "unknown" => withString? "text" unknown fields
  | _ => none

/-- Reads the kind of a node. All of it has to be held, also what no field asks for. -/
def ofJson? (j : Json) : Option NodeKind := do
  let (name, fields) ← parts? j
  if j.isHeld then ofParts? name fields else none

end NodeKind

namespace ObjcNode

/-- Reads a tree of bounded depth. -/
def decode : (fuel : Nat) → Json → Option ObjcNode
  | 0, _ => none
  | fuel + 1, j => do
    let members ← j.record? ["kind", "span", "children"] 1
    let kind ← Json.field members "kind" NodeKind.ofJson?
    let span ← Json.fieldD members "span" .dummy Span.ofJson?
    let children ← Json.fieldD members "children" [] (Json.listOf (decode fuel))
    some ⟨kind, span, children⟩

/-- Reads a tree. -/
def ofJson? (j : Json) : Option ObjcNode :=
  decode j.size j

end ObjcNode

end ObjcSwift
