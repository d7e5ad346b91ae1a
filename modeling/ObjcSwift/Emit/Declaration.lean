import ObjcSwift.Decl.Graph
import ObjcSwift.Emit.Statement

/-!
# Printing declarations

How a declaration is written to a target, and a type with its members. Instance variables come
first, then properties, initializers and the other methods; a protocol lists its properties and
methods without bodies.

Printing fails only if a list of the graph names something that is missing or of another kind.
-/

namespace ObjcSwift

namespace Emit

/-- The access level before a declaration; the module is not written. -/
def accessPrefix (h : Header) : String :=
  match h.access with
  | .module => ""
  | access => access.text ++ " "

/-- The word before a static declaration. -/
def staticPrefix (isStatic : Bool) : String :=
  if isStatic then "static " else ""

/-- The word for how a variable holds its value. -/
def ownershipPrefix : Ownership → String
  | .strong => ""
  | .weak => "weak "
  | .unowned => "unowned "
  | .unownedUnsafe => "unowned(unsafe) "

/-- The declaration of a variable. -/
def storage (h : Header) (isStatic : Bool) (name : String) (s : Storage) : String :=
  accessPrefix h ++ staticPrefix isStatic ++ ownershipPrefix s.ownership ++
    (if s.constant then "let " else "var ") ++ name ++ ": " ++ s.type.text

/-- Writes a function with its body, or only its signature. -/
def function (h : Header) (signature : Signature) (code : Option Code) : Writer Unit :=
  let declaration := accessPrefix h ++ signature.text
  match code with
  | some code => Writer.block declaration code.body.write
  | none => Writer.line declaration

/-- Writes the getter and setter of a property. -/
def accessors (getter : Code) (setter : Setter) : Writer Unit := do
  Writer.block "get" getter.body.write
  Writer.block
    (if setter.valueName == "newValue" then "set" else "set(" ++ setter.valueName ++ ")")
    setter.code.body.write

/-- Writes a property of a class or extension. -/
def property (p : PropertyDecl) : Writer Unit :=
  let declaration := storage p.header p.isStatic p.name p.storage
  match p.mode with
  | .field => Writer.line declaration
  | .computed getter none => Writer.block declaration getter.body.write
  | .computed getter (some setter) | .full getter setter =>
    Writer.block declaration (accessors getter setter)

/-- A property of a protocol. -/
def requirement (p : PropertyDecl) : String :=
  staticPrefix p.isStatic ++ "var " ++ p.name ++ ": " ++ p.storage.type.text ++
    if p.isReadonly then " \x7b get \x7d" else " \x7b get set \x7d"

/-- Writes the members of a protocol. -/
def protocolMembers (g : Graph) (d : TypeDecl) : Writer Unit := do
  d.properties.forM fun id => do Writer.line (requirement (← Writer.look (g.property id)))
  d.methods.forM fun id => do Writer.line (← Writer.look (g.method id)).signature.text

/-- Methods in the order in which they are printed. -/
def initializersFirst (methods : List MethodDecl) : List MethodDecl :=
  methods.filter (·.signature.isInitializer) ++ methods.filter (!·.signature.isInitializer)

/-- Writes the members of a class or extension; every method has a body, which may be empty. -/
def members (g : Graph) (d : TypeDecl) : Writer Unit := do
  let written ← Writer.group d.ivars (fun id => do
    let v ← Writer.look (g.ivar id)
    Writer.line (storage v.header false v.name v.storage)) false
  let written ← Writer.group d.properties (fun id => do property (← Writer.look (g.property id)))
    written
  let methods ← Writer.look (d.methods.mapM fun id => g.method id)
  let _ ← Writer.sections (initializersFirst methods) .ok
    (fun m => function m.header m.signature (some (m.code.getD {}))) written

/-- The word for a kind of type. -/
def keyword : TypeKind → String
  | .classDecl _ => "class"
  | .extensionDecl _ => "extension"
  | .protocolDecl => "protocol"

/-- What opens a type, which inherits from some names. -/
def typeOpening (d : TypeDecl) (inherited : List String) : String :=
  accessPrefix d.header ++ keyword d.kind ++ " " ++ d.name ++
    if inherited.isEmpty then "" else ": " ++ String.intercalate ", " inherited

/-- Writes a type with its members; an extension names its category in a comment. -/
def type (g : Graph) (d : TypeDecl) : Writer Unit := do
  let conformances ← Writer.look (d.conformances.mapM fun id => g.conformance id)
  d.category?.toList.forM fun c => Writer.line ("// MARK: - " ++ c)
  Writer.block (typeOpening d (d.superclass?.toList ++ conformances.map (·.name)))
    (if d.isProtocol then protocolMembers g d else members g d)

end Emit

end ObjcSwift
