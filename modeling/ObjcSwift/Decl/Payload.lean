import ObjcSwift.Decl.Signature
import ObjcSwift.Swift.Expr
import ObjcSwift.Text.Blank
import ObjcSwift.Text.LetterCase

/-!
# Declarations

What a Swift file declares: types with their properties, methods, instance variables and
conformances, and beside them type aliases, functions and variables. A declaration that owns others
lists them by number, one list for each kind; the graph of declarations keeps those lists and the
numbers of the owners in step.
-/

namespace ObjcSwift

/-- The number of a declaration in a graph. -/
structure DeclId where
  /-- The place it has in the graph. -/
  index : UInt32
deriving DecidableEq

/-- Where a declaration is visible. -/
inductive Access
  /-- In the enclosing declaration: `private`. -/
  | enclosing
  /-- In the file: `fileprivate`. -/
  | file
  /-- In the module: `internal`. -/
  | module
  /-- Everywhere: `public`. -/
  | everywhere
deriving DecidableEq

/-- The syntax node that a declaration comes from. -/
structure SourceRef where
  /-- The file. -/
  file : Option String
  /-- The kind of the node. -/
  nodeKind : String
  /-- Where it stands. -/
  span : Span
deriving DecidableEq

/-- What every declaration carries. -/
structure Header where
  /-- Where it is visible. -/
  access : Access := .module
  /-- Where it comes from; nothing for one that was made up. -/
  source : Option SourceRef := none
  /-- Whether it stands in a region where pointers are nonnull by default. -/
  nonnull : Bool := false
deriving DecidableEq

/-- How a variable holds its value. -/
inductive Ownership
  /-- It keeps the value alive. -/
  | strong
  /-- It is reset when the value goes away. -/
  | weak
  /-- It must not outlive the value. -/
  | unowned
  /-- It may outlive the value, unchecked. -/
  | unownedUnsafe
deriving DecidableEq

/-- What a variable stores. -/
structure Storage where
  /-- The type. -/
  type : SwiftType
  /-- How it holds the value. -/
  ownership : Ownership := .strong
  /-- Whether it is declared with `let`. -/
  constant : Bool := false
deriving DecidableEq

/-- The body of a function. -/
structure Code where
  /-- Its statements. -/
  body : Body := []
  /-- Where it comes from. -/
  source : Option SourceRef := none

/-- The setter of a property. -/
structure Setter where
  /-- The name of the new value in the body. -/
  valueName : String
  /-- The body. -/
  code : Code

/-- How a property is declared. -/
inductive PropertyMode
  /-- A stored variable. -/
  | field
  /-- A computed property, with or without setter. -/
  | computed (getter : Code) (setter : Option Setter)
  /-- A property that took over both of its accessor methods. -/
  | full (getter : Code) (setter : Setter)

/-- An attribute of an Objective-C property. -/
inductive PropertyAttribute
  /-- A word such as `readonly`. -/
  | word (text : String)
  /-- `getter=name` -/
  | getter (name : String)
  /-- `setter=name:` -/
  | setter (name : String)
deriving DecidableEq

/-- A property. -/
structure PropertyDecl where
  /-- Its name. -/
  name : String
  /-- What it stores. -/
  storage : Storage
  /-- How it is declared. -/
  mode : PropertyMode := .field
  /-- Its attributes. -/
  attributes : List PropertyAttribute := []
  /-- Whether it belongs to the type. -/
  isStatic : Bool := false
  /-- What every declaration carries. -/
  header : Header := {}

/-- A method. -/
structure MethodDecl where
  /-- Its signature. -/
  signature : Signature
  /-- Its body, if it has one. -/
  code : Option Code := none
  /-- What every declaration carries. -/
  header : Header := {}

/-- An instance variable. -/
structure IvarDecl where
  /-- Its name. -/
  name : String
  /-- What it stores. -/
  storage : Storage
  /-- What every declaration carries. -/
  header : Header := {}

/-- The conformance of a type to a protocol. -/
structure ConformanceDecl where
  /-- The protocol. -/
  name : String
  /-- What every declaration carries. -/
  header : Header := {}

/-- A global function. -/
structure FunctionDecl where
  /-- Its signature. -/
  signature : Signature
  /-- Its body, if it has one. -/
  code : Option Code := none
  /-- What every declaration carries. -/
  header : Header := {}

/-- A global variable. -/
structure VariableDecl where
  /-- Its name. -/
  name : String
  /-- What it stores. -/
  storage : Storage
  /-- Its initial value. -/
  initial : Option Expr := none
  /-- What every declaration carries. -/
  header : Header := {}

/-- A type alias. -/
structure AliasDecl where
  /-- Its name. -/
  name : String
  /-- The type it stands for. -/
  aliased : SwiftType
  /-- What every declaration carries. -/
  header : Header := {}

/-- The kinds of type declaration. -/
inductive TypeKind
  /-- A class, with the name of its superclass. -/
  | classDecl (superclass : Option String)
  /-- An extension, with the name of the category it comes from. -/
  | extensionDecl (category : Option String)
  /-- A protocol. -/
  | protocolDecl
deriving DecidableEq

/-- A class, an extension or a protocol. -/
structure TypeDecl where
  /-- The name of the type. -/
  name : String
  /-- What it is. -/
  kind : TypeKind
  /-- What every declaration carries. -/
  header : Header := {}
  /-- Its properties. -/
  properties : List DeclId := []
  /-- Its methods. -/
  methods : List DeclId := []
  /-- Its instance variables. -/
  ivars : List DeclId := []
  /-- Its conformances. -/
  conformances : List DeclId := []

/-- A file. -/
structure FileDecl where
  /-- The path of the Objective-C file. -/
  sourcePath : String
  /-- The path of the Swift file. -/
  targetPath : String
  /-- What every declaration carries. -/
  header : Header := {}
  /-- The preprocessor directives found in it. -/
  directives : List String := []
  /-- Its types. -/
  types : List DeclId := []
  /-- Its type aliases. -/
  aliases : List DeclId := []
  /-- Its functions. -/
  functions : List DeclId := []
  /-- Its global variables. -/
  globals : List DeclId := []

/-- A declaration. -/
inductive Decl
  /-- A file. -/
  | file (d : FileDecl)
  /-- A class, an extension or a protocol. -/
  | type (d : TypeDecl)
  /-- A property. -/
  | property (d : PropertyDecl)
  /-- A method. -/
  | method (d : MethodDecl)
  /-- An instance variable. -/
  | ivar (d : IvarDecl)
  /-- A conformance. -/
  | conformance (d : ConformanceDecl)
  /-- A global function. -/
  | globalFunction (d : FunctionDecl)
  /-- A global variable. -/
  | globalVariable (d : VariableDecl)
  /-- A type alias. -/
  | typeAlias (d : AliasDecl)

/-- The word for an access level. -/
def Access.text : Access → String
  | .enclosing => "private"
  | .file => "fileprivate"
  | .module => "internal"
  | .everywhere => "public"

/-- A number as it is shown. -/
def DeclId.text (id : DeclId) : String :=
  "#" ++ Text.decimal id.index.toNat

/-! ### Properties -/

/-- The text before the first equals sign and the text after it. -/
def splitAtEquals (cs : List Char) : Option (List Char × List Char) :=
  match cs.dropWhile (· != '=') with
  | _ :: after => some (cs.takeWhile (· != '='), after)
  | [] => none

/-- Reads an attribute as it is written; a setter's colons are dropped. -/
def PropertyAttribute.parse (raw : String) : PropertyAttribute :=
  let raw := Text.trim raw
  match splitAtEquals raw.toList with
  | some (key, value) =>
    let key := Text.trim (String.ofList key)
    let value := Text.trim (String.ofList value)
    if key == "getter" then .getter value
    else if key == "setter" then
      .setter (String.ofList (value.toList.reverse.dropWhile (· == ':')).reverse)
    else .word raw
  | none => .word raw

namespace PropertyMode

/-- Whether the property is a plain stored variable. -/
def isField : PropertyMode → Bool
  | field => true
  | _ => false

end PropertyMode

namespace PropertyDecl

/-- Whether the property has an attribute. -/
def hasWord (p : PropertyDecl) (word : String) : Bool :=
  p.attributes.contains (.word word)

/-- Whether the property cannot be set from outside. -/
def isReadonly (p : PropertyDecl) : Bool :=
  p.hasWord "readonly"

/-- The name of the getter method: the one an attribute gives, else the name of the property. -/
def getterName (p : PropertyDecl) : String :=
  (p.attributes.findSome? fun
    | .getter name => some name
    | _ => none).getD p.name

/-- The name of the setter method: the one an attribute gives, else `set` and the name of the
property with its first letter in upper case. -/
def setterName (p : PropertyDecl) : String :=
  (p.attributes.findSome? fun
    | .setter name => some name
    | _ => none).getD ("set" ++ Text.upperFirst p.name)

end PropertyDecl

/-! ### Types and files -/

namespace TypeDecl

/-- Whether this is a class. -/
def isClass (d : TypeDecl) : Bool :=
  match d.kind with
  | .classDecl _ => true
  | _ => false

/-- Whether this is an extension. -/
def isExtension (d : TypeDecl) : Bool :=
  match d.kind with
  | .extensionDecl _ => true
  | _ => false

/-- Whether this is a protocol. -/
def isProtocol (d : TypeDecl) : Bool :=
  d.kind == .protocolDecl

/-- The superclass of a class. -/
def superclass? (d : TypeDecl) : Option String :=
  match d.kind with
  | .classDecl superclass => superclass
  | _ => none

/-- The category of an extension. -/
def category? (d : TypeDecl) : Option String :=
  match d.kind with
  | .extensionDecl category => category
  | _ => none

end TypeDecl

namespace FileDecl

/-- Whether the source is a header. -/
def isHeader (d : FileDecl) : Bool :=
  ".h".toList.isSuffixOf d.sourcePath.toList

/-- Whether the file declares nothing. -/
def isEmpty (d : FileDecl) : Bool :=
  d.types.isEmpty && d.aliases.isEmpty && d.functions.isEmpty && d.globals.isEmpty

end FileDecl

namespace Decl

/-- The word for the kind of a declaration. -/
def kindName : Decl → String
  | file _ => "file"
  | type _ => "type"
  | property _ => "property"
  | method _ => "method"
  | ivar _ => "instance variable"
  | conformance _ => "protocol conformance"
  | globalFunction _ => "global function"
  | globalVariable _ => "global variable"
  | typeAlias _ => "typealias"

/-- What every declaration carries. -/
def header : Decl → Header
  | file d => d.header
  | type d => d.header
  | property d => d.header
  | method d => d.header
  | ivar d => d.header
  | conformance d => d.header
  | globalFunction d => d.header
  | globalVariable d => d.header
  | typeAlias d => d.header

/-- The declaration with another header. -/
def withHeader (h : Header) : Decl → Decl
  | file d => file { d with header := h }
  | type d => type { d with header := h }
  | property d => property { d with header := h }
  | method d => method { d with header := h }
  | ivar d => ivar { d with header := h }
  | conformance d => conformance { d with header := h }
  | globalFunction d => globalFunction { d with header := h }
  | globalVariable d => globalVariable { d with header := h }
  | typeAlias d => typeAlias { d with header := h }

end Decl

end ObjcSwift
