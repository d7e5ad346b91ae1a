import ObjcSwift.Objc.ObjcType
import ObjcSwift.Swift.Expr

/-!
# Objective-C syntax trees

The tree of one source file. Declarations stand in the tree as they stand in the file; the bodies of
methods and functions are already Swift statements.

A walk over a tree enters a node, visits it, walks its children unless the visit declines, and
leaves the node (`ObjcNode.traverse`). Entering and leaving are always paired, so a walk can keep a
stack.
-/

namespace ObjcSwift

/-- One part `keyword:(type)name` of a method's selector. -/
structure KeywordPart where
  /-- The keyword, which may be missing. -/
  keyword : Option String
  /-- The type of the parameter. -/
  type : ObjcType
  /-- The name of the parameter. -/
  name : String

/-- The selector of a method. -/
inductive Selector
  /-- A name without parameters. -/
  | simple (name : String)
  /-- Keywords, one for each parameter. -/
  | keywords (parts : List KeywordPart)

/-- The declaration or definition of a method. -/
structure MethodDefinition where
  /-- Whether it is a class method, declared with `+`. -/
  isClassMethod : Bool
  /-- The type it returns. -/
  result : ObjcType
  /-- Its selector. -/
  selector : Selector
  /-- Its body, if it is defined here. -/
  body : Option Body

/-- A parameter of a function. -/
structure FunctionParameter where
  /-- Its name. -/
  name : String
  /-- Its type. -/
  type : ObjcType

/-- What a node of a tree is. -/
inductive NodeKind
  /-- A whole file. -/
  | globalContext
  /-- `@interface Name` -/
  | classInterface (name : String)
  /-- `@implementation Name` -/
  | classImplementation (name : String)
  /-- A category, or a class extension when it has no name. -/
  | classCategory (className : String) (categoryName : Option String) (implementation : Bool)
  /-- `@protocol Name` -/
  | protocolDeclaration (name : String)
  /-- The superclass of the class around it. -/
  | superclassName (name : String)
  /-- The protocols of the type around it. -/
  | protocolReferences (protocols : List String)
  /-- `@property` -/
  | propertyDefinition (name : String) (type : ObjcType) (attributes : List String)
  /-- A method. -/
  | methodDefinition (method : MethodDefinition)
  /-- The instance variables of the type around it. -/
  | ivarsList
  /-- An instance variable. -/
  | ivarDeclaration (name : String) (type : ObjcType)
  /-- An access keyword, or `@optional` and `@required`. -/
  | keyword (word : String)
  /-- A global variable. -/
  | variableDeclaration (name : String) (type : ObjcType) (initializer : Option Expr)
  /-- A function. -/
  | functionDefinition (name : String) (result : ObjcType) (parameters : List FunctionParameter)
      (body : Option Body)
  /-- A type definition. -/
  | typedef (name : String) (type : ObjcType)
  /-- A bare identifier at file scope. -/
  | identifier (name : String)
  /-- A preprocessor directive. -/
  | directive (text : String)
  /-- Source text that was not understood. -/
  | unknown (text : String)

/-- A node of a tree. -/
structure ObjcNode where
  /-- What it is. -/
  kind : NodeKind
  /-- Where it stands. -/
  span : Span := .dummy
  /-- The nodes inside it. -/
  children : List ObjcNode := []

/-- The selector as it is written: `insert:atIndex:`. -/
def Selector.text : Selector → String
  | simple name => name
  | keywords parts => String.join (parts.map fun part => part.keyword.getD "" ++ ":")

/-- The name of a kind of node in messages. -/
def NodeKind.label : NodeKind → String
  | globalContext => "global context"
  | classInterface _ => "class interface"
  | classImplementation _ => "class implementation"
  | classCategory _ _ _ => "class category"
  | protocolDeclaration _ => "protocol declaration"
  | superclassName _ => "superclass name"
  | protocolReferences _ => "protocol reference list"
  | propertyDefinition _ _ _ => "property definition"
  | methodDefinition _ => "method definition"
  | ivarsList => "ivars list"
  | ivarDeclaration _ _ => "ivar declaration"
  | keyword _ => "keyword"
  | variableDeclaration _ _ _ => "variable declaration"
  | functionDefinition _ _ _ _ => "function definition"
  | typedef _ _ => "typedef"
  | identifier _ => "identifier"
  | directive _ => "preprocessor directive"
  | unknown _ => "unknown"

namespace ObjcNode

/-- The name a node declares. -/
def name? (n : ObjcNode) : Option String :=
  match n.kind with
  | .classInterface name | .classImplementation name | .protocolDeclaration name
  | .superclassName name | .propertyDefinition name _ _ | .ivarDeclaration name _
  | .variableDeclaration name _ _ | .functionDefinition name _ _ _ | .typedef name _
  | .identifier name | .classCategory name _ _ => some name
  | _ => none

/-- The superclass that a child of the node names. -/
def superclassName? (n : ObjcNode) : Option String :=
  n.children.findSome? fun child => match child.kind with
    | .superclassName name => some name
    | _ => none

/-- The protocols that children of the node list. -/
def protocolNames (n : ObjcNode) : List String :=
  n.children.flatMap fun child => match child.kind with
    | .protocolReferences protocols => protocols
    | _ => []

mutual

/-- The number of nodes in a tree. -/
def count : ObjcNode → Nat
  | ⟨_, _, children⟩ => countAll children + 1

/-- The number of nodes in several trees. -/
def countAll : List ObjcNode → Nat
  | [] => 0
  | n :: ns => count n + countAll ns

end

end ObjcNode

/-- What a walk does with its state at each node. -/
structure NodeVisitor (σ : Type) where
  /-- What entering a node does. -/
  enter : ObjcNode → σ → σ
  /-- What visiting a node does, and whether its children are walked. -/
  visit : ObjcNode → σ → σ × Bool
  /-- What leaving a node does. -/
  exit : ObjcNode → σ → σ

section Traverse

variable {σ : Type} (v : NodeVisitor σ)

mutual

/-- The state after a walk over a tree. -/
def ObjcNode.traverse : ObjcNode → σ → σ
  | ⟨kind, span, children⟩, st =>
    let n : ObjcNode := ⟨kind, span, children⟩
    let (st, descend) := v.visit n (v.enter n st)
    v.exit n (if descend then traverseAll children st else st)

/-- The state after a walk over several trees. -/
def traverseAll : List ObjcNode → σ → σ
  | [], st => st
  | n :: ns, st => traverseAll ns (n.traverse st)

end

end Traverse

end ObjcSwift
