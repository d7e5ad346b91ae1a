import ObjcSwift.Decl.Graph.Edit
import ObjcSwift.Lowering.Signature
import ObjcSwift.Objc.Tree
import ObjcSwift.Text.Lines
import ObjcSwift.Text.Path

/-!
# The graph of a source file

A walk over the tree of a file builds a graph with one file in it. Types go under the file, wherever
they stand in the tree, and members go under the innermost type around them. A member outside of
every type is reported and left out.

The walk remembers where it is: the types and lists of instance variables around the current node,
and whether pointers are nonnull by default, which two markers at file scope switch on and off.

A type that overflows has no Swift type, and the program stops when it comes to one. The walk then
goes on, but nothing that it does counts any more.
-/

namespace ObjcSwift

/-- Something around the current node that matters to the nodes inside it. -/
inductive Surrounding
  /-- A type. -/
  | type (id : DeclId)
  /-- A list of instance variables, with the access that the last keyword in it gave. -/
  | ivars (access : Access)
  /-- A type that could not be added. -/
  | skipped

/-- Why the graph of a file could not be built. -/
inductive BuildError
  /-- An edit failed. -/
  | edit (cause : GraphError)
  /-- A type overflows. -/
  | overflow
deriving DecidableEq

/-- How far the graph of a file is built. -/
structure Lowering where
  /-- The path of the Objective-C file. -/
  sourcePath : String
  /-- The graph so far. -/
  graph : Graph := {}
  /-- The file. -/
  file : DeclId := .ofNat 0
  /-- What is around the current node, the innermost first. -/
  around : List Surrounding := []
  /-- Whether pointers are nonnull by default. -/
  nonnull : Bool := false
  /-- The problems so far. -/
  diagnostics : List Diagnostic := []
  /-- The first edit that failed, or that a type overflows. -/
  error : Option BuildError := none

/-- The word that starts a region in which pointers are nonnull by default. -/
def nonnullBegin : String := "NS_ASSUME_NONNULL_BEGIN"

/-- The word that ends such a region. -/
def nonnullEnd : String := "NS_ASSUME_NONNULL_END"

namespace Lowering

/-- The graph after an edit, and the answer of the edit. An edit that fails is remembered. -/
def edit {α : Type} (st : Lowering) (e : Graph.Edit α) : Option α × Lowering :=
  match e.run st.graph with
  | .ok a graph => (some a, { st with graph })
  | .error cause graph => (none, { st with graph, error := st.error.or (some (.edit cause)) })

/-- The graph after a declaration was added. -/
def add (st : Lowering) (parent : DeclId) (decl : Decl) : Lowering :=
  (st.edit (Graph.addChild parent decl)).2

/-- Goes on with something that was mapped. Without room for it the program stops, whatever failed
before. -/
def onMapped {α : Type} (st : Lowering) (mapped : Option α) (next : α → Lowering) : Lowering :=
  match mapped with
  | some a => next a
  | none => { st with error := some .overflow }

/-- A state at the start of a file. -/
def start (sourceName : String) : Lowering :=
  let sourcePath := Path.ofSource sourceName
  let (file, st) := edit { sourcePath }
    (Graph.addFile { sourcePath, targetPath := Path.target sourcePath })
  { st with file := file.getD (.ofNat 0) }

/-! ### Where the walk is -/

/-- The innermost type around the current node. -/
def currentType? (st : Lowering) : Option DeclId :=
  st.around.findSome? fun
    | .type id => some id
    | _ => none

/-- The access of the instance variables in the list right around the current node. -/
def ivarAccess? (st : Lowering) : Option Access :=
  match st.around with
  | .ivars access :: _ => some access
  | _ => none

/-- A reference to a node of the file. -/
def ref (st : Lowering) (node : ObjcNode) : SourceRef :=
  ⟨some st.sourcePath, node.kind.label, node.span⟩

/-- The header of a declaration that comes from a node. -/
def header (st : Lowering) (node : ObjcNode) : Header :=
  { source := some (st.ref node), nonnull := st.nonnull }

/-- The body of a function that comes from a node. -/
def code (st : Lowering) (node : ObjcNode) (body : Body) : Code :=
  ⟨body, some (st.ref node)⟩

/-- The Swift type of a variable that is declared without attributes, if there is room for it. -/
def swiftType? (st : Lowering) (type : ObjcType) : Option SwiftType :=
  type.toSwift? { nonnull := st.nonnull }

/-- Reports a problem with a node. -/
def warn (st : Lowering) (node : ObjcNode) (message : String) : Lowering :=
  { st with
    diagnostics := st.diagnostics ++ [⟨.warning, message, .ofSpan (some st.sourcePath) node.span⟩] }

/-! ### Types -/

/-- Adds a type and goes inside it. -/
def enterType (st : Lowering) (node : ObjcNode) (name : String) (kind : TypeKind) : Lowering :=
  let (id, st) := st.edit (Graph.addChild st.file (.type { name, kind, header := st.header node }))
  -- Leaving the node takes something off the stack, so something is put there in any case.
  { st with around := (match id with
    | some id => .type id
    | none => .skipped) :: st.around }

/-- Gives the class around the node a superclass. -/
def addSuperclass (st : Lowering) (name : String) : Lowering :=
  match st.currentType? with
  | none => st
  | some id => (st.edit do
      let d ← Graph.look (·.type id)
      match d.kind with
      | .classDecl _ => Graph.setDecl id (.type { d with kind := .classDecl (some name) })
      | _ => pure ()).2

/-- Adds conformances to the type around the node. -/
def addConformances (st : Lowering) (node : ObjcNode) (protocols : List String) : Lowering :=
  match st.currentType? with
  | none => st
  | some id => protocols.foldl
      (fun st name => st.add id (.conformance { name, header := st.header node })) st

/-! ### Members -/

/-- Adds a property to the type around the node. -/
def addProperty (st : Lowering) (node : ObjcNode) (name : String) (type : ObjcType)
    (attributes : List String) : Lowering :=
  match st.currentType? with
  | none => st.warn node ("property `" ++ name ++ "` outside of a type declaration")
  | some id =>
    let words := attributes.map PropertyAttribute.parse
    st.onMapped (type.toSwift? (.ofAttributes attributes st.nonnull)) fun swift =>
      st.add id (.property
        { name, storage := { type := swift, ownership := type.ownership attributes }
          attributes := words, isStatic := words.contains (.word "class")
          header := st.header node })

/-- The type that `instancetype` stands for in a type; in a protocol it stands for none. -/
def ownerName? (st : Lowering) (id : DeclId) : Option String :=
  match st.graph.type id with
  | .ok d => if d.isProtocol then none else some d.name
  | .error _ => none

/-- Adds a method to the type around the node. -/
def addMethod (st : Lowering) (node : ObjcNode) (method : MethodDefinition) : Lowering :=
  match st.currentType? with
  | none => st.warn node "method outside of a type declaration"
  | some id =>
    let place : SignaturePlace := ⟨st.nonnull, st.ownerName? id⟩
    st.onMapped (place.ofMethod? method) fun signature =>
      st.add id (.method
        { signature, code := method.body.map (st.code node), header := st.header node })

/-- Changes the access of the instance variables after a keyword. -/
def setIvarAccess (st : Lowering) (word : String) : Lowering :=
  match st.around with
  | .ivars access :: rest =>
    let access := match word with
      | "@private" => .enclosing
      | "@public" => .everywhere
      | "@package" | "@protected" => .module
      | _ => access
    { st with around := .ivars access :: rest }
  | _ => st

/-- Adds an instance variable to the type around the node. -/
def addIvar (st : Lowering) (node : ObjcNode) (name : String) (type : ObjcType) : Lowering :=
  match st.currentType? with
  | none => st.warn node ("instance variable `" ++ name ++ "` outside of a class")
  | some id =>
    let header := { st.header node with access := st.ivarAccess?.getD .enclosing }
    st.onMapped (st.swiftType? type) fun swift =>
      st.add id (.ivar
        { name, storage := { type := swift, ownership := type.ownership [] }, header })

/-! ### Declarations of the file -/

/-- Adds a variable to the file; inside a type it is left out. -/
def addVariable (st : Lowering) (node : ObjcNode) (name : String) (type : ObjcType)
    (initial : Option Expr) : Lowering :=
  match st.currentType? with
  | some _ => st
  | none =>
    st.onMapped (st.swiftType? type) fun swift =>
      let storage : Storage :=
        { type := swift, ownership := type.ownership []
          constant := type.modifiers.contains "const" }
      st.add st.file (.globalVariable { name, storage, initial, header := st.header node })

/-- Adds a function to the file. -/
def addFunction (st : Lowering) (node : ObjcNode) (name : String) (result : ObjcType)
    (parameters : List FunctionParameter) (body : Option Body) : Lowering :=
  let place : SignaturePlace := { nonnull := st.nonnull }
  st.onMapped (place.ofFunction? name result parameters) fun signature =>
    st.add st.file (.globalFunction
      { signature, code := body.map (st.code node), header := st.header node })

/-- Adds a type alias to the file, unless it names the type itself. -/
def addAlias (st : Lowering) (node : ObjcNode) (name : String) (type : ObjcType) : Lowering :=
  st.onMapped (st.swiftType? type) fun aliased =>
    if aliased.name? = some name then st
    else st.add st.file (.typeAlias { name, aliased, header := st.header node })

/-- Adds a preprocessor directive to the file. -/
def addDirective (st : Lowering) (text : String) : Lowering :=
  (st.edit do
    let d ← Graph.look (·.file st.file)
    Graph.setDecl st.file (.file { d with directives := d.directives ++ [Text.trim text] })).2

/-! ### The walk -/

/-- What entering a node does. -/
def enter (node : ObjcNode) (st : Lowering) : Lowering :=
  match node.kind with
  | .classInterface name | .classImplementation name => st.enterType node name (.classDecl none)
  | .classCategory name category _ => st.enterType node name (.extensionDecl category)
  | .protocolDeclaration name => st.enterType node name .protocolDecl
  | .ivarsList => { st with around := .ivars .enclosing :: st.around }
  | _ => st

/-- What visiting a node does, and whether its children are walked. -/
def visit (node : ObjcNode) (st : Lowering) : Lowering × Bool :=
  match node.kind with
  | .superclassName name => (st.addSuperclass name, true)
  | .protocolReferences protocols => (st.addConformances node protocols, true)
  | .propertyDefinition name type attributes => (st.addProperty node name type attributes, true)
  | .methodDefinition method => (st.addMethod node method, true)
  | .keyword word => (st.setIvarAccess word, true)
  | .ivarDeclaration name type => (st.addIvar node name type, true)
  | .variableDeclaration name type initial => (st.addVariable node name type initial, true)
  | .functionDefinition name result parameters body =>
    (st.addFunction node name result parameters body, true)
  | .typedef name type => (st.addAlias node name type, true)
  | .identifier name =>
    if name = nonnullBegin then ({ st with nonnull := true }, true)
    else if name = nonnullEnd then ({ st with nonnull := false }, true)
    else (st, true)
  | .directive text => (st.addDirective text, true)
  | .unknown text =>
    (st.warn node
      ("skipped unrecognized declaration `" ++ Text.trim (Text.firstLine text) ++ "`"), false)
  | _ => (st, true)

/-- What leaving a node does. -/
def exit (node : ObjcNode) (st : Lowering) : Lowering :=
  match node.kind with
  | .classInterface _ | .classImplementation _ | .classCategory _ _ _ | .protocolDeclaration _
  | .ivarsList => { st with around := st.around.tail }
  | _ => st

/-- The walk that builds the graph of a file. -/
def visitor : NodeVisitor Lowering :=
  ⟨enter, visit, exit⟩

end Lowering

namespace Graph

/-- The graph of a tree, with the problems found in it. -/
def ofTree (sourceName : String) (tree : ObjcNode) : Except BuildError (Graph × List Diagnostic) :=
  let st := tree.traverse Lowering.visitor (.start sourceName)
  match st.error with
  | some error => .error error
  | none => .ok (st.graph, st.diagnostics)

/-- The graph of a source file, with the problems found while reading and lowering it. -/
def ofSource (name text : String) : Except BuildError (Graph × List Diagnostic) := do
  let (tree, problems) := ObjcNode.read name text
  let (graph, found) ← ofTree name tree
  return (graph, problems ++ found)

end Graph

end ObjcSwift
