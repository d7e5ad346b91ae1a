import ObjcSwift.Decl.Payload

/-!
# Graphs of declarations

A graph holds declarations in numbered **slots** and lists its files. A declaration that is not a
file names its owner, and the owner lists it, in the list for its kind (`ChildList`). A slot that
was emptied stays empty, so the number of a removed declaration is never used again.

Nothing in the type keeps the two directions in step: a graph that was read from elsewhere may hold
anything. `Graph.verify` says whether they agree.
-/

namespace ObjcSwift

/-- A declaration with the number of its owner. -/
structure GraphNode where
  /-- The owner; files have none. -/
  parent : Option DeclId
  /-- The declaration. -/
  decl : Decl

/-- A graph of declarations. -/
structure Graph where
  /-- The declarations by number; a removed one leaves an empty slot. -/
  slots : List (Option GraphNode) := []
  /-- The files. -/
  files : List DeclId := []

/-- The lists in which owners keep their declarations. -/
inductive ChildList
  /-- The types of a file. -/
  | types
  /-- The type aliases of a file. -/
  | aliases
  /-- The functions of a file. -/
  | functions
  /-- The variables of a file. -/
  | globals
  /-- The properties of a type. -/
  | properties
  /-- The methods of a type. -/
  | methods
  /-- The instance variables of a type. -/
  | ivars
  /-- The conformances of a type. -/
  | conformances
deriving DecidableEq

/-- What is wrong with a graph or an edit. -/
inductive GraphError
  /-- There is no declaration of that number. -/
  | missing (id : DeclId)
  /-- The owner does not list the declaration. -/
  | notAChild (child parent : DeclId)
  /-- The declaration is of another kind. -/
  | unexpectedKind (id : DeclId) (expected found : String)
  /-- Declarations of the one kind cannot own declarations of the other. -/
  | invalidPlacement (child parent : String)
  /-- The declaration names an owner that does not list it. -/
  | danglingParent (child parent : DeclId)
  /-- The declaration has no owner and is no listed file. -/
  | orphaned (id : DeclId)
  /-- The owner lists the declaration twice. -/
  | duplicateChild (parent child : DeclId)
deriving DecidableEq

/-- What is wrong, in words. -/
def GraphError.message : GraphError → String
  | missing id => "intention " ++ id.text ++ " does not exist"
  | notAChild child parent => "intention " ++ child.text ++ " is not a child of " ++ parent.text
  | unexpectedKind id expected found =>
    "intention " ++ id.text ++ " is a " ++ found ++ ", expected " ++ expected
  | invalidPlacement child parent => "a " ++ child ++ " cannot be placed under a " ++ parent
  | danglingParent child parent =>
    "intention " ++ child.text ++ " points at parent " ++ parent.text ++ " which does not list it"
  | orphaned id => "intention " ++ id.text ++ " has no parent and is not a file"
  | duplicateChild parent child =>
    "intention " ++ parent.text ++ " lists child " ++ child.text ++ " more than once"

namespace DeclId

/-- The number of a slot; slots beyond 32 bits wrap around. -/
def ofNat (n : Nat) : DeclId :=
  ⟨UInt32.ofNat n⟩

/-- The slot of a number. -/
def toNat (id : DeclId) : Nat :=
  id.index.toNat

/-- A number moved up. -/
def shift (offset : Nat) (id : DeclId) : DeclId :=
  ofNat (id.toNat + offset)

end DeclId

namespace Decl

/-! ### The declarations that a declaration owns -/

/-- The list in which the owner of a declaration keeps it. -/
def ownList? : Decl → Option ChildList
  | file _ => none
  | type _ => some .types
  | typeAlias _ => some .aliases
  | globalFunction _ => some .functions
  | globalVariable _ => some .globals
  | property _ => some .properties
  | method _ => some .methods
  | ivar _ => some .ivars
  | conformance _ => some .conformances

/-- The declaration with one of its lists changed, if it has that list. -/
def updateList? (list : ChildList) (f : List DeclId → List DeclId) : Decl → Option Decl
  | file d =>
    match list with
    | .types => some (file { d with types := f d.types })
    | .aliases => some (file { d with aliases := f d.aliases })
    | .functions => some (file { d with functions := f d.functions })
    | .globals => some (file { d with globals := f d.globals })
    | _ => none
  | type d =>
    match list with
    | .properties => some (type { d with properties := f d.properties })
    | .methods => some (type { d with methods := f d.methods })
    | .ivars => some (type { d with ivars := f d.ivars })
    | .conformances => some (type { d with conformances := f d.conformances })
    | _ => none
  | _ => none

/-- Whether a declaration has a list. -/
def hasList (d : Decl) (list : ChildList) : Bool :=
  (d.updateList? list id).isSome

/-- The declaration with all of its lists changed. -/
def mapLists (f : List DeclId → List DeclId) : Decl → Decl
  | file d =>
    file { d with
      types := f d.types, aliases := f d.aliases, functions := f d.functions,
      globals := f d.globals }
  | type d =>
    type { d with
      properties := f d.properties, methods := f d.methods, ivars := f d.ivars,
      conformances := f d.conformances }
  | d => d

/-- The declaration without the declarations it owns. -/
def childless (d : Decl) : Decl :=
  d.mapLists fun _ => []

/-- The declarations that a declaration owns. -/
def children : Decl → List DeclId
  | file d => d.types ++ d.aliases ++ d.functions ++ d.globals
  | type d => d.properties ++ d.methods ++ d.ivars ++ d.conformances
  | _ => []

/-- The declaration without the first place at which it lists a number, if it lists it. -/
def eraseChild? (id : DeclId) : Decl → Option Decl
  | file d =>
    if d.types.contains id then some (file { d with types := d.types.erase id })
    else if d.aliases.contains id then some (file { d with aliases := d.aliases.erase id })
    else if d.functions.contains id then some (file { d with functions := d.functions.erase id })
    else if d.globals.contains id then some (file { d with globals := d.globals.erase id })
    else none
  | type d =>
    if d.properties.contains id then some (type { d with properties := d.properties.erase id })
    else if d.methods.contains id then some (type { d with methods := d.methods.erase id })
    else if d.ivars.contains id then some (type { d with ivars := d.ivars.erase id })
    else if d.conformances.contains id then
      some (type { d with conformances := d.conformances.erase id })
    else none
  | _ => none

/-! ### Views -/

/-- The file that a declaration is. -/
def file? : Decl → Option FileDecl
  | file d => some d
  | _ => none

/-- The type that a declaration is. -/
def type? : Decl → Option TypeDecl
  | type d => some d
  | _ => none

/-- The property that a declaration is. -/
def property? : Decl → Option PropertyDecl
  | property d => some d
  | _ => none

/-- The method that a declaration is. -/
def method? : Decl → Option MethodDecl
  | method d => some d
  | _ => none

/-- The instance variable that a declaration is. -/
def ivar? : Decl → Option IvarDecl
  | ivar d => some d
  | _ => none

/-- The conformance that a declaration is. -/
def conformance? : Decl → Option ConformanceDecl
  | conformance d => some d
  | _ => none

/-- The global function that a declaration is. -/
def globalFunction? : Decl → Option FunctionDecl
  | globalFunction d => some d
  | _ => none

/-- The global variable that a declaration is. -/
def globalVariable? : Decl → Option VariableDecl
  | globalVariable d => some d
  | _ => none

/-- The type alias that a declaration is. -/
def typeAlias? : Decl → Option AliasDecl
  | typeAlias d => some d
  | _ => none

/-- Whether a declaration carries statements or an initial value. -/
def ownsCode : Decl → Bool
  | method d => d.code.isSome
  | globalFunction d => d.code.isSome
  | property d => !d.mode.isField
  | globalVariable d => d.initial.isSome
  | _ => false

/-- The bodies that a declaration carries; of a property the getter, then the setter. -/
def bodies : Decl → List Body
  | method d => d.code.toList.map (·.body)
  | globalFunction d => d.code.toList.map (·.body)
  | property d =>
    match d.mode with
    | .field => []
    | .computed getter setter => getter.body :: setter.toList.map (·.code.body)
    | .full getter setter => [getter.body, setter.code.body]
  | _ => []

end Decl

namespace Graph

/-! ### Looking things up -/

/-- The declaration in a slot, with its owner. -/
def node? (g : Graph) (id : DeclId) : Option GraphNode :=
  (g.slots[id.toNat]?).join

/-- The declaration of a number. -/
def get? (g : Graph) (id : DeclId) : Option Decl :=
  (g.node? id).map (·.decl)

/-- The owner of a declaration. -/
def parent? (g : Graph) (id : DeclId) : Option DeclId :=
  (g.node? id).bind (·.parent)

/-- Whether there is a declaration of a number. -/
def contains (g : Graph) (id : DeclId) : Bool :=
  (g.node? id).isSome

/-- The declarations with their numbers, in the order of the slots. -/
def live (g : Graph) : List (DeclId × Decl) :=
  g.slots.zipIdx.filterMap fun (slot, i) => slot.map fun node => (.ofNat i, node.decl)

/-- How many declarations there are. -/
def size (g : Graph) : Nat :=
  g.slots.countP Option.isSome

/-- The declaration of a number, if it is of the wanted kind. -/
def typed {α : Type} (g : Graph) (id : DeclId) (expected : String) (view : Decl → Option α) :
    Except GraphError α :=
  match g.get? id with
  | none => .error (.missing id)
  | some d =>
    match view d with
    | some a => .ok a
    | none => .error (.unexpectedKind id expected d.kindName)

/-- The file of a number. -/
def file (g : Graph) (id : DeclId) : Except GraphError FileDecl :=
  g.typed id "file" Decl.file?

/-- The type of a number. -/
def type (g : Graph) (id : DeclId) : Except GraphError TypeDecl :=
  g.typed id "type" Decl.type?

/-- The property of a number. -/
def property (g : Graph) (id : DeclId) : Except GraphError PropertyDecl :=
  g.typed id "property" Decl.property?

/-- The method of a number. -/
def method (g : Graph) (id : DeclId) : Except GraphError MethodDecl :=
  g.typed id "method" Decl.method?

/-- The instance variable of a number. -/
def ivar (g : Graph) (id : DeclId) : Except GraphError IvarDecl :=
  g.typed id "instance variable" Decl.ivar?

/-- The conformance of a number. -/
def conformance (g : Graph) (id : DeclId) : Except GraphError ConformanceDecl :=
  g.typed id "protocol conformance" Decl.conformance?

/-- The global function of a number. -/
def globalFunction (g : Graph) (id : DeclId) : Except GraphError FunctionDecl :=
  g.typed id "global function" Decl.globalFunction?

/-- The global variable of a number. -/
def globalVariable (g : Graph) (id : DeclId) : Except GraphError VariableDecl :=
  g.typed id "global variable" Decl.globalVariable?

/-- The type alias of a number. -/
def typeAlias (g : Graph) (id : DeclId) : Except GraphError AliasDecl :=
  g.typed id "typealias" Decl.typeAlias?

/-- The types of all files, file by file. -/
def typeIds (g : Graph) : List DeclId :=
  g.files.flatMap fun id => match g.file id with
    | .ok d => d.types
    | .error _ => []

/-- The declarations that carry statements or an initial value. -/
def codeOwners (g : Graph) : List DeclId :=
  (g.live.filter (·.2.ownsCode)).map (·.1)

/-! ### Owners of owners -/

/-- Owners from one on, as many as the fuel allows. -/
def ancestorsFrom (g : Graph) : (fuel : Nat) → Option DeclId → List DeclId
  | 0, _ => []
  | _ + 1, none => []
  | fuel + 1, some id => id :: g.ancestorsFrom fuel (g.parent? id)

/-- The owner of a declaration, its owner, and so on. Where owners form a ring, the list goes around
it at least once. -/
def ancestors (g : Graph) (id : DeclId) : List DeclId :=
  g.ancestorsFrom (g.slots.length + 1) (g.parent? id)

/-- The type that a declaration stands in. -/
def enclosingType? (g : Graph) (id : DeclId) : Option DeclId :=
  (g.ancestors id).find? fun a => ((g.get? a).bind Decl.type?).isSome

/-- The file that a declaration stands in; a file stands in itself. -/
def enclosingFile? (g : Graph) (id : DeclId) : Option DeclId :=
  (id :: g.ancestors id).find? fun a => ((g.get? a).bind Decl.file?).isSome

/-! ### Agreement of owners and lists -/

/-- Checks what an owner lists from some point on, given what it lists before. -/
def verifyChildren (g : Graph) (parent : DeclId) (seen : List DeclId) :
    List DeclId → Except GraphError Unit
  | [] => .ok ()
  | child :: rest =>
    if seen.contains child then .error (.duplicateChild parent child)
    else
      match g.node? child with
      | none => .error (.missing child)
      | some node =>
        if node.parent ≠ some parent then .error (.notAChild child parent)
        else g.verifyChildren parent (child :: seen) rest

/-- Checks that a declaration is listed by its owner, or among the files when it has none. -/
def verifyParent (g : Graph) (id : DeclId) : Except GraphError Unit :=
  match g.parent? id with
  | some parent =>
    if (g.get? parent).any fun d => d.children.contains id then .ok ()
    else .error (.danglingParent id parent)
  | none => if g.files.contains id then .ok () else .error (.orphaned id)

/-- Checks that owners and lists agree everywhere. -/
def verify (g : Graph) : Except GraphError Unit := do
  g.files.forM fun id => do let _ ← g.file id
  g.live.forM fun (id, d) => do
    g.verifyParent id
    g.verifyChildren id [] d.children

end Graph

end ObjcSwift
