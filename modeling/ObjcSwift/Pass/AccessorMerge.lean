import ObjcSwift.Typing.Bodies

/-!
# Merging accessors into properties

A stored property takes over the methods that implement it. The **getter** is the first method of
its name without parameters; the **setter**, which a readonly property has none of, is the first one
of its name that takes the type of the property and returns nothing. With a getter the property
becomes computed, with both it takes over both, and with a setter alone nothing changes.
-/

namespace ObjcSwift

namespace MethodDecl

/-- Whether a method is a getter of a name. -/
def isGetter (m : MethodDecl) (name : String) : Bool :=
  m.signature.name == name && m.signature.parameters.isEmpty

/-- Whether a method is a setter of a name for values of a type, whatever the optional layers. -/
def isSetter (m : MethodDecl) (name : String) (type : SwiftType) : Bool :=
  match m.signature.parameters with
  | [p] =>
    m.signature.name == name && p.label.isNone && p.type.base == type.base &&
      m.signature.result.isVoid
  | _ => false

end MethodDecl

namespace AccessorMerge

/-- The methods that implement a property. -/
structure Accessors where
  /-- The getter. -/
  getter : DeclId
  /-- The setter. -/
  setter : Option DeclId

/-- The methods among those given that implement a property. -/
def findAccessors (g : Graph) (p : PropertyDecl) (methods : List DeclId) :
    Except GraphError (Option Accessors) := do
  let read ← methods.mapM fun id => return (id, ← g.method id)
  let own := read.filter fun (_, m) => m.signature.isStatic == p.isStatic
  let getter := own.find? fun (_, m) => m.isGetter p.getterName
  let setter := if p.isReadonly then none else
    own.find? fun (_, m) => m.isSetter p.setterName p.storage.type
  return getter.map fun (id, _) => ⟨id, setter.map (·.1)⟩

/-- Removes a method from a type, and gives its body; a method without body has an empty one. -/
def takeBody (type method : DeclId) : Graph.Edit Code := do
  match ← Graph.removeChild type method with
  | .method m => return m.code.getD {}
  | other => throw (.unexpectedKind method "method" other.kindName)

/-- Removes a setter from a type, and gives it as that of a property. -/
def takeSetter (type method : DeclId) : Graph.Edit Setter := do
  let m ← Graph.look (·.method method)
  let code ← takeBody type method
  return ⟨(m.signature.parameters.head?.map (·.name)).getD "newValue", code⟩

/-- How a property with accessors is declared; in an extension it cannot be stored. -/
def mergedMode (inExtension : Bool) (getter : Code) : Option Setter → PropertyMode
  | some setter => if inExtension then .computed getter (some setter) else .full getter setter
  | none => .computed getter none

/-- Merges the methods that implement a property into it, leaving out methods that were used before.
Gives the methods used so far, and the property if it changed. -/
def mergeInto (type : DeclId) (inExtension : Bool) (methods used : List DeclId)
    (property : DeclId) : Graph.Edit (List DeclId × Option DeclId) := do
  let p ← Graph.look (·.property property)
  if !p.mode.isField then return (used, none)
  match ← Graph.look (findAccessors · p (methods.filter fun id => !used.contains id)) with
  | none => return (used, none)
  | some accessors =>
    let getter ← takeBody type accessors.getter
    let setter ← match accessors.setter with
      | some id => some <$> takeSetter type id
      | none => pure none
    -- Taking bodies edits the graph, so the property is looked up again.
    let p ← Graph.look (·.property property)
    Graph.setDecl property (.property { p with mode := mergedMode inExtension getter setter })
    return (accessors.getter :: (accessors.setter.toList ++ used), some property)

/-- Merges accessors into the given properties of a type, one after the other. -/
def mergeEach (type : DeclId) (inExtension : Bool) (methods used : List DeclId) :
    (properties : List DeclId) → Graph.Edit (List DeclId)
  | [] => return []
  | property :: rest => do
    let (used, changed) ← mergeInto type inExtension methods used property
    let changes ← mergeEach type inExtension methods used rest
    return changed.toList ++ changes

/-- Merges accessors into the properties of a type, and gives the properties that changed. -/
def mergeInType (type : DeclId) : Graph.Edit (List DeclId) := do
  let d ← Graph.look (·.type type)
  if d.isProtocol then return []
  mergeEach type d.isExtension d.methods [] d.properties

/-- Merges accessors into properties everywhere, and gives the catalogue afterwards. The bodies that
moved are annotated again. -/
def mergeAll (catalog : Catalog) : Graph.Edit Catalog := do
  let changes ← (← get).typeIds.mapM mergeInType
  if changes.flatten.isEmpty then return catalog
  let catalog := Catalog.ofGraph (← get)
  changes.flatten.forM (Graph.annotate catalog)
  return catalog

end AccessorMerge

end ObjcSwift
