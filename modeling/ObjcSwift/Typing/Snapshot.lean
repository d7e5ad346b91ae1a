import ObjcSwift.Decl.Graph
import ObjcSwift.Typing.Builtin

/-!
# The catalogue of a graph

The declarations of a graph as a catalogue, laid over the built-in one. A declaration that bears the
name of a built-in type adds to a copy of it, and an alias of a known type is a copy under another
name. Declarations are taken in the order of their numbers, so an alias sees only what comes before
it.
-/

namespace ObjcSwift

namespace TypeDecl

/-- What a type declaration is in a catalogue. -/
def knownKind (d : TypeDecl) : KnownKind :=
  if d.isProtocol then .protocolType else .classType

/-- The members that a type declares: properties, then methods, then instance variables. -/
def knownMembers (g : Graph) (d : TypeDecl) : List Member :=
  d.properties.filterMap (fun id => do
    let p ← (g.get? id).bind Decl.property?
    return .property p.name p.storage.type p.isStatic) ++
  d.methods.filterMap (fun id => do
    let m ← (g.get? id).bind Decl.method?
    return .method m.signature) ++
  d.ivars.filterMap (fun id => do
    let v ← (g.get? id).bind Decl.ivar?
    return .field v.name v.storage.type)

/-- A type declaration as an entry of a catalogue. -/
def known (g : Graph) (d : TypeDecl) : KnownType where
  name := d.name
  kind := d.knownKind
  supertype := d.superclass?
  conformances := d.conformances.filterMap fun id =>
    ((g.get? id).bind Decl.conformance?).map (·.name)
  members := d.knownMembers g

end TypeDecl

namespace Catalog

/-- What an entry of a name starts from: a copy of the built-in type, unless the name is declared
already, and otherwise an empty type. -/
def start (declared : Catalog) (name : String) (kind : KnownKind) : KnownType :=
  match declared.type? name, builtin.type? name with
  | none, some t => t
  | _, _ => { name, kind }

/-- Declared entries with one more declaration. -/
def declare (g : Graph) (declared : Catalog) : Decl → Catalog
  | .type d => declared.addType ((declared.start d.name d.knownKind).absorb (d.known g))
  | .globalFunction d => declared.addGlobal (.function d.signature)
  | .globalVariable d => declared.addGlobal (.value d.name d.storage.type)
  | .typeAlias d =>
    match d.aliased.name?.bind (declared.layeredOn builtin).type? with
    | some t => declared.addType { t with name := d.name }
    | none => declared
  | _ => declared

/-- What the declarations of a graph add. -/
def declared (g : Graph) : Catalog :=
  g.live.foldl (fun c (_, d) => c.declare g d) {}

/-- What names refer to beside the declarations of a graph. -/
def ofGraph (g : Graph) : Catalog :=
  (declared g).layeredOn builtin

end Catalog

end ObjcSwift
