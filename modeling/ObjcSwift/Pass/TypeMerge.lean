import ObjcSwift.Pass.Nullability

/-!
# Merging the declarations of a type

A class is declared in a header, in an implementation file and in class extensions; a category too
may have two halves. The declarations of one type are merged into one of them, the **target**: a
class before an extension, and one in an implementation file before one in a header. The others give
it what it lacks: superclass, conformances, properties, instance variables and methods. A member
that the target has already keeps its place there, takes the nullability of the other one, and its
body if it has none.

A header that is left with no declaration goes.
-/

namespace ObjcSwift

/-- What the declarations of one type have in common. -/
inductive MergeKey
  /-- A class with its class extensions. -/
  | type (name : String)
  /-- A category. -/
  | category (name category : String)
deriving DecidableEq

/-- What a declaration has in common with those it is merged with; protocols are not merged. -/
def TypeDecl.mergeKey? (d : TypeDecl) : Option MergeKey :=
  match d.kind with
  | .classDecl _ | .extensionDecl none => some (.type d.name)
  | .extensionDecl (some category) => some (.category d.name category)
  | .protocolDecl => none

namespace TypeMerge

/-- The declarations of each type, in the order in which the types appear. -/
def mergeGroups (g : Graph) : Except GraphError (List (List DeclId)) := do
  let keyed ← g.typeIds.mapM fun id => return ((← g.type id).mergeKey?, id)
  let keys := (keyed.filterMap (·.1)).eraseDups
  return keys.map fun key => (keyed.filter (·.1 == some key)).map (·.2)

/-- Whether a declaration stands in an implementation file. -/
def inImplementation (g : Graph) (id : DeclId) : Except GraphError Bool :=
  match g.enclosingFile? id with
  | some file => return !(← g.file file).isHeader
  | none => return false

/-- How well a declaration serves as target. -/
def targetRank (g : Graph) (id : DeclId) : Except GraphError Nat := do
  let d ← g.type id
  let implementation ← inImplementation g id
  return (if d.isExtension then 0 else 2) + (if implementation then 1 else 0)

/-- The first declaration of the highest rank. -/
def best (first : DeclId) (rank : Nat) : List (DeclId × Nat) → DeclId
  | [] => first
  | (id, r) :: rest => if rank < r then best id r rest else best first rank rest

/-- The declaration that the others of a group are merged into. -/
def target (g : Graph) (first : DeclId) (rest : List DeclId) : Except GraphError DeclId := do
  let ranked ← (first :: rest).mapM fun id => return (id, ← targetRank g id)
  return best first 0 ranked

/-- The first member of a type, in one of its lists, that is of some form. -/
def findMember (g : Graph) (parent : DeclId) (list : TypeDecl → List DeclId) (p : Decl → Bool) :
    Except GraphError (Option DeclId) := do
  let d ← g.type parent
  return (list d).find? fun id => (g.get? id).any p

/-- Moves a member to the target, or removes it when the target has its like. -/
def relocate (id target : DeclId) (duplicate : Bool) : Graph.Edit Unit :=
  if duplicate then discard (Graph.remove id) else Graph.moveTo id target

/-- The header of a target after a merge: nonnull if either is, and with the source of the other if
it has none. -/
def joinHeaders (target other : Header) : Header :=
  { target with
    nonnull := target.nonnull || other.nonnull
    source := target.source.or other.source }

/-- The kind of a target after a merge: a class without superclass takes that of the other. -/
def joinKinds (target : TypeKind) (other : TypeDecl) : TypeKind :=
  match target with
  | .classDecl none => .classDecl other.superclass?
  | kind => kind

/-- Merges what two declarations say about the type itself. -/
def mergeTop (target : DeclId) (other : TypeDecl) : Graph.Edit Unit := do
  let d ← Graph.look (·.type target)
  Graph.setDecl target (.type
    { d with kind := joinKinds d.kind other, header := joinHeaders d.header other.header })

/-- Merges a conformance. -/
def mergeConformance (target id : DeclId) : Graph.Edit Unit := do
  let c ← Graph.look (·.conformance id)
  let existing ← Graph.look (findMember · target (·.conformances) fun d =>
    d.conformance?.any (·.name == c.name))
  relocate id target existing.isSome

/-- A property with the nullability and the attributes of another one. -/
def joinProperties (kept other : PropertyDecl) : PropertyDecl :=
  { kept with
    storage.type := kept.storage.type.takeNullability other.storage.type
    attributes := other.attributes.foldl
      (fun words word => if words.contains word then words else words ++ [word]) kept.attributes }

/-- Merges a property. -/
def mergeProperty (target id : DeclId) : Graph.Edit Unit := do
  let p ← Graph.look (·.property id)
  let existing ← Graph.look (findMember · target (·.properties) fun d =>
    d.property?.any fun q => q.name == p.name && q.isStatic == p.isStatic)
  if let some kept := existing then
    let q ← Graph.look (·.property kept)
    Graph.setDecl kept (.property (joinProperties q p))
  relocate id target existing.isSome

/-- Merges an instance variable. -/
def mergeIvar (target id : DeclId) : Graph.Edit Unit := do
  let v ← Graph.look (·.ivar id)
  let existing ← Graph.look (findMember · target (·.ivars) fun d => d.ivar?.any (·.name == v.name))
  relocate id target existing.isSome

/-- A method with the nullability of another one, and its body if it has none. -/
def joinMethods (kept other : MethodDecl) : MethodDecl :=
  { kept with
    signature := kept.signature.takeNullability other.signature
    code := kept.code.or other.code }

/-- Merges a method. -/
def mergeMethod (target id : DeclId) : Graph.Edit Unit := do
  let m ← Graph.look (·.method id)
  let existing ← Graph.look (findMember · target (·.methods) fun d =>
    d.method?.any (·.signature.sameMethod m.signature))
  if let some kept := existing then
    let n ← Graph.look (·.method kept)
    Graph.setDecl kept (.method (joinMethods n m))
  relocate id target existing.isSome

/-- Merges a declaration of a type into another one. -/
def mergeType (target source : DeclId) : Graph.Edit Unit := do
  let other ← Graph.look (·.type source)
  mergeTop target other
  -- These are the lists as they were: each member leaves the source when it is merged.
  other.conformances.forM (mergeConformance target)
  other.properties.forM (mergeProperty target)
  other.ivars.forM (mergeIvar target)
  other.methods.forM (mergeMethod target)
  discard (Graph.remove source)

/-- Merges the declarations of one type, and says whether there was more than one. -/
def mergeGroup : List DeclId → Graph.Edit Bool
  | first :: second :: rest => do
    let target ← Graph.look (target · first (second :: rest))
    let others := (first :: second :: rest).filter (· ≠ target)
    others.forM (mergeType target)
    return !others.isEmpty
  | _ => return false

/-- Removes a file if it is a header with nothing in it, and says whether it was. -/
def dropEmptyHeader (id : DeclId) : Graph.Edit Bool := do
  let file ← Graph.look (·.file id)
  if file.isHeader && file.isEmpty then
    discard (Graph.remove id)
    return true
  else return false

/-- Merges the declarations of each type, and says whether anything changed. -/
def mergeAll : Graph.Edit Bool := do
  let merged ← (← Graph.look mergeGroups).mapM mergeGroup
  let dropped ← (← get).files.mapM dropEmptyHeader
  return merged.any id || dropped.any id

end TypeMerge

end ObjcSwift
