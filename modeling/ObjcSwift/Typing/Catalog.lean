import ObjcSwift.Decl.Signature

/-!
# Catalogues of known declarations

A catalogue lists the types and globals that names can refer to. A name refers to the first entry
that bears it, so one catalogue can be laid over another by putting it in front.
-/

namespace ObjcSwift

/-- The kinds of known type. -/
inductive KnownKind
  /-- A class. -/
  | classType
  /-- A protocol. -/
  | protocolType
  /-- A structure. -/
  | structType
deriving DecidableEq

/-- A member of a known type. -/
inductive Member
  /-- A property. -/
  | property (name : String) (type : SwiftType) (isStatic : Bool)
  /-- An instance variable. -/
  | field (name : String) (type : SwiftType)
  /-- A method or initializer. -/
  | method (signature : Signature)
deriving DecidableEq

/-- What subscripting a value of a known type takes and gives. -/
structure KnownSubscript where
  /-- The type of the index. -/
  index : SwiftType
  /-- The type of the result. -/
  element : SwiftType
deriving DecidableEq

/-- A known type. -/
structure KnownType where
  /-- Its name. -/
  name : String
  /-- What it is. -/
  kind : KnownKind
  /-- The names of its generic parameters. -/
  genericParameters : List String := []
  /-- The name of its supertype. -/
  supertype : Option String := none
  /-- The names of the protocols it conforms to. -/
  conformances : List String := []
  /-- Its members. -/
  members : List Member := []
  /-- Its subscript. -/
  subscript : Option KnownSubscript := none
deriving DecidableEq

/-- A known global. -/
inductive KnownGlobal
  /-- A variable. -/
  | value (name : String) (type : SwiftType)
  /-- A function. -/
  | function (signature : Signature)
deriving DecidableEq

/-- The types and globals that names can refer to. -/
structure Catalog where
  /-- The types. -/
  types : List KnownType := []
  /-- The globals. -/
  globals : List KnownGlobal := []
deriving DecidableEq

namespace Member

/-- The name of a member. -/
def name : Member → String
  | property name _ _ | field name _ => name
  | method signature => signature.name

/-- Whether a member belongs to the type. -/
def isStatic : Member → Bool
  | property _ _ isStatic => isStatic
  | field _ _ => false
  | method signature => signature.isStatic

/-- The type of a member that is not called; a method is a closure. -/
def type : Member → SwiftType
  | property _ type _ | field _ type => type
  | method signature => signature.closureType

/-- The signature of a method. -/
def signature? : Member → Option Signature
  | method signature => some signature
  | _ => none

end Member

namespace KnownType

/-- The members of a name that belong to the type, or to its instances. -/
def membersNamed (t : KnownType) (name : String) (isStatic : Bool) : List Member :=
  t.members.filter fun m => m.name == name && m.isStatic == isStatic

/-- Names added to a list, each at its end unless it is in the list already. -/
def addNames (names : List String) : List String → List String
  | [] => names
  | n :: ns => addNames (if names.contains n then names else names ++ [n]) ns

/-- A type with another declaration of it folded in: its own supertype and subscript win, and
conformances and members are added. -/
def absorb (t other : KnownType) : KnownType :=
  { t with
    supertype := t.supertype.or other.supertype
    conformances := addNames t.conformances other.conformances
    members := t.members ++ other.members
    subscript := t.subscript.or other.subscript }

end KnownType

namespace KnownGlobal

/-- The name of a global. -/
def name : KnownGlobal → String
  | value name _ => name
  | function signature => signature.name

/-- The type of a global that is not called; a function is a closure. -/
def type : KnownGlobal → SwiftType
  | value _ type => type
  | function signature => signature.closureType

end KnownGlobal

namespace Catalog

/-- The type that a name refers to. -/
def type? (c : Catalog) (name : String) : Option KnownType :=
  c.types.find? (·.name == name)

/-- The global that a name refers to. -/
def global? (c : Catalog) (name : String) : Option KnownGlobal :=
  c.globals.find? (·.name == name)

/-- Types with one more, folded into the first of its name if there is one. -/
def insertType (t : KnownType) : List KnownType → List KnownType
  | [] => [t]
  | u :: us => if u.name == t.name then u.absorb t :: us else u :: insertType t us

/-- Globals with one more, in the place of the first of its name if there is one. -/
def insertGlobal (g : KnownGlobal) : List KnownGlobal → List KnownGlobal
  | [] => [g]
  | h :: hs => if h.name == g.name then g :: hs else h :: insertGlobal g hs

/-- A catalogue with one more type. -/
def addType (c : Catalog) (t : KnownType) : Catalog :=
  { c with types := insertType t c.types }

/-- A catalogue with one more global. -/
def addGlobal (c : Catalog) (g : KnownGlobal) : Catalog :=
  { c with globals := insertGlobal g c.globals }

/-- A catalogue with the entries of another: types are folded in, globals added unless their name is
taken. -/
def extend (c other : Catalog) : Catalog where
  types := other.types.foldl (fun types t => insertType t types) c.types
  globals := other.globals.foldl
    (fun globals g => if globals.any (·.name == g.name) then globals else globals ++ [g]) c.globals

/-- One catalogue over another: its entries hide those of the same name. -/
def layeredOn (c other : Catalog) : Catalog :=
  ⟨c.types ++ other.types, c.globals ++ other.globals⟩

end Catalog

end ObjcSwift
