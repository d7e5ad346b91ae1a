import ObjcSwift.Typing.Catalog

/-!
# Looking up members

The **hierarchy** of a type is the chain of its supertypes followed by the protocols that can be
reached from the chain, nearest first, each once. Members and subscripts are searched along it.

Both searches keep the types that were not seen yet: a name that is not among them is unknown or was
seen, and either way there is nothing to do. So they end on every catalogue, rings of supertypes or
conformances included.
-/

namespace ObjcSwift

/-- Types without those of a name. -/
def withoutName (name : String) (types : List KnownType) : List KnownType :=
  types.filter (·.name != name)

/-- Leaving out the name of a found type leaves fewer types. -/
theorem length_withoutName_lt {types : List KnownType} {name : String} {t : KnownType}
    (h : types.find? (·.name == name) = some t) :
    (withoutName name types).length < types.length := by
  have hmem := List.mem_of_find?_eq_some h
  have hname := List.find?_some h
  refine List.length_filter_lt_length_iff_exists.2 ⟨t, hmem, ?_⟩
  simpa using hname

/-- The chain of supertypes from a name on, and the types not in it. -/
def superChain (unseen : List KnownType) (name : String) : List KnownType × List KnownType :=
  match _h : unseen.find? (·.name == name) with
  | none => ([], unseen)
  | some t =>
    match t.supertype with
    | none => ([t], withoutName name unseen)
    | some supertype =>
      let (chain, rest) := superChain (withoutName name unseen) supertype
      (t :: chain, rest)
termination_by unseen.length
decreasing_by exact length_withoutName_lt (by assumption)

/-- The types reachable from the queued names through conformances, breadth first. -/
def conformanceClosure (unseen : List KnownType) : (queue : List String) → List KnownType
  | [] => []
  | name :: queue =>
    match _h : unseen.find? (·.name == name) with
    | none => conformanceClosure unseen queue
    | some t => t :: conformanceClosure (withoutName name unseen) (queue ++ t.conformances)
termination_by queue => (unseen.length, queue.length)
decreasing_by
  · exact Prod.Lex.right _ (by simp)
  · exact Prod.Lex.left _ _ (length_withoutName_lt (by assumption))

/-! ### Substituting generic parameters -/

section Substitute

/-- What generic parameters stand for; of several entries for a name the last counts. -/
abbrev Substitution := List (String × SwiftType)

/-- The type that a name stands for. -/
def Substitution.get (s : Substitution) (name : String) : SwiftType :=
  (List.lookup name s.reverse).getD (.named name)

variable (s : Substitution)

mutual

/-- A type with its generic parameters replaced. -/
def SwiftType.substitute : SwiftType → SwiftType
  | .named name => s.get name
  | .generic name parameters => .generic name (substituteAll parameters)
  | .composition members => .composition (substituteAll members)
  | .tuple members => .tuple (substituteAll members)
  | .block result parameters => .block (substitute result) (substituteAll parameters)
  | .optional inner => .optional (substitute inner)
  | .implicitlyUnwrapped inner => .implicitlyUnwrapped (substitute inner)
  | .metatype inner => .metatype (substitute inner)
  | .nested parts => .nested (substituteAll parts)

/-- Several types with their generic parameters replaced. -/
def SwiftType.substituteAll : List SwiftType → List SwiftType
  | [] => []
  | t :: ts => substitute t :: substituteAll ts

end

/-- A signature with its generic parameters replaced. -/
def Signature.substitute (f : Signature) : Signature :=
  { f with
    parameters := f.parameters.map fun p => { p with type := p.type.substitute s }
    result := f.result.substitute s }

/-- A member with its generic parameters replaced. -/
def Member.substitute : Member → Member
  | .property name type isStatic => .property name (type.substitute s) isStatic
  | .field name type => .field name (type.substitute s)
  | .method signature => .method (signature.substitute s)

end Substitute

/-! ### Receivers -/

namespace SwiftType

mutual

/-- The names of the types in which members of a receiver are searched, with their arguments. An
object with protocols is searched in its protocols, a composition in its members, and a nested type
in its last part. -/
def receiverNames : SwiftType → List (String × List SwiftType)
  | named name => [(name, [])]
  | generic name parameters =>
    if name == "AnyObject" then receiverNamesAll parameters else [(name, parameters)]
  | composition members => receiverNamesAll members
  | nested parts => receiverNamesLast parts
  | _ => []

/-- The names for several receivers. -/
def receiverNamesAll : List SwiftType → List (String × List SwiftType)
  | [] => []
  | t :: ts => receiverNames t ++ receiverNamesAll ts

/-- The names for the last of several receivers. -/
def receiverNamesLast : List SwiftType → List (String × List SwiftType)
  | [] => []
  | [t] => receiverNames t
  | _ :: ts => receiverNamesLast ts

end

/-- The type in which members of a receiver are searched, and whether they belong to the type:
optional layers are ignored, and a metatype has the static members of its instance type. -/
def memberReceiver (isStatic : Bool) : SwiftType → SwiftType × Bool
  | optional inner | implicitlyUnwrapped inner => inner.memberReceiver isStatic
  | metatype inner => inner.memberReceiver true
  | t => (t, isStatic)

end SwiftType

namespace Catalog

/-- A type with its supertypes, then the protocols reachable from them. -/
def hierarchy (c : Catalog) (name : String) : List KnownType :=
  let (chain, rest) := superChain c.types name
  chain ++ conformanceClosure rest (chain.flatMap (·.conformances))

/-- Whether a type is another or inherits from it. -/
def isSubtype (c : Catalog) (name supertype : String) : Bool :=
  (c.hierarchy name).any (·.name == supertype)

/-- The known types in which members of a receiver are searched, each with what its generic
parameters stand for. -/
def searched (c : Catalog) (receiver : SwiftType) : List (KnownType × Substitution) :=
  receiver.receiverNames.flatMap fun (name, arguments) =>
    (c.hierarchy name).map fun t => (t, t.genericParameters.zip arguments)

/-- The members of a name on a receiver, nearest declarations first. -/
def members (c : Catalog) (receiver : SwiftType) (name : String) (isStatic : Bool) : List Member :=
  let (base, isStatic) := receiver.memberReceiver isStatic
  (c.searched base).flatMap fun (t, s) => (t.membersNamed name isStatic).map (·.substitute s)

/-- The nearest member of a name on a receiver. -/
def member? (c : Catalog) (receiver : SwiftType) (name : String) (isStatic : Bool) :
    Option Member :=
  (c.members receiver name isStatic).head?

/-- The type that subscripting a receiver gives. -/
def subscript? (c : Catalog) (receiver : SwiftType) : Option SwiftType :=
  let base := receiver.base
  match base.arrayElement?, base.dictionaryTypes? with
  | some element, _ => some element
  | none, some (_, value) => some (.optional value)
  | none, none =>
    (c.searched base).findSome? fun (t, s) => t.subscript.map fun sub => sub.element.substitute s

end Catalog

end ObjcSwift
