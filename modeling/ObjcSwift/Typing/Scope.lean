import ObjcSwift.Typing.Lookup
import ObjcSwift.Typing.Rule

/-!
# Scopes

What a name means at some place of a body: first the locals, the innermost first, then `self` and
`super`, then the members of the surrounding type, then globals, and last the name of a type.
-/

namespace ObjcSwift

/-- What is known about a body from its surroundings. -/
structure BodyContext where
  /-- The type that the body stands in. -/
  selfType : Option SwiftType := none
  /-- The superclass of that type. -/
  superclass : Option SwiftType := none
  /-- Whether the body belongs to the type rather than to its instances. -/
  isStatic : Bool := false
  /-- The parameters; of several of one name the last counts. -/
  parameters : List (String × SwiftType) := []
  /-- The type that is to be returned. -/
  result : Option SwiftType := none
deriving DecidableEq

/-- What names mean at some place of a body. -/
structure Scope where
  /-- The known types and globals. -/
  catalog : Catalog
  /-- The surroundings of the body. -/
  context : BodyContext
  /-- The locals, the innermost and latest first. -/
  locals : List (String × SwiftType)

namespace Scope

/-- The scope at the start of a body. -/
def start (catalog : Catalog) (context : BodyContext) : Scope :=
  ⟨catalog, context, context.parameters.reverse⟩

/-- A scope with one more local. -/
def define (scope : Scope) (entry : String × SwiftType) : Scope :=
  { scope with locals := entry :: scope.locals }

/-- A scope with the locals that a statement declares. -/
def defineAll (scope : Scope) (entries : List (String × SwiftType)) : Scope :=
  entries.foldl define scope

/-- The scope of the body of a block expression. -/
def enterBlock (scope : Scope) (parameters : List BlockParameter) (result : SwiftType) : Scope :=
  defineAll { scope with context.result := some result } (parameters.map fun p => (p.name, p.type))

/-- The type of `self` or `super`. -/
def special? (scope : Scope) (name : String) : Option SwiftType :=
  if name == "self" then
    scope.context.selfType.map fun t => if scope.context.isStatic then .metatype t else t
  else if name == "super" then scope.context.superclass
  else none

/-- The type of a member of the surrounding type. -/
def ownMember? (scope : Scope) (name : String) : Option SwiftType := do
  let selfType ← scope.context.selfType
  let member ← scope.catalog.member? selfType name scope.context.isStatic
  return member.type

/-- The type that a name has. -/
def typeOf (scope : Scope) (name : String) : SwiftType :=
  ((scope.locals.lookup name)
    |>.or (scope.special? name)
    |>.or (scope.ownMember? name)
    |>.or ((scope.catalog.global? name).map (·.type))
    |>.or ((scope.catalog.type? name).map fun _ => .metatype (.named name))).getD .unknown

end Scope

end ObjcSwift
