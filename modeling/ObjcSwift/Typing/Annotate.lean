import ObjcSwift.Typing.Scope

/-!
# Annotating bodies

Annotating a body gives every expression in it a type, and many of them the type that their
surroundings ask for. Types go from the inside out and from the left to the right: the receiver of a
suffix comes before the suffix, and the left operand before the right one, except that a `nil` takes
its type from the other operand.

A method call is annotated as a whole, because the labels of its arguments choose among the methods
of the name.

A place whose surroundings ask for nothing keeps what it was asked for before.
-/

namespace ObjcSwift

/-- The type that an expression was found to have. -/
def Expr.type (e : Expr) : SwiftType :=
  e.resolved.getD .unknown

/-- The name and type of a declared variable; a variable of unknown type takes that of its initial
value. -/
def Variable.entry (v : Variable) : String × SwiftType :=
  (v.name, if v.type.isUnknown then (v.initial.map (·.type)).getD v.type else v.type)

/-- The locals that an annotated statement adds for the statements after it. -/
def Stmt.entries : Stmt → List (String × SwiftType)
  | .locals declarations => declarations.map (·.entry)
  | _ => []

/-- What a variable asks of its initial value. -/
def Variable.asks (type : SwiftType) (before : Option SwiftType) : Option SwiftType :=
  if type.isUnknown then before else some type

/-- How a method call is understood: the types expected of its arguments, the type of the method,
and the type of the call. -/
structure CallTyping where
  /-- The types that the arguments are expected to have. -/
  parameters : List SwiftType
  /-- The type of the method. -/
  callee : SwiftType
  /-- The type of the call. -/
  result : SwiftType

/-- Understands the call of a named method on a target. -/
def Scope.callTyping (scope : Scope) (target : SwiftType) (memberUnwrap : Unwrap) (name : String)
    (callUnwrap : Unwrap) (arguments : List Argument) : CallTyping :=
  let (base, becomes) := target.opened memberUnwrap
  let candidates := scope.catalog.members base name false ++ scope.catalog.members base name true
  match overload? candidates arguments with
  | some signature =>
    let callee := signature.closureType.chained becomes
    ⟨signature.parameters.map (·.type), callee,
      signature.result.chained (becomes || (callee.opened callUnwrap).2)⟩
  | none =>
    let callee := ((candidates.head?.map Member.type).getD .unknown).chained becomes
    let (called, callBecomes) := callee.opened callUnwrap
    ⟨[], callee, called.callResult.chained (becomes || callBecomes)⟩

/-- The types expected of the arguments when a value is called, and the type of the call. Calling a
type makes an instance of it. -/
def Scope.valueCallTyping (scope : Scope) (callee : SwiftType) (arguments : List Argument) :
    List SwiftType × SwiftType :=
  match callee with
  | .metatype made =>
    let initializers := scope.catalog.members callee "init" true
    (((overload? initializers arguments).map fun s => s.parameters.map (·.type)).getD [], made)
  | callee => (callee.callParameters, callee.callResult)

mutual

/-- An expression with types, asked for a type or for none. -/
def Expr.annotate (scope : Scope) (asked : Option SwiftType) : Expr → Expr
  | ⟨shape, _, _, source⟩ =>
    let (shape, type) := shape.annotate scope asked
    ⟨shape, some type, asked, source⟩

/-- A shape with types, and the type of the expression. -/
def Shape.annotate (scope : Scope) (asked : Option SwiftType) : Shape → Shape × SwiftType
  | .identifier name => (.identifier name, scope.typeOf name)
  | .constant value => (.constant value, value.type asked)
  | .unary op operand =>
    let operand := operand.annotate scope (if op = .negate then some .bool else operand.expected)
    (.unary op operand, op.unaryType operand.type)
  | .binary lhs op rhs =>
    let asks (e : Expr) := if op.category = .logical then some .bool else e.expected
    -- A `nil` on the left is asked for the type of the right operand, so that one comes first.
    if lhs.isNil then
      let rhs := rhs.annotate scope (asks rhs)
      let lhs := lhs.annotate scope (some rhs.type)
      (.binary lhs op rhs, op.binaryType lhs.type rhs.type)
    else
      let lhs := lhs.annotate scope (asks lhs)
      let rhs := rhs.annotate scope
        (if rhs.isNil then some lhs.type
          else if op = .nullCoalesce && !lhs.type.isUnknown then some lhs.type.base
          else asks rhs)
      (.binary lhs op rhs, op.binaryType lhs.type rhs.type)
  | .ternary condition ifTrue ifFalse =>
    let condition := condition.annotate scope (some .bool)
    let ifTrue := ifTrue.annotate scope asked
    let ifFalse := ifFalse.annotate scope asked
    (.ternary condition ifTrue ifFalse,
      .ofBranches ifTrue.type ifFalse.type ifTrue.isNil ifFalse.isNil)
  | .assignment lhs op rhs =>
    let lhs := lhs.annotate scope lhs.expected
    let rhs := rhs.annotate scope (if lhs.type.isUnknown then rhs.expected else some lhs.type)
    (.assignment lhs op rhs, .void)
  | .suffixed ⟨.suffixed target memberUnwrap (.member name), _, calleeAsked, source⟩ unwrap
      (.call arguments) =>
    let target := target.annotate scope target.expected
    let typing := scope.callTyping target.type memberUnwrap name unwrap arguments
    let arguments := argumentsAnnotate scope typing.parameters arguments
    let callee :=
      ⟨.suffixed target memberUnwrap (.member name), some typing.callee, calleeAsked, source⟩
    (.suffixed callee unwrap (.call arguments), typing.result)
  | .suffixed receiver unwrap suffix =>
    let receiver := receiver.annotate scope receiver.expected
    let (base, becomes) := receiver.type.opened unwrap
    let (suffix, type) := suffix.annotate scope base
    (.suffixed receiver unwrap suffix, type.chained becomes)
  | .cast expression target =>
    (.cast (expression.annotate scope expression.expected) target, .optional target)
  | .sizeOfValue expression =>
    (.sizeOfValue (expression.annotate scope expression.expected), .int)
  | .sizeOfType type => (.sizeOfType type, .int)
  | .parens inner =>
    let inner := inner.annotate scope asked
    (.parens inner, inner.type)
  | .arrayLiteral elements =>
    let element := asked.bind fun t => t.base.arrayElement?
    let elements := exprsAnnotate scope element elements
    (.arrayLiteral elements, .ofArrayLiteral (elements.map (·.type)) element)
  | .dictionaryLiteral entries =>
    let entries := entriesAnnotate scope entries
    (.dictionaryLiteral entries, .ofDictionaryLiteral (entries.map (·.key.type))
      (entries.map (·.value.type)) (asked.bind fun t => t.base.dictionaryTypes?))
  | .block parameters result body =>
    (.block parameters result (bodyAnnotate (scope.enterBlock parameters result) body),
      .block result (parameters.map (·.type)))
  | .unknown text => (.unknown text, .unknown)

/-- A suffix with types, applied to a receiver that was unwrapped, and the type of the result. -/
def Suffix.annotate (scope : Scope) (base : SwiftType) : Suffix → Suffix × SwiftType
  | .member name =>
    (.member name, ((scope.catalog.member? base name base.isMetatype).map (·.type)).getD .unknown)
  | .call arguments =>
    let (parameters, result) := scope.valueCallTyping base arguments
    (.call (argumentsAnnotate scope parameters arguments), result)
  | .subscript index =>
    (.subscript (index.annotate scope index.expected),
      (scope.catalog.subscript? base).getD .unknown)

/-- Several expressions with types, all asked for the same. -/
def exprsAnnotate (scope : Scope) (asked : Option SwiftType) : List Expr → List Expr
  | [] => []
  | e :: es => e.annotate scope asked :: exprsAnnotate scope asked es

/-- Arguments with types, asked for the types of the parameters as far as there are any. -/
def argumentsAnnotate (scope : Scope) : List SwiftType → List Argument → List Argument
  | _, [] => []
  | parameters, ⟨label, value⟩ :: rest =>
    ⟨label, value.annotate scope (parameters.head?.or value.expected)⟩ ::
      argumentsAnnotate scope parameters.tail rest

/-- Dictionary entries with types. -/
def entriesAnnotate (scope : Scope) : List Entry → List Entry
  | [] => []
  | ⟨key, value⟩ :: rest =>
    ⟨key.annotate scope key.expected, value.annotate scope value.expected⟩ ::
      entriesAnnotate scope rest

/-- A body with types; a statement sees the locals of those before it. -/
def bodyAnnotate (scope : Scope) : List Stmt → List Stmt
  | [] => []
  | s :: ss =>
    let s := s.annotate scope
    s :: bodyAnnotate (scope.defineAll s.entries) ss

/-- Variable declarations with types; a declaration sees those before it. -/
def variablesAnnotate (scope : Scope) : List Variable → List Variable
  | [] => []
  | ⟨name, type, initial, constant⟩ :: rest =>
    let declared : Variable := ⟨name, type, match initial with
      | none => none
      | some e => some (e.annotate scope (Variable.asks type e.expected)), constant⟩
    declared :: variablesAnnotate (scope.define declared.entry) rest

/-- A statement with types. -/
def Stmt.annotate (scope : Scope) : Stmt → Stmt
  | .compound body => .compound (bodyAnnotate scope body)
  | .branch condition body otherwise =>
    .branch (condition.annotate scope (some .bool)) (bodyAnnotate scope body)
      (match otherwise with
        | none => none
        | some otherwise => some (bodyAnnotate scope otherwise))
  | .whileLoop condition body =>
    .whileLoop (condition.annotate scope (some .bool)) (bodyAnnotate scope body)
  | .repeatLoop body condition =>
    .repeatLoop (bodyAnnotate scope body) (condition.annotate scope (some .bool))
  | .forIn binding sequence body =>
    let sequence := sequence.annotate scope sequence.expected
    .forIn binding sequence
      (bodyAnnotate (scope.define (binding, sequence.type.sequenceElement)) body)
  | .return none => .return none
  | .return (some value) => .return (some (value.annotate scope scope.context.result))
  | .expressions values => .expressions (ownAnnotate scope values)
  | .locals declarations => .locals (variablesAnnotate scope declarations)
  | .break => .break
  | .continue => .continue
  | .unknown source => .unknown source

/-- Several expressions with types, each asked for what it was asked for before. -/
def ownAnnotate (scope : Scope) : List Expr → List Expr
  | [] => []
  | e :: es => e.annotate scope e.expected :: ownAnnotate scope es

end

/-- A body with types, in a context. -/
def Body.annotate (catalog : Catalog) (context : BodyContext) (body : Body) : Body :=
  bodyAnnotate (.start catalog context) body

/-- An expression with types, in a context. -/
def Expr.annotateIn (catalog : Catalog) (context : BodyContext) (asked : Option SwiftType)
    (e : Expr) : Expr :=
  e.annotate (.start catalog context) asked

end ObjcSwift
