import ObjcSwift.Swift.Constant
import ObjcSwift.Swift.Operator
import ObjcSwift.Swift.Span
import ObjcSwift.Swift.SwiftType

/-!
# Expressions and statements

The bodies of functions, as trees. An expression is a **shape** together with three **slots** beside
it: the type it was found to have, the type its surroundings ask for, and the source text it stands
for. Shapes hold expressions, and block expressions hold statements, so the two kinds of tree are
defined together.

A member access, a call and a subscript are all a **suffix** applied to a receiver, which may be
unwrapped first.
-/

namespace ObjcSwift

/-- How a receiver is unwrapped before a suffix is applied to it. -/
inductive Unwrap
  /-- Not at all: `a.b`. -/
  | none
  /-- Optional chaining: `a?.b`. -/
  | safe
  /-- Forced: `a!.b`. -/
  | force
deriving DecidableEq

/-- A parameter of a block expression. -/
structure BlockParameter where
  /-- The name it has in the body. -/
  name : String
  /-- Its type. -/
  type : SwiftType
deriving DecidableEq

mutual

/-- An expression. -/
structure Expr where
  /-- What it says. -/
  shape : Shape
  /-- The type it was found to have. -/
  resolved : Option SwiftType := .none
  /-- The type its surroundings ask for. -/
  expected : Option SwiftType := .none
  /-- The source text it stands for. -/
  source : Option SourceText := .none

/-- What an expression says, apart from its slots. -/
inductive Shape
  /-- A name. -/
  | identifier (name : String)
  /-- A literal. -/
  | constant (value : Constant)
  /-- An operator before its operand. -/
  | unary (op : Operator) (operand : Expr)
  /-- An operator between its operands. -/
  | binary (lhs : Expr) (op : Operator) (rhs : Expr)
  /-- `condition ? ifTrue : ifFalse` -/
  | ternary (condition ifTrue ifFalse : Expr)
  /-- An assignment, plain or compound. -/
  | assignment (lhs : Expr) (op : Operator) (rhs : Expr)
  /-- A suffix applied to a receiver. -/
  | suffixed (receiver : Expr) (unwrap : Unwrap) (suffix : Suffix)
  /-- `expression as? target` -/
  | cast (expression : Expr) (target : SwiftType)
  /-- The size of a value. -/
  | sizeOfValue (expression : Expr)
  /-- The size of a type. -/
  | sizeOfType (type : SwiftType)
  /-- An expression in parentheses. -/
  | parens (inner : Expr)
  /-- `[a, b]` -/
  | arrayLiteral (elements : List Expr)
  /-- `[k: v]` -/
  | dictionaryLiteral (entries : List Entry)
  /-- A closure. -/
  | block (parameters : List BlockParameter) (result : SwiftType) (body : List Stmt)
  /-- Source text that has no counterpart. -/
  | unknown (text : String)

/-- What is applied to a receiver. -/
inductive Suffix
  /-- `.name` -/
  | member (name : String)
  /-- `(arguments)` -/
  | call (arguments : List Argument)
  /-- `[index]` -/
  | subscript (index : Expr)

/-- An argument of a call. -/
structure Argument where
  /-- The label before it. -/
  label : Option String
  /-- Its value. -/
  value : Expr

/-- An entry of a dictionary literal. -/
structure Entry where
  /-- Its key. -/
  key : Expr
  /-- Its value. -/
  value : Expr

/-- A statement. A body is a list of statements. -/
inductive Stmt
  /-- A nested body. -/
  | compound (body : List Stmt)
  /-- `if`, with or without `else`. -/
  | branch (condition : Expr) (body : List Stmt) (otherwise : Option (List Stmt))
  /-- `while` -/
  | whileLoop (condition : Expr) (body : List Stmt)
  /-- `repeat … while` -/
  | repeatLoop (body : List Stmt) (condition : Expr)
  /-- `for binding in sequence` -/
  | forIn (binding : String) (sequence : Expr) (body : List Stmt)
  /-- `return`, with or without a value. -/
  | return (value : Option Expr)
  /-- Expressions evaluated one after the other. -/
  | expressions (values : List Expr)
  /-- Declarations of local variables. -/
  | locals (declarations : List Variable)
  /-- `break` -/
  | break
  /-- `continue` -/
  | continue
  /-- Source text that has no counterpart. -/
  | unknown (source : SourceText)

/-- The declaration of a local variable. -/
structure Variable where
  /-- Its name. -/
  name : String
  /-- Its type. -/
  type : SwiftType
  /-- Its initial value. -/
  initial : Option Expr
  /-- Whether it is declared with `let`. -/
  constant : Bool

end

/-- A list of statements: what a function, a block or a branch runs. -/
abbrev Body := List Stmt

namespace Unwrap

/-- What is written after the receiver. -/
def mark : Unwrap → String
  | none => ""
  | safe => "?"
  | force => "!"

/-- The case name. -/
def caseName : Unwrap → String
  | none => "None"
  | safe => "SafeUnwrap"
  | force => "ForceUnwrap"

/-- An unwrapping as JSON. -/
def toJson (u : Unwrap) : Json :=
  .str u.caseName

/-- Reads an unwrapping. -/
def ofJsonIn? (form : Json.PayloadForm) (j : Json) : Option Unwrap :=
  Json.enumOf ([none, safe, force].map fun u => (u.caseName, u)) j form

end Unwrap

namespace Suffix

/-- The name of a member access. -/
def member? : Suffix → Option String
  | member name => some name
  | _ => none

/-- The arguments of a call. -/
def arguments? : Suffix → Option (List Argument)
  | call arguments => some arguments
  | _ => none

/-- The index of a subscript. -/
def index? : Suffix → Option Expr
  | subscript index => some index
  | _ => none

/-- The expressions inside a suffix, in the order they are evaluated. -/
def subexpressions : Suffix → List Expr
  | member _ => []
  | call arguments => arguments.map (·.value)
  | subscript index => [index]

end Suffix

namespace Expr

/-! ### Building expressions -/

/-- A name. -/
def identifier (name : String) : Expr :=
  { shape := .identifier name }

/-- `nil` -/
def nil : Expr :=
  { shape := .constant .nil }

/-- The expression with a suffix applied to it. -/
def suffixed (receiver : Expr) (suffix : Suffix) : Expr :=
  { shape := .suffixed receiver .none suffix }

/-- `receiver.name` -/
def dot (receiver : Expr) (name : String) : Expr :=
  receiver.suffixed (.member name)

/-- `receiver(arguments)` -/
def call (receiver : Expr) (arguments : List Argument) : Expr :=
  receiver.suffixed (.call arguments)

/-- The same expression with its receiver unwrapped as given; only a suffix has a receiver. -/
def withUnwrap (e : Expr) (unwrap : Unwrap) : Expr :=
  match e.shape with
  | .suffixed receiver _ suffix => { e with shape := .suffixed receiver unwrap suffix }
  | _ => e

/-! ### Views -/

/-- The name that the expression is. -/
def identifier? (e : Expr) : Option String :=
  match e.shape with
  | .identifier name => some name
  | _ => none

/-- The literal that the expression is. -/
def constant? (e : Expr) : Option Constant :=
  match e.shape with
  | .constant value => some value
  | _ => none

/-- The receiver, its unwrapping and the suffix applied to it. -/
def suffix? (e : Expr) : Option (Expr × Unwrap × Suffix) :=
  match e.shape with
  | .suffixed receiver unwrap suffix => some (receiver, unwrap, suffix)
  | _ => none

/-- The parameters, result type and body of a block expression. -/
def block? (e : Expr) : Option (List BlockParameter × SwiftType × Body) :=
  match e.shape with
  | .block parameters result body => some (parameters, result, body)
  | _ => none

/-- Whether the expression is `nil`. -/
def isNil (e : Expr) : Bool :=
  match e.shape with
  | .constant .nil => true
  | _ => false

/-- Whether the expression applies a suffix. -/
def isSuffixed (e : Expr) : Bool :=
  e.suffix?.isSome

/-- Whether the expression is a block expression. -/
def isBlock (e : Expr) : Bool :=
  e.block?.isSome

/-- The expression inside any number of parentheses. -/
def unparenthesized : Expr → Expr
  | ⟨.parens inner, _, _, _⟩ => inner.unparenthesized
  | e => e

end Expr

/-- The expressions directly inside a shape, in the order they are evaluated. The body of a block
holds statements and is not among them. -/
def Shape.subexpressions : Shape → List Expr
  | .identifier _ | .constant _ | .unknown _ | .block _ _ _ | .sizeOfType _ => []
  | .sizeOfValue e | .parens e | .unary _ e | .cast e _ => [e]
  | .binary lhs _ rhs | .assignment lhs _ rhs => [lhs, rhs]
  | .ternary condition ifTrue ifFalse => [condition, ifTrue, ifFalse]
  | .suffixed receiver _ suffix => receiver :: suffix.subexpressions
  | .arrayLiteral elements => elements
  | .dictionaryLiteral entries => entries.flatMap fun entry => [entry.key, entry.value]

/-- The expressions directly inside an expression. -/
def Expr.subexpressions (e : Expr) : List Expr :=
  e.shape.subexpressions

namespace Stmt

/-- The expressions directly inside a statement; those in its bodies are not among them. -/
def subexpressions : Stmt → List Expr
  | branch condition _ _ | whileLoop condition _ | repeatLoop _ condition => [condition]
  | forIn _ sequence _ => [sequence]
  | .return value => value.toList
  | expressions values => values
  | locals declarations => declarations.filterMap (·.initial)
  | compound _ | .break | .continue | unknown _ => []

/-- The bodies directly inside a statement. -/
def bodies : Stmt → List Body
  | compound body | whileLoop _ body | repeatLoop body _ | forIn _ _ body => [body]
  | branch _ body otherwise => body :: otherwise.toList
  | _ => []

end Stmt

end ObjcSwift
