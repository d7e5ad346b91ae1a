import ObjcSwift.Swift.Expr.SameShape
import ObjcSwift.Swift.Expr.Walk
import ObjcSwift.Swift.SuffixChain

/-!
# Patterns

A **pattern** decides whether a value is of some form. Patterns are built from tests on one node and
combined with Boolean operations. The two patterns that matter most are

* `Pattern.nilCheck`: a condition that holds when its subject is there (`x != nil`, `nil != x`, or
  `x` itself), and
* `Pattern.nilCompare`: one that holds when its subject is missing (`x == nil`, `nil == x`, `!x`);

both see through parentheses.
-/

namespace ObjcSwift

/-- A test on values. -/
abbrev Pattern (α : Type) := α → Bool

namespace Pattern

variable {α : Type}

/-! ### Combinations -/

/-- Every value. -/
def any : Pattern α :=
  fun _ => true

/-- No value. -/
def never : Pattern α :=
  fun _ => false

/-- The values of both forms. -/
def and (p q : Pattern α) : Pattern α :=
  fun a => p a && q a

/-- The values of either form. -/
def or (p q : Pattern α) : Pattern α :=
  fun a => p a || q a

/-- The values that are not of the form. -/
def not (p : Pattern α) : Pattern α :=
  fun a => !p a

/-- The values of every form in a list. -/
def all (ps : List (Pattern α)) : Pattern α :=
  fun a => ps.all (· a)

/-- The values of some form in a list. -/
def anyOf (ps : List (Pattern α)) : Pattern α :=
  fun a => ps.any (· a)

/-- The lists with one value for each pattern, of its form. -/
def elements (ps : List (Pattern α)) : Pattern (List α) :=
  fun as => as.length == ps.length && (as.zip ps).all fun (a, p) => p a

/-! ### Expressions -/

/-- The given name. -/
def identifier (name : String) : Pattern Expr :=
  fun e => e.identifier? == some name

/-- Any name. -/
def anyIdentifier : Pattern Expr :=
  fun e => e.identifier?.isSome

/-- The given literal. -/
def constant (value : Constant) : Pattern Expr :=
  fun e => e.constant?.any (·.same value)

/-- `nil` -/
def nil : Pattern Expr :=
  fun e => e.isNil

/-- Any block expression. -/
def anyBlock : Pattern Expr :=
  fun e => e.isBlock

/-- The expressions of the same shape as the given one. -/
def equals (expression : Expr) : Pattern Expr :=
  fun e => e.sameShape expression

/-- An operator before an operand. -/
def unary (op : Operator) (operand : Pattern Expr) : Pattern Expr :=
  fun e => match e.shape with
    | .unary o a => o == op && operand a
    | _ => false

/-- An operator between operands. -/
def binary (lhs : Pattern Expr) (op : Operator) (rhs : Pattern Expr) : Pattern Expr :=
  fun e => match e.shape with
    | .binary a o b => o == op && lhs a && rhs b
    | _ => false

/-- An assignment. -/
def assignment (lhs : Pattern Expr) (op : Operator) (rhs : Pattern Expr) : Pattern Expr :=
  fun e => match e.shape with
    | .assignment a o b => o == op && lhs a && rhs b
    | _ => false

/-- A suffix on a receiver, however the receiver is unwrapped. -/
def suffixed (receiver : Pattern Expr) (suffix : Pattern Suffix) : Pattern Expr :=
  fun e => match e.shape with
    | .suffixed a _ s => receiver a && suffix s
    | _ => false

/-- The expressions that are of the form once parentheses around them are dropped. -/
def ignoringParens (p : Pattern Expr) : Pattern Expr :=
  fun e => p e.unparenthesized

/-- Whether a slot holds the given type, possibly without regard to optional layers. -/
def slotIs (type : SwiftType) (ignoreLayers : Bool) : Option SwiftType → Bool
  | some actual => if ignoreLayers then actual.base == type.base else actual == type
  | none => false

/-- The expressions found to have a type. -/
def resolved (type : SwiftType) (ignoreLayers : Bool) : Pattern Expr :=
  fun e => slotIs type ignoreLayers e.resolved

/-- The expressions that are expected to have a type. -/
def expected (type : SwiftType) (ignoreLayers : Bool) : Pattern Expr :=
  fun e => slotIs type ignoreLayers e.expected

/-- The conditions that hold when the subject is there. -/
def nilCheck (subject : Pattern Expr) : Pattern Expr :=
  ignoringParens (or (or (binary subject .unequals nil) (binary nil .unequals subject)) subject)

/-- The conditions that hold when the subject is missing. -/
def nilCompare (subject : Pattern Expr) : Pattern Expr :=
  ignoringParens
    (or (or (binary subject .equals nil) (binary nil .equals subject))
      (unary .negate (ignoringParens subject)))

/-- The expressions in which some expression is of the form, themselves included. -/
def findAny (p : Pattern Expr) (blocks : Bool) : Pattern Expr :=
  fun e => ((e.preorder blocks).filterMap SyntaxNode.expr?).any p

/-- The suffix expressions whose chain is of the form. -/
def chain (p : Pattern SuffixChain) : Pattern Expr :=
  fun e => e.isSuffixed && p (SuffixChain.ofExpr e)

/-! ### Suffixes and arguments -/

/-- The member access of a name. -/
def member (name : String) : Pattern Suffix :=
  fun s => s.member? == some name

/-- Any member access. -/
def anyMember : Pattern Suffix :=
  fun s => s.member?.isSome

/-- A call with arguments of the given forms. -/
def call (arguments : List (Pattern Argument)) : Pattern Suffix :=
  fun s => s.arguments?.any (elements arguments)

/-- Any call. -/
def anyCall : Pattern Suffix :=
  fun s => s.arguments?.isSome

/-- A subscript with an index of the given form. -/
def subscript (index : Pattern Expr) : Pattern Suffix :=
  fun s => s.index?.any index

/-- An argument without label. -/
def unlabeled (value : Pattern Expr) : Pattern Argument :=
  fun a => a.label.isNone && value a.value

/-- An argument with the given label. -/
def labeled (label : String) (value : Pattern Expr) : Pattern Argument :=
  fun a => a.label == some label && value a.value

/-! ### Chains -/

/-- The chains with a root of the form. -/
def root (p : Pattern Expr) : Pattern SuffixChain :=
  fun c => p c.root

/-- The chains with so many entries. -/
def entryCount (count : Nat) : Pattern SuffixChain :=
  fun c => c.entries.length == count

/-- The chains whose entry at a position, counted from one, is of the form. -/
def entry (position : Nat) (p : Pattern ChainEntry) : Pattern SuffixChain :=
  fun c => (c.entryAt? position).any p

/-- The chains with entries of the given forms. -/
def entries (ps : List (Pattern ChainEntry)) : Pattern SuffixChain :=
  fun c => elements ps c.entries

/-- An entry that accesses or calls the member of a name. -/
def memberNamed (name : String) : Pattern ChainEntry :=
  fun entry => entry.memberName? == some name

/-- A method call whose name is of the form, with any arguments. -/
def methodWhere (p : Pattern String) : Pattern ChainEntry :=
  fun entry => match entry.operation with
    | .method name _ _ => p name
    | _ => false

/-- The method call of a name with arguments of the given forms. -/
def method (name : String) (arguments : List (Pattern Argument)) : Pattern ChainEntry :=
  fun entry => match entry.operation with
    | .method n args _ => n == name && elements arguments args
    | _ => false

end Pattern

end ObjcSwift
