import ObjcSwift.Json.Record

/-!
# Operators

The operators of unary, binary and assignment expressions, with their spelling and their
**precedence**: of two operators the one of higher precedence binds tighter when an expression is
written.
-/

namespace ObjcSwift

/-- A Swift operator. -/
inductive Operator
  /-- `+` -/
  | add
  /-- `-` -/
  | subtract
  /-- `*` -/
  | multiply
  /-- `/` -/
  | divide
  /-- `%` -/
  | mod
  /-- `+=` -/
  | addAssign
  /-- `-=` -/
  | subtractAssign
  /-- `*=` -/
  | multiplyAssign
  /-- `/=` -/
  | divideAssign
  /-- `%=` -/
  | modAssign
  /-- `&=` -/
  | bitwiseAndAssign
  /-- `|=` -/
  | bitwiseOrAssign
  /-- `^=` -/
  | bitwiseXorAssign
  /-- `<<=` -/
  | shiftLeftAssign
  /-- `>>=` -/
  | shiftRightAssign
  /-- `=` -/
  | assign
  /-- `!` -/
  | negate
  /-- `&&` -/
  | and
  /-- `||` -/
  | or
  /-- `&` -/
  | bitwiseAnd
  /-- `|` -/
  | bitwiseOr
  /-- `^` -/
  | bitwiseXor
  /-- `~` -/
  | bitwiseNot
  /-- `<<` -/
  | shiftLeft
  /-- `>>` -/
  | shiftRight
  /-- `==` -/
  | equals
  /-- `!=` -/
  | unequals
  /-- `===` -/
  | identical
  /-- `!==` -/
  | notIdentical
  /-- `<` -/
  | lessThan
  /-- `<=` -/
  | lessThanOrEqual
  /-- `>` -/
  | greaterThan
  /-- `>=` -/
  | greaterThanOrEqual
  /-- `??` -/
  | nullCoalesce
  /-- `..<` -/
  | openRange
  /-- `...` -/
  | closedRange
deriving DecidableEq

/-- The kinds of operator. -/
inductive OperatorCategory
  /-- `+ - * / %` -/
  | arithmetic
  /-- `! && ||` -/
  | logical
  /-- `& | ^ ~ << >>` -/
  | bitwise
  /-- Equality, identity and order. -/
  | comparison
  /-- `??` -/
  | nullCoalesce
  /-- `..< ...` -/
  | range
  /-- `=` and the compound assignments. -/
  | assignment
deriving DecidableEq

/-- The case name of a category. -/
def OperatorCategory.caseName : OperatorCategory → String
  | .arithmetic => "Arithmetic"
  | .logical => "Logical"
  | .bitwise => "Bitwise"
  | .comparison => "Comparison"
  | .nullCoalesce => "NullCoalesce"
  | .range => "Range"
  | .assignment => "Assignment"

namespace Operator

/-- The spelling of an operator in Swift. -/
def symbol : Operator → String
  | add => "+"
  | subtract => "-"
  | multiply => "*"
  | divide => "/"
  | mod => "%"
  | addAssign => "+="
  | subtractAssign => "-="
  | multiplyAssign => "*="
  | divideAssign => "/="
  | modAssign => "%="
  | bitwiseAndAssign => "&="
  | bitwiseOrAssign => "|="
  | bitwiseXorAssign => "^="
  | shiftLeftAssign => "<<="
  | shiftRightAssign => ">>="
  | assign => "="
  | negate => "!"
  | and => "&&"
  | or => "||"
  | bitwiseAnd => "&"
  | bitwiseOr => "|"
  | bitwiseXor => "^"
  | bitwiseNot => "~"
  | shiftLeft => "<<"
  | shiftRight => ">>"
  | equals => "=="
  | unequals => "!="
  | identical => "==="
  | notIdentical => "!=="
  | lessThan => "<"
  | lessThanOrEqual => "<="
  | greaterThan => ">"
  | greaterThanOrEqual => ">="
  | nullCoalesce => "??"
  | openRange => "..<"
  | closedRange => "..."

/-- The case name of an operator. -/
def caseName : Operator → String
  | add => "Add"
  | subtract => "Subtract"
  | multiply => "Multiply"
  | divide => "Divide"
  | mod => "Mod"
  | addAssign => "AddAssign"
  | subtractAssign => "SubtractAssign"
  | multiplyAssign => "MultiplyAssign"
  | divideAssign => "DivideAssign"
  | modAssign => "ModAssign"
  | bitwiseAndAssign => "BitwiseAndAssign"
  | bitwiseOrAssign => "BitwiseOrAssign"
  | bitwiseXorAssign => "BitwiseXorAssign"
  | shiftLeftAssign => "ShiftLeftAssign"
  | shiftRightAssign => "ShiftRightAssign"
  | assign => "Assign"
  | negate => "Negate"
  | and => "And"
  | or => "Or"
  | bitwiseAnd => "BitwiseAnd"
  | bitwiseOr => "BitwiseOr"
  | bitwiseXor => "BitwiseXor"
  | bitwiseNot => "BitwiseNot"
  | shiftLeft => "ShiftLeft"
  | shiftRight => "ShiftRight"
  | equals => "Equals"
  | unequals => "Unequals"
  | identical => "Identical"
  | notIdentical => "NotIdentical"
  | lessThan => "LessThan"
  | lessThanOrEqual => "LessThanOrEqual"
  | greaterThan => "GreaterThan"
  | greaterThanOrEqual => "GreaterThanOrEqual"
  | nullCoalesce => "NullCoalesce"
  | openRange => "OpenRange"
  | closedRange => "ClosedRange"

/-- Every operator. -/
def all : List Operator :=
  [.add, .subtract, .multiply, .divide, .mod, .addAssign, .subtractAssign, .multiplyAssign,
   .divideAssign, .modAssign, .bitwiseAndAssign, .bitwiseOrAssign, .bitwiseXorAssign,
   .shiftLeftAssign, .shiftRightAssign, .assign, .negate, .and, .or, .bitwiseAnd, .bitwiseOr,
   .bitwiseXor, .bitwiseNot, .shiftLeft, .shiftRight, .equals, .unequals, .identical,
   .notIdentical, .lessThan, .lessThanOrEqual, .greaterThan, .greaterThanOrEqual, .nullCoalesce,
   .openRange, .closedRange]

/-- Every operator is in the list of operators. -/
theorem mem_all (op : Operator) : op ∈ all := by
  cases op <;> decide

/-- The operator of a spelling. -/
def ofSymbol? (symbol : String) : Option Operator :=
  all.find? fun op => op.symbol == symbol

/-- The kind of an operator. -/
def category : Operator → OperatorCategory
  | add | subtract | multiply | divide | mod => .arithmetic
  | negate | and | or => .logical
  | bitwiseAnd | bitwiseOr | bitwiseXor | bitwiseNot | shiftLeft | shiftRight => .bitwise
  | equals | unequals | identical | notIdentical | lessThan | lessThanOrEqual | greaterThan |
    greaterThanOrEqual => .comparison
  | nullCoalesce => .nullCoalesce
  | openRange | closedRange => .range
  | addAssign | subtractAssign | multiplyAssign | divideAssign | modAssign | bitwiseAndAssign |
    bitwiseOrAssign | bitwiseXorAssign | shiftLeftAssign | shiftRightAssign |
    assign => .assignment

/-- How tightly an operator binds when it is written. -/
def precedence (op : Operator) : Nat :=
  match op.category with
  | .assignment => 1
  | .logical => if op = or then 2 else 3
  | .comparison => 4
  | .nullCoalesce => 5
  | .range => 6
  | .bitwise => if op = bitwiseOr ∨ op = bitwiseXor then 7 else 9
  | .arithmetic => if op = add ∨ op = subtract then 7 else 8

/-- The operator that a compound assignment applies. -/
def compoundBase? : Operator → Option Operator
  | addAssign => some add
  | subtractAssign => some subtract
  | multiplyAssign => some multiply
  | divideAssign => some divide
  | modAssign => some mod
  | bitwiseAndAssign => some bitwiseAnd
  | bitwiseOrAssign => some bitwiseOr
  | bitwiseXorAssign => some bitwiseXor
  | shiftLeftAssign => some shiftLeft
  | shiftRightAssign => some shiftRight
  | _ => none

/-- An operator as JSON. -/
def toJson (op : Operator) : Json :=
  .str op.caseName

/-- Reads an operator from a given form. -/
def ofJsonIn? (form : Json.PayloadForm) (j : Json) : Option Operator :=
  Json.enumOf (all.map fun op => (op.caseName, op)) j form

/-- Reads an operator. -/
def ofJson? (j : Json) : Option Operator :=
  ofJsonIn? .strict j

end Operator

end ObjcSwift
