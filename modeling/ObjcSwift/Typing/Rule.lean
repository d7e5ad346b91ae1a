import ObjcSwift.Swift.Expr
import ObjcSwift.Typing.Catalog

/-!
# Typing rules

The type of each form of expression, given the types of its parts. A rule that does not apply gives
the unknown type, and rules accept unknown parts, so an unknown part never stops the rest.
-/

namespace ObjcSwift

/-! ### Looking through optionals -/

namespace SwiftType

/-- The type without an outermost `!`. -/
def withoutImplicit : SwiftType → SwiftType
  | implicitlyUnwrapped inner => inner
  | t => t

/-- The type that a suffix is applied to after its receiver was unwrapped, and whether the result
becomes optional: only a layer `?` that is not forced open makes it so. -/
def opened (t : SwiftType) (unwrap : Unwrap) : SwiftType × Bool :=
  match t, unwrap with
  | implicitlyUnwrapped inner, _ => (inner, false)
  | optional inner, .force => (inner, false)
  | optional inner, _ => (inner, true)
  | t, _ => (t, false)

/-- A result under one optional layer, if it has to become optional and is known and not optional
yet. -/
def chained (t : SwiftType) (becomes : Bool) : SwiftType :=
  match t with
  | optional inner => optional inner
  | t => if becomes && !t.isUnknown then optional t.base else t

/-! ### Numbers -/

/-- How wide a numeric type is: in arithmetic the wider type wins. -/
def numericRank? (t : SwiftType) : Option Nat := do
  match ← t.name? with
  | "Int8" | "UInt8" | "CChar" => some 1
  | "Int16" | "UInt16" => some 2
  | "Int32" | "UInt32" => some 3
  | "Int" | "UInt" | "Int64" | "UInt64" => some 4
  | "Float" => some 5
  | "CGFloat" => some 6
  | "Double" | "TimeInterval" => some 7
  | _ => none

/-- Whether this is a numeric type, possibly under `!`. -/
def isNumeric (t : SwiftType) : Bool :=
  t.withoutImplicit.numericRank?.isSome

/-- Whether this is an integer type. -/
def isInteger (t : SwiftType) : Bool :=
  t.numericRank?.any (· ≤ 4)

/-! ### Collections -/

/-- The type that all of several types are, if it is known and there is one. -/
def common? : List SwiftType → Option SwiftType
  | [] => none
  | t :: ts => if t.isUnknown || ts.any (· != t) then none else some t

/-- The type of the elements of a sequence. -/
def sequenceElement (t : SwiftType) : SwiftType :=
  match t.base with
  | generic name [element] =>
    if ["Array", "Set", "Range", "ClosedRange"].contains name then element else unknown
  | generic name [key, value] => if name == "Dictionary" then tuple [key, value] else unknown
  | _ => unknown

/-- The type of an array literal with elements of some types, where an element type may be
expected. -/
def ofArrayLiteral (elements : List SwiftType) (expected : Option SwiftType) : SwiftType :=
  array (((common? elements).or expected).getD any)

/-- The type of a dictionary literal with keys and values of some types, where the two types may be
expected. -/
def ofDictionaryLiteral (keys values : List SwiftType) (expected : Option (SwiftType × SwiftType)) :
    SwiftType :=
  match common? keys, common? values, expected with
  | some key, some value, _ => dictionary key value
  | _, _, some (key, value) => dictionary key value
  | _, _, none => dictionary (named "AnyHashable") any

/-! ### Calls -/

/-- The type that calling a value gives. -/
def callResult (callee : SwiftType) : SwiftType :=
  match callee.withoutImplicit.blockSignature? with
  | some (result, _) => result
  | none => unknown

/-- The types that the arguments of a call of a value are expected to have. -/
def callParameters (callee : SwiftType) : List SwiftType :=
  match callee.blockSignature? with
  | some (_, parameters) => parameters
  | none => []

/-- The type of a ternary expression, from its branches and whether they are `nil`. -/
def ofBranches (ifTrue ifFalse : SwiftType) (trueIsNil falseIsNil : Bool) : SwiftType :=
  if trueIsNil && !ifFalse.isUnknown then optional ifFalse.base
  else if falseIsNil && !ifTrue.isUnknown then optional ifTrue.base
  else if ifTrue = ifFalse then ifTrue
  else unknown

end SwiftType

/-- The first method whose labels are those of a call. -/
def overload? (candidates : List Member) (arguments : List Argument) : Option Signature :=
  (candidates.filterMap Member.signature?).find? (·.acceptsLabels (arguments.map (·.label)))

/-! ### Literals and operators -/

/-- The type of a literal; `nil` takes an optional type that is expected. -/
def Constant.type (expected : Option SwiftType) : Constant → SwiftType
  | int _ | binary _ | octal _ | hexadecimal _ => .int
  | float _ => .named "Float"
  | boolean _ => .bool
  | string _ => .string
  | nil =>
    match expected with
    | some t => if t.isOptional then t else .optional .anyObject
    | none => .optional .anyObject
  | raw _ => .unknown

namespace Operator

/-- The type of an operator before an operand. -/
def unaryType (op : Operator) (operand : SwiftType) : SwiftType :=
  match op with
  | negate => .bool
  | add | subtract | bitwiseNot => if operand.isNumeric then operand.withoutImplicit else .unknown
  | _ => .unknown

/-- The type of an arithmetic operator between operands. -/
def arithmeticType (op : Operator) (lhs rhs : SwiftType) : SwiftType :=
  let lhs := lhs.withoutImplicit
  let rhs := rhs.withoutImplicit
  match lhs.numericRank?, rhs.numericRank? with
  | some left, some right => if left < right then rhs else lhs
  | _, _ => if op = .add && lhs == rhs && lhs == .string then lhs else .unknown

/-- The type of a bitwise operator between operands: both integers of one type, except that the
distance of a shift may be of any type. -/
def bitwiseType (op : Operator) (lhs rhs : SwiftType) : SwiftType :=
  let lhs := lhs.withoutImplicit
  if lhs.isInteger && (lhs == rhs.withoutImplicit || op = .shiftLeft || op = .shiftRight) then lhs
  else .unknown

/-- The type of `??` between operands: their common base under the layers of the right one. -/
def coalescedType (lhs rhs : SwiftType) : SwiftType :=
  if lhs.isUnknown || rhs.isUnknown || lhs.base != rhs.base then .unknown
  else lhs.withLayersOf rhs

/-- The type of a range operator. -/
def rangeType (op : Operator) (lhs : SwiftType) : SwiftType :=
  let bound := lhs.withoutImplicit
  if bound.isUnknown then .unknown
  else .generic (if op = .closedRange then "ClosedRange" else "Range") [bound]

/-- The type of an operator between operands. -/
def binaryType (op : Operator) (lhs rhs : SwiftType) : SwiftType :=
  match op.category with
  | .comparison | .logical => .bool
  | .arithmetic => op.arithmeticType lhs rhs
  | .bitwise => op.bitwiseType lhs rhs
  | .nullCoalesce => coalescedType lhs rhs
  | .range => op.rangeType lhs
  | .assignment => .unknown

end Operator

end ObjcSwift
