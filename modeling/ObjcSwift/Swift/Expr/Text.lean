import ObjcSwift.Swift.Expr
import ObjcSwift.Swift.SwiftType.Text

/-!
# The text of expressions and statements

Everything is written on one line; the statements of a nested body are separated by `; `. Operands
are put in parentheses exactly when they bind more loosely than their place demands
(`Shape.power`), so that the text determines how operands group.
-/

namespace ObjcSwift

/-- How tightly the text of a shape holds together as an operand. -/
def Shape.power : Shape → Nat
  | .assignment _ _ _ | .ternary _ _ _ => 1
  | .binary _ op _ => op.precedence
  | .cast _ _ => 4
  | .unary _ _ => 20
  | _ => 30

/-- The text of an operand at a place that demands some power. -/
def operandText (demand : Nat) (operand : Shape) (text : String) : String :=
  if operand.power < demand then "(" ++ text ++ ")" else text

/-- The text of a parameter of a block. -/
def BlockParameter.text (p : BlockParameter) : String :=
  p.name ++ ": " ++ p.type.text

/-- Text in braces. -/
def braced (text : String) : String :=
  "\x7b " ++ text ++ " \x7d"

mutual

/-- An expression as it is written in Swift. -/
def Expr.text : Expr → String
  | ⟨shape, _, _, _⟩ => shape.text

/-- A shape as it is written in Swift. -/
def Shape.text : Shape → String
  | .identifier name => name
  | .constant value => value.text
  | .unary op operand => op.symbol ++ operandText 20 operand.shape operand.text
  | .binary lhs op rhs =>
    operandText op.precedence lhs.shape lhs.text ++ " " ++ op.symbol ++ " " ++
      operandText (op.precedence + 1) rhs.shape rhs.text
  | .ternary condition ifTrue ifFalse =>
    operandText 2 condition.shape condition.text ++ " ? " ++
      operandText 2 ifTrue.shape ifTrue.text ++ " : " ++
      operandText 1 ifFalse.shape ifFalse.text
  | .assignment lhs op rhs => lhs.text ++ " " ++ op.symbol ++ " " ++ rhs.text
  | .suffixed receiver unwrap suffix =>
    operandText 30 receiver.shape receiver.text ++ unwrap.mark ++ suffix.text
  | .cast expression target =>
    operandText 5 expression.shape expression.text ++ " as? " ++ target.text
  | .sizeOfValue expression => "MemoryLayout.size(ofValue: " ++ expression.text ++ ")"
  | .sizeOfType type => "MemoryLayout<" ++ type.text ++ ">.size"
  | .parens inner => "(" ++ inner.text ++ ")"
  | .arrayLiteral elements => "[" ++ String.intercalate ", " (exprTexts elements) ++ "]"
  | .dictionaryLiteral [] => "[:]"
  | .dictionaryLiteral entries => "[" ++ String.intercalate ", " (entryTexts entries) ++ "]"
  | .block parameters result [] =>
    braced ("(" ++ String.intercalate ", " (parameters.map (·.text)) ++ ") -> " ++ result.text ++
      " in")
  | .block parameters result body =>
    braced ("(" ++ String.intercalate ", " (parameters.map (·.text)) ++ ") -> " ++ result.text ++
      " in " ++ String.intercalate "; " (stmtTexts body))
  | .unknown text => "/* " ++ text ++ " */"

/-- A suffix as it is written after its receiver. -/
def Suffix.text : Suffix → String
  | .member name => "." ++ name
  | .call arguments => "(" ++ String.intercalate ", " (argumentTexts arguments) ++ ")"
  | .subscript index => "[" ++ index.text ++ "]"

/-- The texts of several expressions. -/
def exprTexts : List Expr → List String
  | [] => []
  | e :: es => e.text :: exprTexts es

/-- The texts of several arguments. -/
def argumentTexts : List Argument → List String
  | [] => []
  | ⟨none, value⟩ :: rest => value.text :: argumentTexts rest
  | ⟨some label, value⟩ :: rest => (label ++ ": " ++ value.text) :: argumentTexts rest

/-- The texts of several dictionary entries. -/
def entryTexts : List Entry → List String
  | [] => []
  | ⟨key, value⟩ :: rest => (key.text ++ ": " ++ value.text) :: entryTexts rest

/-- The texts of several statements. -/
def stmtTexts : List Stmt → List String
  | [] => []
  | s :: ss => s.text :: stmtTexts ss

/-- The texts of several variable declarations. -/
def variableTexts : List Variable → List String
  | [] => []
  | ⟨name, type, none, constant⟩ :: rest =>
    ((if constant then "let " else "var ") ++ name ++ ": " ++ type.text) :: variableTexts rest
  | ⟨name, type, some initial, constant⟩ :: rest =>
    ((if constant then "let " else "var ") ++ name ++ ": " ++ type.text ++ " = " ++
      initial.text) :: variableTexts rest

/-- A statement on one line. -/
def Stmt.text : Stmt → String
  | .compound body => "do " ++ braced (String.intercalate "; " (stmtTexts body))
  | .branch condition body none =>
    "if " ++ condition.text ++ " " ++ braced (String.intercalate "; " (stmtTexts body))
  | .branch condition body (some otherwise) =>
    "if " ++ condition.text ++ " " ++ braced (String.intercalate "; " (stmtTexts body)) ++
      " else " ++ braced (String.intercalate "; " (stmtTexts otherwise))
  | .whileLoop condition body =>
    "while " ++ condition.text ++ " " ++ braced (String.intercalate "; " (stmtTexts body))
  | .repeatLoop body condition =>
    "repeat " ++ braced (String.intercalate "; " (stmtTexts body)) ++ " while " ++ condition.text
  | .forIn binding sequence body =>
    "for " ++ binding ++ " in " ++ sequence.text ++ " " ++
      braced (String.intercalate "; " (stmtTexts body))
  | .return none => "return"
  | .return (some value) => "return " ++ value.text
  | .expressions values => String.intercalate "; " (exprTexts values)
  | .locals declarations => String.intercalate "; " (variableTexts declarations)
  | .break => "break"
  | .continue => "continue"
  | .unknown source => "/* " ++ source.text ++ " */"

end

/-- A body on one line. -/
def Body.text (body : Body) : String :=
  String.intercalate "; " (stmtTexts body)

/-- The text of one variable declaration. -/
def Variable.text (v : Variable) : String :=
  String.intercalate "" (variableTexts [v])

/-- The texts of several expressions are the texts of each. -/
@[simp]
theorem exprTexts_eq_map (es : List Expr) : exprTexts es = es.map Expr.text := by
  induction es with
  | nil => rfl
  | cons e es ih => simp [exprTexts, ih]

/-- The texts of several statements are the texts of each. -/
@[simp]
theorem stmtTexts_eq_map (ss : List Stmt) : stmtTexts ss = ss.map Stmt.text := by
  induction ss with
  | nil => rfl
  | cons s ss ih => simp [stmtTexts, ih]

end ObjcSwift
