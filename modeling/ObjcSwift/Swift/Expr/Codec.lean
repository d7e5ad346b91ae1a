import ObjcSwift.Swift.Expr
import ObjcSwift.Swift.SwiftType.Codec

/-!
# Expressions and statements in JSON

An expression is a record of its shape and its filled slots; empty slots are left out. Shapes,
suffixes and statements are tagged values. Reading what was written gives the same tree back, slots
included.
-/

namespace ObjcSwift

/-! ### Writing -/

/-- The members for the filled slots of an expression. -/
def slotMembers (resolved expected : Option SwiftType) (source : Option SourceText) :
    List (String × Json) :=
  (resolved.toList.map fun t => ("resolved_type", t.toJson)) ++
    (expected.toList.map fun t => ("expected_type", t.toJson)) ++
    (source.toList.map fun s => ("source", s.toJson))

/-- A parameter of a block as JSON. -/
def BlockParameter.toJson (p : BlockParameter) : Json :=
  .obj [("name", .str p.name), ("ty", p.type.toJson)]

/-- Statements as a body in JSON. -/
def bodyJson (statements : List Json) : Json :=
  .obj [("statements", .arr statements)]

mutual

/-- An expression as JSON. -/
def Expr.toJson : Expr → Json
  | ⟨shape, resolved, expected, source⟩ =>
    .obj (("kind", shape.toJson) :: slotMembers resolved expected source)

/-- A shape as JSON. -/
def Shape.toJson : Shape → Json
  | .identifier name => .obj [("Identifier", .str name)]
  | .constant value => .obj [("Constant", value.toJson)]
  | .unary op operand => .obj [("Unary", .obj [("op", op.toJson), ("operand", operand.toJson)])]
  | .binary lhs op rhs =>
    .obj [("Binary", .obj [("lhs", lhs.toJson), ("op", op.toJson), ("rhs", rhs.toJson)])]
  | .ternary condition ifTrue ifFalse =>
    .obj [("Ternary", .obj [("condition", condition.toJson), ("if_true", ifTrue.toJson),
      ("if_false", ifFalse.toJson)])]
  | .assignment lhs op rhs =>
    .obj [("Assignment", .obj [("lhs", lhs.toJson), ("op", op.toJson), ("rhs", rhs.toJson)])]
  | .suffixed receiver unwrap suffix =>
    .obj [("Postfix", .obj [("receiver", receiver.toJson), ("op", suffix.toJson),
      ("optional_access", unwrap.toJson)])]
  | .cast expression target =>
    .obj [("Cast", .obj [("expression", expression.toJson), ("target", target.toJson)])]
  | .sizeOfValue expression => .obj [("SizeOf", .obj [("Expression", expression.toJson)])]
  | .sizeOfType type => .obj [("SizeOf", .obj [("Type", type.toJson)])]
  | .parens inner => .obj [("Parens", inner.toJson)]
  | .arrayLiteral elements => .obj [("ArrayLiteral", .arr (exprJsons elements))]
  | .dictionaryLiteral entries => .obj [("DictionaryLiteral", .arr (entryJsons entries))]
  | .block parameters result body =>
    .obj [("Block", .obj [("parameters", .arr (parameters.map (·.toJson))),
      ("return_type", result.toJson), ("body", bodyJson (stmtJsons body))])]
  | .unknown text => .obj [("Unknown", .str text)]

/-- A suffix as JSON. -/
def Suffix.toJson : Suffix → Json
  | .member name => .obj [("Member", .str name)]
  | .call arguments => .obj [("FunctionCall", .arr (argumentJsons arguments))]
  | .subscript index => .obj [("Subscript", index.toJson)]

/-- Several expressions as JSON. -/
def exprJsons : List Expr → List Json
  | [] => []
  | e :: es => e.toJson :: exprJsons es

/-- Several arguments as JSON. -/
def argumentJsons : List Argument → List Json
  | [] => []
  | ⟨label, value⟩ :: rest =>
    .obj [("label", .ofString? label), ("expression", value.toJson)] :: argumentJsons rest

/-- Several dictionary entries as JSON. -/
def entryJsons : List Entry → List Json
  | [] => []
  | ⟨key, value⟩ :: rest =>
    .obj [("key", key.toJson), ("value", value.toJson)] :: entryJsons rest

/-- Several statements as JSON. -/
def stmtJsons : List Stmt → List Json
  | [] => []
  | s :: ss => s.toJson :: stmtJsons ss

/-- An expression that may be absent as JSON. -/
def exprJson? : Option Expr → Json
  | none => .null
  | some e => e.toJson

/-- Several variable declarations as JSON. -/
def variableJsons : List Variable → List Json
  | [] => []
  | ⟨name, type, initial, constant⟩ :: rest =>
    .obj [("name", .str name), ("ty", type.toJson), ("initialization", exprJson? initial),
      ("is_constant", .bool constant)] :: variableJsons rest

/-- A statement as JSON. -/
def Stmt.toJson : Stmt → Json
  | .compound body => .obj [("Compound", bodyJson (stmtJsons body))]
  | .branch condition body none =>
    .obj [("If", .obj [("condition", condition.toJson), ("body", bodyJson (stmtJsons body)),
      ("else_body", .null)])]
  | .branch condition body (some otherwise) =>
    .obj [("If", .obj [("condition", condition.toJson), ("body", bodyJson (stmtJsons body)),
      ("else_body", bodyJson (stmtJsons otherwise))])]
  | .whileLoop condition body =>
    .obj [("While", .obj [("condition", condition.toJson), ("body", bodyJson (stmtJsons body))])]
  | .repeatLoop body condition =>
    .obj [("DoWhile", .obj [("body", bodyJson (stmtJsons body)), ("condition", condition.toJson)])]
  | .forIn binding sequence body =>
    .obj [("ForIn", .obj [("binding", .str binding), ("sequence", sequence.toJson),
      ("body", bodyJson (stmtJsons body))])]
  | .return value => .obj [("Return", exprJson? value)]
  | .expressions values => .obj [("Expressions", .arr (exprJsons values))]
  | .locals declarations => .obj [("VariableDeclarations", .arr (variableJsons declarations))]
  | .break => .str "Break"
  | .continue => .str "Continue"
  | .unknown source => .obj [("Unknown", source.toJson)]

end

/-- A body as JSON. -/
def Body.toJson (body : Body) : Json :=
  bodyJson (stmtJsons body)

/-! ### Reading -/

/-- Reads a parameter of a block from a given form. -/
def BlockParameter.ofJsonIn? (form : Json.PayloadForm) (j : Json) : Option BlockParameter := do
  let members ← j.record? ["name", "ty"]
  let name ← Json.field members "name" Json.toString?
  let type ← Json.field members "ty" (SwiftType.ofJsonIn? form)
  some ⟨name, type⟩

/-- Reads a body, given how to read a statement. -/
def bodyOf (stmt : Json → Option Stmt) (j : Json) : Option Body := do
  Json.field (← j.record? ["statements"]) "statements" (Json.listOf stmt)

/-- Reads an argument, given how to read an expression. -/
def argumentOf (expr : Json → Option Expr) (j : Json) : Option Argument := do
  let members ← j.record? ["label", "expression"]
  let label ← Json.field? members "label" Json.toString?
  let value ← Json.field members "expression" expr
  some ⟨label, value⟩

/-- Reads a dictionary entry, given how to read an expression. -/
def entryOf (expr : Json → Option Expr) (j : Json) : Option Entry := do
  let members ← j.record? ["key", "value"]
  let key ← Json.field members "key" expr
  let value ← Json.field members "value" expr
  some ⟨key, value⟩

/-- Reads a variable declaration, given how to read an expression. -/
def variableOf (form : Json.PayloadForm) (expr : Json → Option Expr) (j : Json) :
    Option Variable := do
  let members ← j.record? ["name", "ty", "initialization", "is_constant"]
  let name ← Json.field members "name" Json.toString?
  let type ← Json.field members "ty" (SwiftType.ofJsonIn? form)
  let initial ← Json.field? members "initialization" expr
  let constant ← Json.field members "is_constant" Json.toBool?
  some ⟨name, type, initial, constant⟩

/-- Reads a suffix, given how to read an expression. -/
def suffixOf (expr : Json → Option Expr) (j : Json) : Option Suffix := do
  let (tag, payload?) ← j.tagged
  let payload ← payload?
  match tag with
  | "Member" => payload.toString?.map .member
  | "FunctionCall" => (Json.listOf (argumentOf expr) payload).map .call
  | "Subscript" => (expr payload).map .subscript
  | _ => none

/-- Reads a shape, given how to read an expression and a statement. -/
def shapeOf (form : Json.PayloadForm) (expr : Json → Option Expr) (stmt : Json → Option Stmt)
    (j : Json) : Option Shape := do
  let (tag, payload?) ← j.tagged
  let payload ← payload?
  match tag with
  | "Identifier" => payload.toString?.map .identifier
  | "Constant" => (Constant.ofJsonIn? form payload).map .constant
  | "Unary" =>
    let members ← Json.payloadFields? form ["op", "operand"] payload
    let op ← Json.field members "op" (Operator.ofJsonIn? form)
    let operand ← Json.field members "operand" expr
    some (.unary op operand)
  | "Binary" =>
    let members ← Json.payloadFields? form ["lhs", "op", "rhs"] payload
    let lhs ← Json.field members "lhs" expr
    let op ← Json.field members "op" (Operator.ofJsonIn? form)
    let rhs ← Json.field members "rhs" expr
    some (.binary lhs op rhs)
  | "Ternary" =>
    let members ← Json.payloadFields? form ["condition", "if_true", "if_false"] payload
    let condition ← Json.field members "condition" expr
    let ifTrue ← Json.field members "if_true" expr
    let ifFalse ← Json.field members "if_false" expr
    some (.ternary condition ifTrue ifFalse)
  | "Assignment" =>
    let members ← Json.payloadFields? form ["lhs", "op", "rhs"] payload
    let lhs ← Json.field members "lhs" expr
    let op ← Json.field members "op" (Operator.ofJsonIn? form)
    let rhs ← Json.field members "rhs" expr
    some (.assignment lhs op rhs)
  | "Postfix" =>
    let members ← Json.payloadFields? form ["receiver", "op", "optional_access"] payload 2
    let receiver ← Json.field members "receiver" expr
    let suffix ← Json.field members "op" (suffixOf expr)
    let unwrap ← Json.fieldD members "optional_access" .none (Unwrap.ofJsonIn? form)
    some (.suffixed receiver unwrap suffix)
  | "Cast" =>
    let members ← Json.payloadFields? form ["expression", "target"] payload
    let expression ← Json.field members "expression" expr
    let target ← Json.field members "target" (SwiftType.ofJsonIn? form)
    some (.cast expression target)
  | "SizeOf" =>
    let (tag, payload?) ← payload.tagged
    let payload ← payload?
    match tag with
    | "Expression" => (expr payload).map .sizeOfValue
    | "Type" => (SwiftType.ofJsonIn? form payload).map .sizeOfType
    | _ => none
  | "Parens" => (expr payload).map .parens
  | "ArrayLiteral" => (Json.listOf expr payload).map .arrayLiteral
  | "DictionaryLiteral" => (Json.listOf (entryOf expr) payload).map .dictionaryLiteral
  | "Block" =>
    let members ← Json.payloadFields? form ["parameters", "return_type", "body"] payload
    let parameters ← Json.field members "parameters" (Json.listOf (BlockParameter.ofJsonIn? form))
    let result ← Json.field members "return_type" (SwiftType.ofJsonIn? form)
    let body ← Json.field members "body" (bodyOf stmt)
    some (.block parameters result body)
  | "Unknown" => payload.toString?.map .unknown
  | _ => none

/-- Reads a statement that has a payload, given how to read an expression and a statement. -/
def stmtOf (form : Json.PayloadForm) (expr : Json → Option Expr) (stmt : Json → Option Stmt)
    (j : Json) : Option Stmt := do
  let (tag, payload?) ← j.tagged
  let payload ← payload?
  match tag with
  | "Compound" => (bodyOf stmt payload).map .compound
  | "If" =>
    let members ← Json.payloadFields? form ["condition", "body", "else_body"] payload
    let condition ← Json.field members "condition" expr
    let body ← Json.field members "body" (bodyOf stmt)
    let otherwise ← Json.field? members "else_body" (bodyOf stmt)
    some (.branch condition body otherwise)
  | "While" =>
    let members ← Json.payloadFields? form ["condition", "body"] payload
    let condition ← Json.field members "condition" expr
    let body ← Json.field members "body" (bodyOf stmt)
    some (.whileLoop condition body)
  | "DoWhile" =>
    let members ← Json.payloadFields? form ["body", "condition"] payload
    let body ← Json.field members "body" (bodyOf stmt)
    let condition ← Json.field members "condition" expr
    some (.repeatLoop body condition)
  | "ForIn" =>
    let members ← Json.payloadFields? form ["binding", "sequence", "body"] payload
    let binding ← Json.field members "binding" Json.toString?
    let sequence ← Json.field members "sequence" expr
    let body ← Json.field members "body" (bodyOf stmt)
    some (.forIn binding sequence body)
  | "Return" => (Json.nullable expr payload).map .return
  | "Expressions" => (Json.listOf expr payload).map .expressions
  | "VariableDeclarations" => (Json.listOf (variableOf form expr) payload).map .locals
  | "Unknown" => (SourceText.ofJson? payload).map .unknown
  | _ => none

mutual

/-- Reads an expression of bounded nesting. -/
def Expr.decode (form : Json.PayloadForm) : (fuel : Nat) → Json → Option Expr
  | 0, _ => none
  | fuel + 1, j => do
    let members ← j.record? ["kind", "resolved_type", "expected_type", "source"] 1
    let shape ←
      Json.field members "kind" (shapeOf form (Expr.decode form fuel) (Stmt.decode form fuel))
    let resolved ← Json.field? members "resolved_type" (SwiftType.ofJsonIn? form)
    let expected ← Json.field? members "expected_type" (SwiftType.ofJsonIn? form)
    let source ← Json.field? members "source" SourceText.ofJson?
    some ⟨shape, resolved, expected, source⟩

/-- Reads a statement of bounded nesting. -/
def Stmt.decode (form : Json.PayloadForm) : (fuel : Nat) → Json → Option Stmt
  | 0, _ => none
  | fuel + 1, j =>
    match j.bareTag form with
    | some "Break" => some .break
    | some "Continue" => some .continue
    | _ => stmtOf form (Expr.decode form fuel) (Stmt.decode form fuel) j

end

/-- Reads an expression from a given form. -/
def Expr.ofJsonIn? (form : Json.PayloadForm) (j : Json) : Option Expr :=
  Expr.decode form j.size j

/-- Reads an expression. -/
def Expr.ofJson? (j : Json) : Option Expr :=
  Expr.ofJsonIn? .strict j

/-- Reads a body from a given form. -/
def Body.ofJsonIn? (form : Json.PayloadForm) (j : Json) : Option Body :=
  bodyOf (Stmt.decode form j.size) j

/-- Reads a body. -/
def Body.ofJson? (j : Json) : Option Body :=
  Body.ofJsonIn? .strict j

end ObjcSwift
