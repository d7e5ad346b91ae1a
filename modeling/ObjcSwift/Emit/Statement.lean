import ObjcSwift.Emit.Writer
import ObjcSwift.Swift.Expr.Text
import ObjcSwift.Text.Lines

/-!
# Printing statements

A statement is printed over several lines, with nested bodies one level deeper. An `else` branch
that holds one more `if` and nothing else continues the chain as `else if`. Source text without
counterpart becomes a comment.

The same is said twice: which lines a body has (`Body.lines`), and how they are written to a target,
one after the other (`Body.write`).
-/

namespace ObjcSwift

/-- Whether a statement is an `if` statement. -/
def Stmt.isBranch : Stmt → Bool
  | .branch _ _ _ => true
  | _ => false

mutual

/-- The lines of a statement. An `if` statement starts with the given words, which continue a chain
or begin one. -/
def Stmt.linesAfter (words : String) : Stmt → List Line
  | .compound body => Layout.block "do" (bodyLines body)
  | .branch condition body none =>
    Layout.block (words ++ " " ++ condition.text) (bodyLines body)
  | .branch condition body (some [s]) =>
    Layout.opened (words ++ " " ++ condition.text) (bodyLines body) ++
      if s.isBranch then s.linesAfter "\x7d else if"
      else Layout.block "\x7d else" (s.linesAfter "if")
  | .branch condition body (some otherwise) =>
    Layout.opened (words ++ " " ++ condition.text) (bodyLines body) ++
      Layout.block "\x7d else" (bodyLines otherwise)
  | .whileLoop condition body => Layout.block ("while " ++ condition.text) (bodyLines body)
  | .repeatLoop body condition =>
    Layout.opened "repeat" (bodyLines body) ++ [{ text := "\x7d while " ++ condition.text }]
  | .forIn binding sequence body =>
    Layout.block ("for " ++ binding ++ " in " ++ sequence.text) (bodyLines body)
  | .expressions values => values.map fun e => { text := e.text }
  | .locals declarations => declarations.map fun v => { text := v.text }
  | .unknown source => (Text.lines source.text).map fun l => { text := "// " ++ l }
  | .return value => [{ text := (Stmt.return value).text }]
  | .break => [{ text := Stmt.break.text }]
  | .continue => [{ text := Stmt.continue.text }]

/-- The lines of a body. -/
def bodyLines : List Stmt → List Line
  | [] => []
  | s :: ss => s.linesAfter "if" ++ bodyLines ss

end

mutual

/-- Writes a statement. An `if` statement starts with the given words, which continue a chain or
begin one. -/
def Stmt.writeAfter (words : String) : Stmt → Writer Unit
  | .compound body => Writer.block "do" (writeBody body)
  | .branch condition body none =>
    Writer.block (words ++ " " ++ condition.text) (writeBody body)
  | .branch condition body (some [s]) => do
    Writer.opened (words ++ " " ++ condition.text) (writeBody body)
    if s.isBranch then s.writeAfter "\x7d else if"
    else Writer.block "\x7d else" (s.writeAfter "if")
  | .branch condition body (some otherwise) => do
    Writer.opened (words ++ " " ++ condition.text) (writeBody body)
    Writer.block "\x7d else" (writeBody otherwise)
  | .whileLoop condition body => Writer.block ("while " ++ condition.text) (writeBody body)
  | .repeatLoop body condition => do
    Writer.opened "repeat" (writeBody body)
    Writer.line ("\x7d while " ++ condition.text)
  | .forIn binding sequence body =>
    Writer.block ("for " ++ binding ++ " in " ++ sequence.text) (writeBody body)
  | .expressions values => values.forM fun e => Writer.line e.text
  | .locals declarations => declarations.forM fun v => Writer.line v.text
  | .unknown source => (Text.lines source.text).forM fun l => Writer.line ("// " ++ l)
  | .return value => Writer.line (Stmt.return value).text
  | .break => Writer.line Stmt.break.text
  | .continue => Writer.line Stmt.continue.text

/-- Writes the statements of a body. -/
def writeBody : List Stmt → Writer Unit
  | [] => return
  | s :: ss => do
    s.writeAfter "if"
    writeBody ss

end

/-- The lines of a statement. -/
def Stmt.lines (s : Stmt) : List Line :=
  s.linesAfter "if"

/-- The lines of a body. -/
def Body.lines (body : Body) : List Line :=
  bodyLines body

/-- Writes the statements of a body. -/
def Body.write (body : Body) : Writer Unit :=
  writeBody body

end ObjcSwift
