import ObjcSwift.Json.Record
import ObjcSwift.Text.Numeral

/-!
# Positions in a source file

A **span** runs from a start to an end, each a line and a column. The all-zero span stands for "no
position", and joining it with another span gives the other.
-/

namespace ObjcSwift

/-- A stretch of a source file. -/
structure Span where
  /-- The line it starts on. -/
  startLine : UInt64 := 0
  /-- The column it starts at. -/
  startColumn : UInt64 := 0
  /-- The line it ends on. -/
  endLine : UInt64 := 0
  /-- The column it ends at. -/
  endColumn : UInt64 := 0
deriving DecidableEq, Inhabited

/-- A piece of source text with its position. -/
structure SourceText where
  /-- The text. -/
  text : String
  /-- Where it stands. -/
  span : Span
deriving DecidableEq

/-- Whether the position `(l, c)` comes before `(l', c')`. -/
def positionLt (l c l' c' : UInt64) : Bool :=
  l < l' || (l == l' && c < c')

namespace Span

/-- The span that stands for no position. -/
def dummy : Span := {}

/-- Whether the span stands for no position. -/
def isDummy (s : Span) : Bool :=
  s == dummy

/-- The least span that covers two spans. -/
def merge (s t : Span) : Span :=
  if s.isDummy then t
  else if t.isDummy then s
  else
    let first := if positionLt t.startLine t.startColumn s.startLine s.startColumn then t else s
    let last := if positionLt t.endLine t.endColumn s.endLine s.endColumn then s else t
    ⟨first.startLine, first.startColumn, last.endLine, last.endColumn⟩

/-- The start of a span, as `line:column`. -/
def text (s : Span) : String :=
  Text.decimal s.startLine.toNat ++ ":" ++ Text.decimal s.startColumn.toNat

/-- A span as JSON. -/
def toJson (s : Span) : Json :=
  .obj [("start_line", .nat s.startLine.toNat), ("start_column", .nat s.startColumn.toNat),
    ("end_line", .nat s.endLine.toNat), ("end_column", .nat s.endColumn.toNat)]

/-- Reads a span. -/
def ofJson? (j : Json) : Option Span := do
  let members ← j.record? ["start_line", "start_column", "end_line", "end_column"]
  let startLine ← Json.field members "start_line" Json.toUInt64?
  let startColumn ← Json.field members "start_column" Json.toUInt64?
  let endLine ← Json.field members "end_line" Json.toUInt64?
  let endColumn ← Json.field members "end_column" Json.toUInt64?
  some ⟨startLine, startColumn, endLine, endColumn⟩

end Span

namespace SourceText

/-- A source text as JSON. -/
def toJson (s : SourceText) : Json :=
  .obj [("text", .str s.text), ("span", s.span.toJson)]

/-- Reads a source text. -/
def ofJson? (j : Json) : Option SourceText := do
  let members ← j.record? ["text", "span"]
  let text ← Json.field members "text" Json.toString?
  let span ← Json.field members "span" Span.ofJson?
  some ⟨text, span⟩

end SourceText

end ObjcSwift
