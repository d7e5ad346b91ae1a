import ObjcSwift.Swift.Span

/-!
# Diagnostics

Problems found while reading and lowering source files. They are collected in the order they are
found and never stop the run.
-/

namespace ObjcSwift

/-- How serious a problem is. -/
inductive Severity
  /-- Something was lost. -/
  | error
  /-- Something was skipped. -/
  | warning
  /-- A remark. -/
  | note
deriving DecidableEq

/-- A place in a source file. -/
structure Location where
  /-- The file, if it is known. -/
  file : Option String := none
  /-- The line. -/
  line : UInt64 := 0
  /-- The column. -/
  column : UInt64 := 0
deriving DecidableEq

/-- A problem. -/
structure Diagnostic where
  /-- How serious it is. -/
  severity : Severity
  /-- What it is. -/
  message : String
  /-- Where it is. -/
  location : Location
deriving DecidableEq

namespace Severity

/-- The severity as it is shown. -/
def text : Severity → String
  | error => "error"
  | warning => "warning"
  | note => "note"

/-- The case name. -/
def caseName : Severity → String
  | error => "Error"
  | warning => "Warning"
  | note => "Note"

/-- Reads a severity. -/
def ofJson? (j : Json) : Option Severity :=
  Json.enumOf ([error, warning, note].map fun s => (s.caseName, s)) j

end Severity

namespace Location

/-- The place where a span of a file starts. -/
def ofSpan (file : Option String) (span : Span) : Location :=
  ⟨file, span.startLine, span.startColumn⟩

/-- The place as `file:line:column`. -/
def text (l : Location) : String :=
  l.file.getD "<unknown>" ++ ":" ++ Text.decimal l.line.toNat ++ ":" ++
    Text.decimal l.column.toNat

/-- A place as JSON. -/
def toJson (l : Location) : Json :=
  .obj [("file", .ofString? l.file), ("line", .nat l.line.toNat), ("column", .nat l.column.toNat)]

/-- Reads a place. -/
def ofJson? (j : Json) : Option Location := do
  let members ← j.record? ["file", "line", "column"]
  let file ← Json.field? members "file" Json.toString?
  let line ← Json.field members "line" Json.toUInt64?
  let column ← Json.field members "column" Json.toUInt64?
  some ⟨file, line, column⟩

end Location

namespace Diagnostic

/-- A problem as it is shown. -/
def text (d : Diagnostic) : String :=
  d.location.text ++ ": " ++ d.severity.text ++ ": " ++ d.message

/-- A problem as JSON. -/
def toJson (d : Diagnostic) : Json :=
  .obj [("severity", .str d.severity.caseName), ("message", .str d.message),
    ("location", d.location.toJson)]

/-- The problems of one severity. -/
def ofSeverity (severity : Severity) (ds : List Diagnostic) : List Diagnostic :=
  ds.filter (·.severity == severity)

/-- Whether there is an error among the problems. -/
def anyError (ds : List Diagnostic) : Bool :=
  ds.any (·.severity == .error)

end Diagnostic

end ObjcSwift
