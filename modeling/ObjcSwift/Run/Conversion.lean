import ObjcSwift.Lowering.FileGraph
import ObjcSwift.Settings

/-!
# Converting sources

A conversion reads sources into one graph, annotates its bodies, runs the passes and prints the
files. Problems in the sources are collected; what stops a conversion is an unknown pass, a graph
that is not well formed, or a type that there is no room for.
-/

namespace ObjcSwift

/-- A source file. -/
structure Source where
  /-- Its name. -/
  name : String
  /-- Its text. -/
  text : String
deriving DecidableEq

/-- Why a conversion stopped. -/
inductive ConversionError
  /-- A source could not be read. -/
  | unreadable (name : String)
  /-- The graph of a source could not be built. -/
  | build (name : String) (cause : GraphError)
  /-- A type in a source overflows; the program stops at once. -/
  | overflow
  /-- A pass is unknown, or failed. -/
  | pass (cause : PassError)
  /-- The graph could not be printed. -/
  | emit (cause : GraphError)
  /-- A file could not be written. -/
  | unwritable (path : String)
deriving DecidableEq

/-- What stopped a conversion, in words. -/
def ConversionError.message : ConversionError → String
  | unreadable name => "failed to load input " ++ name
  | build name cause => "failed to build intentions for " ++ name ++ ": " ++ cause.message
  | overflow => "capacity overflow"
  | pass cause => cause.message
  | emit cause => "malformed intention graph: " ++ cause.message
  | unwritable path => "failed to write " ++ path

/-- What stops a conversion at a source whose graph could not be built. -/
def ConversionError.ofBuild (name : String) : BuildError → ConversionError
  | .edit cause => build name cause
  | .overflow => overflow

namespace Graph

/-- One more source behind the sources that were read. -/
def addSource (read : Graph × List Diagnostic) (s : Source) :
    Except ConversionError (Graph × List Diagnostic) := do
  let (graph, problems) ← (ofSource s.name s.text).mapError (.ofBuild s.name)
  return (read.1.merge graph, read.2 ++ problems)

/-- The graph of several sources, in their order, with the problems found in them. -/
def ofSources (sources : List Source) : Except ConversionError (Graph × List Diagnostic) :=
  sources.foldlM addSource ({}, [])

/-- The graph after its bodies were annotated and passes were run. -/
def transform (passes : List Pass) (g : Graph) : Except PassError Graph :=
  let catalog := Catalog.ofGraph g
  match Pass.runAll catalog passes (g.annotateAll catalog) with
  | .ok _ g => .ok g
  | .error e _ => .error e

end Graph

/-- The graph that is printed for the sources, with the problems found in them. The passes are
looked up before the sources are read. -/
def transformed (settings : Settings) (sources : List Source) :
    Except ConversionError (Graph × List Diagnostic) := do
  let passes ← (Pass.ofNames settings.passes).mapError .pass
  let (graph, problems) ← Graph.ofSources sources
  return (← (graph.transform passes).mapError .pass, problems)

/-- What a conversion gives. -/
structure Converted where
  /-- The target paths with their texts. -/
  files : List (String × String)
  /-- The problems found in the sources. -/
  diagnostics : List Diagnostic

/-- Converts sources that are in memory. -/
def convert (settings : Settings) (sources : List Source) : Except ConversionError Converted := do
  let (graph, diagnostics) ← transformed settings sources
  let files ← (Emit.all settings.output.emit graph).mapError .emit
  return ⟨files, diagnostics⟩

end ObjcSwift
