import ObjcSwift.Emit.Declaration
import ObjcSwift.Json.Record

/-!
# Printing files

A file is printed in sections: the preprocessor directives found in it, as comments, its type
aliases, its variables, each function, and each type, protocols before classes before extensions.

Files with the same target path go into one text, in the order of the graph.
-/

namespace ObjcSwift

/-- How files are printed. -/
structure EmitSettings where
  /-- What stands for one level of indentation. -/
  indent : String := "    "
  /-- Whether the preprocessor directives are printed. -/
  sourceComments : Bool := true
deriving DecidableEq

namespace EmitSettings

/-- Settings as JSON. -/
def toJson (s : EmitSettings) : Json :=
  .obj [("indent", .str s.indent), ("include_source_comments", .bool s.sourceComments)]

/-- Reads settings; what is not there has its default. -/
def ofJson? (j : Json) : Option EmitSettings := do
  let members ← j.record? ["indent", "include_source_comments"] 0
  let indent ← Json.fieldD members "indent" "    " Json.toString?
  let sourceComments ← Json.fieldD members "include_source_comments" true Json.toBool?
  some ⟨indent, sourceComments⟩

end EmitSettings

namespace Emit

/-- A type alias. -/
def typeAlias (a : AliasDecl) : String :=
  accessPrefix a.header ++ "typealias " ++ a.name ++ " = " ++ a.aliased.text

/-- A global variable. -/
def globalVariable (v : VariableDecl) : String :=
  storage v.header false v.name v.storage ++
    match v.initial with
    | some value => " = " ++ value.text
    | none => ""

/-- The preprocessor directives of a file that are printed. -/
def printedDirectives (settings : EmitSettings) (f : FileDecl) : List String :=
  if settings.sourceComments && !f.directives.isEmpty then
    "Preprocessor directives found in file:" :: f.directives
  else []

/-- Types in the order in which they are printed. -/
def ordered (types : List TypeDecl) : List TypeDecl :=
  types.filter (·.isProtocol) ++ types.filter (·.isClass) ++ types.filter (·.isExtension)

/-- Writes a file. -/
def file (settings : EmitSettings) (g : Graph) (id : DeclId) : Writer Unit := do
  let f ← Writer.look (g.file id)
  let written ← Writer.group (printedDirectives settings f)
    (fun d => Writer.line ("// " ++ d)) false
  let written ← Writer.group f.aliases
    (fun id => do Writer.line (typeAlias (← Writer.look (g.typeAlias id)))) written
  let written ← Writer.group f.globals
    (fun id => do Writer.line (globalVariable (← Writer.look (g.globalVariable id)))) written
  let written ← Writer.sections f.functions g.globalFunction
    (fun d => function d.header d.signature d.code) written
  let types ← Writer.look (f.types.mapM fun id => g.type id)
  let _ ← Writer.sections (ordered types) .ok (type g) written

/-- Writes files one after the other. -/
def files (settings : EmitSettings) (g : Graph) (ids : List DeclId) : Writer Unit := do
  let _ ← Writer.sections ids .ok (file settings g) false

/-- The target paths of the files of a graph, each once, with the files that go there. -/
def groups (g : Graph) : Except GraphError (List (String × List DeclId)) := do
  let placed ← g.files.mapM fun id => return ((← g.file id).targetPath, id)
  let paths := (placed.map (·.1)).eraseDups
  return paths.map fun path => (path, (placed.filter (·.1 == path)).map (·.2))

/-- The text that goes to one target path: what its files leave in a new target. -/
def text (settings : EmitSettings) (g : Graph) (ids : List DeclId) : Except GraphError String :=
  match files settings g ids { unit := settings.indent } with
  | .ok _ t => .ok t.text
  | .error e _ => .error e

/-- The target paths of a graph with their texts. -/
def all (settings : EmitSettings) (g : Graph) : Except GraphError (List (String × String)) := do
  (← groups g).mapM fun (path, files) => return (path, ← text settings g files)

end Emit

end ObjcSwift
