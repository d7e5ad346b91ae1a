import ObjcSwift.Emit.Output
import ObjcSwift.Pass.Pipeline
import ObjcSwift.Toml.Reader

/-!
# Settings

What a run can be told: where and how to write, which passes to run, how many workers read the
sources, and how much to log. A file in TOML gives the settings, and **layers** of overrides lie on
top of it, the later ones above the earlier ones. Every setting has a default, and what is not a
setting is ignored.

With fewer than two workers allowed, or with parallel reading switched off, there is one worker
(`ParallelSettings.sanitized`).
-/

namespace ObjcSwift

/-- How much is logged. -/
inductive LogLevel
  /-- Everything. -/
  | trace
  /-- Details. -/
  | debug
  /-- Progress. -/
  | info
  /-- Warnings. -/
  | warn
  /-- Errors only. -/
  | error
deriving DecidableEq

namespace LogLevel

/-- The name of a level. -/
def name : LogLevel → String
  | trace => "trace"
  | debug => "debug"
  | info => "info"
  | warn => "warn"
  | error => "error"

/-- The names that levels can be given by. -/
def names : List (String × LogLevel) :=
  [trace, debug, info, warn, error].map (fun l => (l.name, l)) ++ [("warning", warn)]

/-- The level of a name. -/
def ofName? (name : String) : Option LogLevel :=
  names.lookup name

end LogLevel

/-- Where and how files are written. -/
structure OutputSettings where
  /-- The directory for the files. -/
  directory : String := "out"
  /-- What stands for one level of indentation. -/
  indent : String := "    "
  /-- Whether preprocessor directives are written as comments. -/
  sourceComments : Bool := true
deriving DecidableEq

/-- How sources are read. -/
structure ParallelSettings where
  /-- The number of workers. -/
  workers : Nat := 1
  /-- Whether sources are read in parallel. -/
  parallel : Bool := false
deriving DecidableEq

/-- The settings of a run. -/
structure Settings where
  /-- Where and how files are written. -/
  output : OutputSettings := {}
  /-- The names of the passes, in the order in which they run. -/
  passes : List String := Pass.standard.map Pass.name
  /-- How sources are read. -/
  parallel : ParallelSettings := {}
  /-- How much is logged. -/
  level : Option LogLevel := none
deriving DecidableEq

/-- Overrides of settings. -/
structure SettingsLayer where
  /-- The directory for the files. -/
  directory : Option String := none
  /-- What stands for one level of indentation. -/
  indent : Option String := none
  /-- The names of the passes. -/
  passes : Option (List String) := none
  /-- The number of workers. -/
  workers : Option Nat := none
  /-- Whether sources are read in parallel. -/
  parallel : Option Bool := none
  /-- How much is logged. -/
  level : Option LogLevel := none
deriving DecidableEq

/-- How files are printed under the settings. -/
def OutputSettings.emit (s : OutputSettings) : EmitSettings :=
  ⟨s.indent, s.sourceComments⟩

namespace ParallelSettings

/-- At least one worker, and one only when sources are not read in parallel. -/
def sanitized (s : ParallelSettings) : ParallelSettings :=
  { s with workers := if s.parallel then max 1 s.workers else 1 }

/-- The number of workers there are. -/
def effectiveWorkers (s : ParallelSettings) : Nat :=
  s.sanitized.workers

end ParallelSettings

/-! ### Layers -/

namespace SettingsLayer

/-- Whether a layer overrides nothing. -/
def isEmpty (l : SettingsLayer) : Bool :=
  l == {}

/-- The layer of command line flags: names of passes are trimmed and empty ones dropped, and more
than one job asks for parallel reading. -/
def ofFlags (directory : Option String) (level : Option LogLevel) (passes : Option (List String))
    (jobs : Option Nat) : SettingsLayer :=
  { directory, level
    passes := passes.map fun names => (names.map Text.trim).filter fun name => !name.isEmpty
    workers := jobs
    parallel := jobs.map fun n => decide (1 < n) }

end SettingsLayer

namespace Settings

/-- Settings under one layer. -/
def override (s : Settings) (l : SettingsLayer) : Settings :=
  { s with
    output.directory := l.directory.getD s.output.directory
    output.indent := l.indent.getD s.output.indent
    passes := l.passes.getD s.passes
    parallel.workers := l.workers.getD s.parallel.workers
    parallel.parallel := l.parallel.getD s.parallel.parallel
    level := l.level.or s.level }

/-- Settings under several layers, the number of workers put right. -/
def withLayers (s : Settings) (layers : List SettingsLayer) : Settings :=
  let s := layers.foldl override s
  { s with parallel := s.parallel.sanitized }

/-- What is logged: a level on the command line, else a filter in the environment that is not blank,
else the level of the settings, else warnings. -/
def logFilter (flag : Option LogLevel) (environment : Option String) (level : Option LogLevel) :
    String :=
  let filter := (environment.map Text.trim).filter fun text => !text.isEmpty
  ((flag.map (·.name)).or filter).getD (level.getD .warn).name

end Settings

/-! ### TOML -/

namespace TomlValue

/-- The fields of a record, which may also be written as an array in the order of the fields. A
moment is taken for a record that has none of the fields. -/
def record? (fields : List String) : TomlValue → Option TomlTable
  | table _ entries => some entries
  | moment _ => some []
  | array values => some (fields.zip values)
  | items latest earlier => some (fields.zip ((latest :: earlier).reverse.map (table .header)))
  | _ => none

/-- The string that a value is. -/
def string? : TomlValue → Option String
  | string value => some value
  | _ => none

/-- The Boolean that a value is. -/
def boolean? : TomlValue → Option Bool
  | boolean value => some value
  | _ => none

/-- The natural number that a value is. -/
def natural? : TomlValue → Option Nat
  | integer value => if value < 0 then none else some value.toNat
  | _ => none

/-- The strings that an array holds. -/
def strings? : TomlValue → Option (List String)
  | array values => values.mapM string?
  | _ => none

/-- Whether a value is an empty array or an empty table. -/
def isEmpty : TomlValue → Bool
  | array [] | table _ [] => true
  | _ => false

/-- The name that a value gives, by itself or as the one key of a table, with nothing under it. -/
def caseName? : TomlValue → Option String
  | string name => some name
  | table _ [(name, payload)] => if payload.isEmpty then some name else none
  | _ => none

end TomlValue

namespace TomlTable

/-- What a key holds, or a default when it is not there. -/
def getD {α : Type} (t : TomlTable) (key : String) (default : α) (read : TomlValue → Option α) :
    Option α :=
  match t.lookup key with
  | some v => read v
  | none => some default

end TomlTable

namespace Settings

/-- Reads the settings for writing. -/
def outputOfToml? (v : TomlValue) : Option OutputSettings := do
  let t ← v.record? ["directory", "indent", "source_comments"]
  let directory ← t.getD "directory" "out" TomlValue.string?
  let indent ← t.getD "indent" "    " TomlValue.string?
  let sourceComments ← t.getD "source_comments" true TomlValue.boolean?
  some ⟨directory, indent, sourceComments⟩

/-- Reads the names of the passes. -/
def passesOfToml? (v : TomlValue) : Option (List String) := do
  (← v.record? ["enabled"]).getD "enabled" (Pass.standard.map Pass.name) TomlValue.strings?

/-- Reads the settings for reading sources. -/
def parallelOfToml? (v : TomlValue) : Option ParallelSettings := do
  let t ← v.record? ["worker_threads", "parallel_parsing"]
  let workers ← t.getD "worker_threads" 1 TomlValue.natural?
  let parallel ← t.getD "parallel_parsing" false TomlValue.boolean?
  some ⟨workers, parallel⟩

/-- Reads the settings for logging. -/
def loggingOfToml? (v : TomlValue) : Option (Option LogLevel) := do
  (← v.record? ["level"]).getD "level" none fun v => (v.caseName?.bind LogLevel.ofName?).map some

/-- Reads settings. -/
def ofTable? (t : TomlTable) : Option Settings := do
  let output ← t.getD "output" {} outputOfToml?
  let passes ← t.getD "passes" (Pass.standard.map Pass.name) passesOfToml?
  let parallel ← t.getD "parallel" {} parallelOfToml?
  let level ← t.getD "logging" none loggingOfToml?
  some ⟨output, passes, parallel, level⟩

/-- Reads settings from the text of a file. -/
def parse? (text : String) : Option Settings :=
  (Toml.parse? text).bind ofTable?

end Settings

/-! ### JSON -/

namespace LogLevel

/-- Reads a level. -/
def ofJson? (j : Json) : Option LogLevel :=
  Json.enumOf names j

end LogLevel

/-- The settings for reading sources as JSON. -/
def ParallelSettings.toJson (s : ParallelSettings) : Json :=
  .obj [("worker_threads", .nat s.workers), ("parallel_parsing", .bool s.parallel)]

/-- Settings as JSON. -/
def Settings.toJson (s : Settings) : Json :=
  .obj [("output", .obj [("directory", .str s.output.directory), ("indent", .str s.output.indent),
      ("source_comments", .bool s.output.sourceComments)]),
    ("passes", .obj [("enabled", .strs s.passes)]),
    ("parallel", s.parallel.toJson),
    ("logging", .obj [("level", .option (fun l => .str l.name) s.level)])]

namespace SettingsLayer

/-- Reads a natural number of 64 bits. -/
def natOfJson? (j : Json) : Option Nat :=
  j.toUInt64?.map (·.toNat)

/-- Reads the layer of command line flags. -/
def flagsOfJson? (j : Json) : Option SettingsLayer := do
  let members ← j.members?
  let directory ← Json.field? members "output" Json.toString?
  let level ← Json.field? members "log_level" LogLevel.ofJson?
  let passes ← Json.field? members "passes" (Json.listOf Json.toString?)
  let jobs ← Json.field? members "jobs" natOfJson?
  some (ofFlags directory level passes jobs)

/-- Reads a layer, which may be given as flags. -/
def ofJson? (j : Json) : Option SettingsLayer := do
  let members ← j.members?
  match members.lookup "flags" with
  | some flags => flagsOfJson? flags
  | none =>
    let directory ← Json.field? members "output_directory" Json.toString?
    let indent ← Json.field? members "indent" Json.toString?
    let passes ← Json.field? members "passes" (Json.listOf Json.toString?)
    let workers ← Json.field? members "worker_threads" natOfJson?
    let parallel ← Json.field? members "parallel_parsing" Json.toBool?
    let level ← Json.field? members "log_level" LogLevel.ofJson?
    some ⟨directory, indent, passes, workers, parallel, level⟩

end SettingsLayer

end ObjcSwift
