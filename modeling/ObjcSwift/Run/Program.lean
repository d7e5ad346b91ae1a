import ObjcSwift.CommandLine
import ObjcSwift.Run.Directory
import ObjcSwift.Run.Conversion

/-!
# The program

What the program does with its arguments, given a way to read and write files (`FileAccess`). The
same definition runs on a real file system and on a `Directory`.

Files are written one after the other, so a conversion that stops leaves the files before it.
-/

namespace ObjcSwift

/-- A way to read and write files. -/
structure FileAccess (m : Type → Type) where
  /-- The text of the file at a path, if it can be read. -/
  read : String → m (Option String)
  /-- Writes a file and the directories that lead to it, and says whether that worked. -/
  write : (path text : String) → m Bool

/-- Files of a directory. -/
def FileAccess.ofDirectory : FileAccess (StateM Directory) where
  read path := return (← get).read? path
  write path text := do
    match (← get).write? path text with
    | some d => set d; return true
    | none => return false

/-- A conversion of files that worked. -/
structure ConversionSummary where
  /-- The target paths, below the output directory. -/
  written : List String
  /-- The problems found in the sources. -/
  diagnostics : List Diagnostic

/-- What the program shows. -/
structure ProgramOutcome where
  /-- The exit status. -/
  status : UInt32 := 0
  /-- The lines of its output. -/
  output : List String := []
  /-- The lines of its messages. -/
  messages : List String := []

section Files

variable {m : Type → Type} [Monad m] (fs : FileAccess m)

/-- Reads the settings in a file, or gives the default settings. -/
def loadSettings (path : Option String) : m (Option Settings) :=
  match path with
  | none => return some {}
  | some path => return (← fs.read path).bind Settings.parse?

/-- Reads sources behind those that were read, up to the first that cannot be read. The graph of a
source is built before the next one is read. -/
def loadSources (read : Graph × List Diagnostic) :
    List String → ExceptT ConversionError m (Graph × List Diagnostic)
  | [] => return read
  | name :: rest => do
    match ← fs.read name with
    | none => throw (.unreadable name)
    | some text =>
      let read ← ExceptT.mk (return Graph.addSource read ⟨name, text⟩)
      loadSources read rest

/-- Writes the files of a graph below a directory, one after the other. -/
def writeFiles (settings : OutputSettings) (g : Graph) :
    List (String × List DeclId) → ExceptT ConversionError m (List String)
  | [] => return []
  | (path, files) :: rest => do
    let text ← ExceptT.mk (return (Emit.text settings.emit g files).mapError .emit)
    let full := Path.join settings.directory path
    if ← fs.write full text then return path :: (← writeFiles settings g rest)
    else throw (.unwritable full)

/-- Converts files. The passes are looked up before the sources are read. -/
def convertFiles (settings : Settings) (inputs : List String) :
    ExceptT ConversionError m ConversionSummary := do
  let passes ← ExceptT.mk (return (Pass.ofNames settings.passes).mapError .pass)
  let (graph, diagnostics) ← loadSources fs ({}, []) inputs
  let graph ← ExceptT.mk (return (graph.transform passes).mapError .pass)
  let groups ← ExceptT.mk (return (Emit.groups graph).mapError .emit)
  return ⟨← writeFiles fs settings.output graph groups, diagnostics⟩

end Files

namespace Program

/-- The name and version of the program. -/
def version : String :=
  "o2s 0.1.0 - Objective-C to Swift rewriter"

/-- Help on a command, or on all of them. -/
def help : Option String → List String
  | some "rewrite" =>
    ["Rewrite Objective-C syntax trees (JSON) into Swift files", "",
      "Usage: o2s rewrite [OPTIONS] <INPUTS>...", "",
      "Arguments:",
      "  <INPUTS>...  Input syntax tree files, named after their source (`Feed.m.json`)", "",
      "Options:",
      "  -o, --output <OUTPUT>        Output directory for .swift files",
      "  -c, --config <CONFIG>        Configuration file (TOML)",
      "      --log-level <LOG_LEVEL>  Log level for stderr output " ++
        "[possible values: trace, debug, info, warn, error]",
      "      --passes <PASSES>        Comma separated pass names, in execution order",
      "  -j, --jobs <JOBS>            Worker threads for parsing; 1 disables parallel parsing",
      "  -h, --help                   Print help"]
  | some "passes" =>
    ["List the default intention passes in execution order", "", "Usage: o2s passes", "",
      "Options:", "  -h, --help  Print help"]
  | some "version" =>
    ["Show version information", "", "Usage: o2s version", "",
      "Options:", "  -h, --help  Print help"]
  | some _ =>
    ["Print this message or the help of the given subcommand(s)", "",
      "Usage: o2s help [COMMAND]...", "", "Arguments:",
      "  [COMMAND]...  Print help for the subcommand(s)"]
  | none =>
    ["Rewrites Objective-C syntax trees into Swift source", "", "Usage: o2s [COMMAND]", "",
      "Commands:",
      "  rewrite  Rewrite Objective-C syntax trees (JSON) into Swift files",
      "  passes   List the default intention passes in execution order",
      "  version  Show version information",
      "  help     Print this message or the help of the given subcommand(s)", "",
      "Options:", "  -h, --help  Print help"]

/-- What the program shows when it does not accept its arguments. -/
def refuse : ArgumentError → ProgramOutcome
  | .help command => { output := help command }
  | .missingInputs => { status := 2, messages := ["error: the input files are missing"] }
  | .unknownArgument => { status := 2, messages := ["error: unexpected argument found"] }
  | .invalidValue => { status := 2, messages := ["error: invalid or missing value"] }
  | .badNumber => { status := 2, messages := ["error: invalid number"] }
  | .repeated => { status := 2, messages := ["error: an option was given more than once"] }
  | .needlessValue => { status := 2, messages := ["error: a flag takes no value"] }
  | .unknownCommand => { status := 2, messages := ["error: unrecognized subcommand"] }

/-- What the program shows after a conversion. Errors in the sources make it fail, but only after
all files were written. A type that overflows ends it with a status of its own. -/
def report (directory : String) : Except ConversionError ConversionSummary → ProgramOutcome
  | .error .overflow => { status := 101, messages := [ConversionError.overflow.message] }
  | .error e => { status := 1, messages := ["Error: rewrite failed", e.message] }
  | .ok summary =>
    let errors := (Diagnostic.ofSeverity .error summary.diagnostics).length
    let failed := Diagnostic.anyError summary.diagnostics
    { status := if failed then 1 else 0
      output := summary.written.map (Path.join directory)
      messages := summary.diagnostics.map (·.text) ++
        if failed then ["Error: rewrite finished with " ++ Text.decimal errors ++ " error(s)"]
        else [] }

/-- Runs a command. -/
def execute {m : Type → Type} [Monad m] (fs : FileAccess m) : Command → m ProgramOutcome
  | .greet => return { output := [version, "Run 'o2s --help' for usage information."] }
  | .version => return { output := [version] }
  | .passes => return { output := Pass.standard.map Pass.name }
  | .convert arguments => do
    match ← loadSettings fs arguments.config with
    | none =>
      let path := arguments.config.getD ""
      return { status := 1, messages := ["Error: failed to load configuration " ++ path] }
    | some base =>
      let settings := base.withLayers [arguments.layer]
      return report settings.output.directory (← (convertFiles fs settings arguments.inputs).run)

/-- Runs the program with its arguments. -/
def run {m : Type → Type} [Monad m] (fs : FileAccess m) (arguments : List String) :
    m ProgramOutcome :=
  match Command.parse false arguments with
  | .error e => return refuse e
  | .ok command => execute fs command

end Program

end ObjcSwift
