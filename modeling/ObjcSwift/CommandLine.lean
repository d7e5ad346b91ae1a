import ObjcSwift.Settings
import ObjcSwift.Text.Path

/-!
# The command line

The first argument names a command. The one that converts takes input files and options, the others
take nothing. An option is given as `--name value`, `--name=value`, `-nvalue`, `-n=value` or
`-n value`; after `--` there are only input files.

Values are checked late: an option waits with its value until the next one, or until the end
(`ConvertParse.settle`). So an unknown option is reported before a bad value that precedes it.
-/

namespace ObjcSwift

/-- Why arguments are not accepted. -/
inductive ArgumentError
  /-- There is no input file. -/
  | missingInputs
  /-- There is no such option, or no place for the argument. -/
  | unknownArgument
  /-- The value of an option is missing or not one of those allowed, or a path is empty. -/
  | invalidValue
  /-- A value is not a number that fits into 64 bits. -/
  | badNumber
  /-- An option was given twice. -/
  | repeated
  /-- A flag was given a value. -/
  | needlessValue
  /-- There is no such command. -/
  | unknownCommand
  /-- Help on a command is asked for, or on all of them. -/
  | help (command : Option String)
deriving DecidableEq

/-- The arguments of a conversion. -/
structure ConvertArguments where
  /-- The input files. -/
  inputs : List String := []
  /-- The directory for the files. -/
  output : Option String := none
  /-- The settings file. -/
  config : Option String := none
  /-- How much is logged. -/
  level : Option LogLevel := none
  /-- The names of the passes. -/
  passes : Option (List String) := none
  /-- The number of workers. -/
  jobs : Option Nat := none
deriving DecidableEq

/-- What is asked for. -/
inductive Command
  /-- Nothing in particular. -/
  | greet
  /-- The names of the passes. -/
  | passes
  /-- The version. -/
  | version
  /-- A conversion. -/
  | convert (arguments : ConvertArguments)
deriving DecidableEq

/-- The options of a conversion. -/
inductive ConvertOption
  /-- `-o`, `--output` -/
  | output
  /-- `-c`, `--config` -/
  | config
  /-- `--log-level` -/
  | level
  /-- `--passes` -/
  | passes
  /-- `-j`, `--jobs` -/
  | jobs
deriving DecidableEq

/-- The overrides that the options of a conversion are. -/
def ConvertArguments.layer (a : ConvertArguments) : SettingsLayer :=
  .ofFlags a.output a.level a.passes a.jobs

/-! ### The form of an argument -/

/-- What an argument is by its form. -/
inductive ArgumentForm
  /-- `--` -/
  | separator
  /-- `--name` or `--name=value` -/
  | long (name : String) (value : Option String)
  /-- `-n` with what follows in the same argument. -/
  | short (name : Char) (rest : List Char)
  /-- Anything else. -/
  | plain

/-- The form of an argument. -/
def ArgumentForm.of (argument : String) : ArgumentForm :=
  match argument.toList with
  | ['-', '-'] => .separator
  | '-' :: '-' :: rest =>
    .long (String.ofList (rest.takeWhile (· != '=')))
      (match rest.dropWhile (· != '=') with
        | _ :: value => some (String.ofList value)
        | [] => none)
  | '-' :: c :: rest => .short c rest
  | _ => .plain

/-- The value in the same argument as a short option. -/
def attachedValue? : List Char → Option String
  | [] => none
  | '=' :: value => some (String.ofList value)
  | value => some (String.ofList value)

/-! ### Values -/

/-- A path, which is not empty. -/
def readPath (value : String) : Except ArgumentError String :=
  if value.isEmpty then .error .invalidValue else .ok value

/-- A level, in letters of either case. -/
def readLevel (value : String) : Except ArgumentError LogLevel :=
  match LogLevel.ofName? (String.ofList (value.toList.map Char.toLower)) with
  | some level => .ok level
  | none => .error .invalidValue

/-- A natural number of 64 bits, possibly after a plus sign. -/
def readNumber (value : String) : Except ArgumentError Nat :=
  let digits := match value.toList with
    | '+' :: rest => rest
    | cs => cs
  let n := digits.foldl (fun n c => 10 * n + (c.toNat - '0'.toNat)) 0
  if !digits.isEmpty && digits.all Char.isDigit && n < UInt64.size then .ok n else .error .badNumber

/-- The parts of a value between commas. -/
def readNames (value : String) : List String :=
  (Path.splitAtChar ',' value.toList).map String.ofList

/-! ### Conversions -/

/-- What a waiting value is for. -/
inductive ArgumentSlot
  /-- An option. -/
  | option (o : ConvertOption)
  /-- The input files. -/
  | inputs
deriving DecidableEq

/-- How far the arguments of a conversion are read. -/
structure ConvertParse where
  /-- What was accepted. -/
  accepted : ConvertArguments := {}
  /-- Values that wait to be checked. -/
  waiting : Option (ArgumentSlot × List String) := none
  /-- Whether the next argument is the value of the waiting option. -/
  expectsValue : Bool := false
  /-- Whether only input files follow. -/
  onlyInputs : Bool := false

namespace ConvertOption

/-- The option of a long name. -/
def ofLong? (name : String) : Option ConvertOption :=
  [("output", output), ("config", config), ("log-level", level), ("passes", passes),
    ("jobs", jobs)].lookup name

/-- The option of a short name. -/
def ofShort? (name : Char) : Option ConvertOption :=
  [('o', output), ('c', config), ('j', jobs)].lookup name

/-- Whether arguments have an option already. Names of passes may be given several times. -/
def isTaken (a : ConvertArguments) : ConvertOption → Bool
  | output => a.output.isSome
  | config => a.config.isSome
  | level => a.level.isSome
  | passes => false
  | jobs => a.jobs.isSome

/-- Arguments with the value of an option. -/
def store (a : ConvertArguments) (value : String) :
    ConvertOption → Except ArgumentError ConvertArguments
  | output => return { a with output := some (← readPath value) }
  | config => return { a with config := some (← readPath value) }
  | level => return { a with level := some (← readLevel value) }
  | passes => return { a with passes := some (a.passes.getD [] ++ readNames value) }
  | jobs => return { a with jobs := some (← readNumber value) }

/-- Arguments with an option, which takes one value and, apart from passes, is given once. -/
def accept (a : ConvertArguments) (o : ConvertOption) :
    List String → Except ArgumentError ConvertArguments
  | [] => .error .invalidValue
  | value :: _ => if o.isTaken a then .error .repeated else o.store a value

end ConvertOption

namespace ConvertParse

/-- Checks the values that wait. -/
def settle (p : ConvertParse) : Except ArgumentError ConvertParse :=
  match p.waiting with
  | none => .ok p
  | some (.option o, values) =>
    return { p with accepted := ← o.accept p.accepted values, waiting := none }
  | some (.inputs, values) => do
    let inputs ← values.mapM readPath
    return { p with accepted.inputs := p.accepted.inputs ++ inputs, waiting := none }

/-- Takes an option whose value may be in the same argument. -/
def takeOption (p : ConvertParse) (o : ConvertOption) (attached : Option String) :
    Except ArgumentError ConvertParse := do
  let p ← p.settle
  match attached with
  | some value => return { p with accepted := ← o.accept p.accepted [value], expectsValue := false }
  | none => return { p with waiting := some (.option o, []), expectsValue := true }

/-- Asks for help, after what waits. -/
def takeHelp (p : ConvertParse) : Except ArgumentError ConvertParse := do
  let _ ← p.settle
  .error (.help "rewrite")

/-- Takes an input file. -/
def takeInput (p : ConvertParse) (input : String) : Except ArgumentError ConvertParse :=
  match p.waiting with
  | some (.inputs, values) => .ok { p with waiting := some (.inputs, values ++ [input]) }
  | _ => return { ← p.settle with waiting := some (.inputs, [input]) }

/-- Takes an argument that is no option. -/
def takePlain (p : ConvertParse) (argument : String) : Except ArgumentError ConvertParse :=
  match p.expectsValue, p.waiting with
  | true, some (slot, _) => .ok { p with waiting := some (slot, [argument]), expectsValue := false }
  | _, _ => p.takeInput argument

/-- Takes an argument. -/
def take (p : ConvertParse) (argument : String) : Except ArgumentError ConvertParse :=
  if p.onlyInputs then p.takeInput argument
  else
    match ArgumentForm.of argument with
    | .separator => .ok { p with onlyInputs := true }
    | .long name value =>
      match ConvertOption.ofLong? name with
      | some o => p.takeOption o value
      | none =>
        if name ≠ "help" then .error .unknownArgument
        else if value.isSome then .error .needlessValue
        else p.takeHelp
    | .short name rest =>
      match ConvertOption.ofShort? name with
      | some o => p.takeOption o (attachedValue? rest)
      | none => if name = 'h' then p.takeHelp else .error .unknownArgument
    | .plain => p.takePlain argument

/-- Reads the arguments of a conversion. -/
def run (arguments : List String) : Except ArgumentError ConvertArguments := do
  let p ← arguments.foldlM take {}
  let p ← p.settle
  if p.accepted.inputs.isEmpty then .error .missingInputs else .ok p.accepted

end ConvertParse

/-! ### Commands -/

namespace Command

/-- The names of the commands, `help` included. -/
def names : List String :=
  ["rewrite", "passes", "version", "help"]

/-- Reads the arguments of a command that takes none. -/
def runPlain (name : String) (command : Command) (onlyInputs : Bool := false) :
    List String → Except ArgumentError Command
  | [] => .ok command
  | argument :: rest =>
    match onlyInputs, ArgumentForm.of argument with
    | false, .separator => runPlain name command true rest
    | false, .long "help" (some _) => .error .needlessValue
    | false, .long "help" none | false, .short 'h' _ => .error (.help name)
    | _, _ => .error .unknownArgument

/-- Which help is asked for by the arguments of the command `help`. -/
def helpOn : List String → ArgumentError
  | [] => .help none
  | [name] => if names.contains name then .help name else .unknownCommand
  | _ => .unknownCommand

/-- Reads the arguments of the program. -/
def parse (onlyInputs : Bool := false) : List String → Except ArgumentError Command
  | [] => .ok greet
  | argument :: rest =>
    if onlyInputs then
      .error (if names.contains argument then .unknownArgument else .unknownCommand)
    else
      match argument, ArgumentForm.of argument with
      | "rewrite", _ => return convert (← ConvertParse.run rest)
      | "passes", _ => runPlain "passes" passes false rest
      | "version", _ => runPlain "version" version false rest
      | "help", _ => .error (helpOn rest)
      | _, .separator => parse true rest
      | _, .long "help" (some _) => .error .needlessValue
      | _, .long "help" none | _, .short 'h' _ => .error (.help none)
      | _, .long _ _ | _, .short _ _ => .error .unknownArgument
      | _, .plain => .error .unknownCommand

end Command

end ObjcSwift
