/-!
# Command line options

## Main definitions

* `Options` — what a run is asked to do.
* `Request` — a run, the version or the help text.
* `UsageError` — why a command line is refused.
* `Request.ofArguments` — the request that a command line makes.
-/

namespace TachoPrint

/-- What a run is asked to do. -/
structure Options where
  /-- The program to print. -/
  program : Option String := none
  /-- The setup of the printer, if it is not the standard one. -/
  setup : Option String := none
  /-- Drive simulated hardware. -/
  dryRun : Bool := false
  /-- Skip the delays of a dry run. -/
  fast : Bool := false
  /-- Do not home the axes first. -/
  skipHoming : Bool := false
  /-- Write the instructions and do nothing else. -/
  dump : Bool := false
  /-- Write the setup and do nothing else. -/
  printSetup : Bool := false
  deriving DecidableEq, Repr, Inhabited

/-- What a command line asks for. -/
inductive Request where
  | run (options : Options)
  | version
  | help
  deriving DecidableEq, Repr, Inhabited

/-- Why a command line is refused. -/
inductive UsageError where
  /-- An option that does not exist. -/
  | unknown (argument : String)
  /-- An option that is given twice. -/
  | repeated (option : String)
  /-- An option without its value. -/
  | missingValue (option : String)
  /-- A value for an option that takes none. -/
  | needlessValue (option : String)
  /-- An empty file name. -/
  | emptyName
  /-- A second program. -/
  | secondProgram (argument : String)
  /-- No program, though one is needed. -/
  | noProgram
  /-- `--fast` without `--dry-run`. -/
  | fastWithoutDryRun
  deriving DecidableEq, Repr

/-- The wording of a refusal. -/
def UsageError.message : UsageError → String
  | unknown a => "unexpected argument '" ++ a ++ "' found"
  | repeated o => "the argument '" ++ o ++ "' cannot be used multiple times"
  | missingValue o => "a value is required for '" ++ o ++ "' but none was supplied"
  | needlessValue o => "unexpected value for '" ++ o ++ "' found; no more were expected"
  | emptyName => "a value is required but none was supplied"
  | secondProgram a => "unexpected argument '" ++ a ++ "' found"
  | noProgram => "the following required arguments were not provided: <GCODE>"
  | fastWithoutDryRun => "the following required arguments were not provided: --dry-run"

namespace Options

/-- A flag that may be given once. -/
def setFlag (name : String) (given : Bool) (o : Options) : Except UsageError Options :=
  if given then .error (.repeated name) else .ok o

/-- The setup file, which may be given once. -/
def setSetup (o : Options) (path : String) : Except UsageError Options :=
  if path = "" then .error .emptyName
  else if o.setup.isSome then .error (.repeated "--config")
  else .ok { o with setup := some path }

/-- The program file, which may be given once. -/
def setProgram (o : Options) (path : String) : Except UsageError Options :=
  if path = "" then .error .emptyName
  else if o.program.isSome then .error (.secondProgram path)
  else .ok { o with program := some path }

/-- A flag by its long name. -/
def flag (o : Options) (name : String) : Except UsageError Options :=
  match name with
  | "dry-run" => setFlag "--dry-run" o.dryRun { o with dryRun := true }
  | "fast" => setFlag "--fast" o.fast { o with fast := true }
  | "skip-calibration" => setFlag "--skip-calibration" o.skipHoming { o with skipHoming := true }
  | "dump" => setFlag "--dump" o.dump { o with dump := true }
  | "print-config" => setFlag "--print-config" o.printSetup { o with printSetup := true }
  | _ => .error (.unknown ("--" ++ name))

/-- What all arguments together have to fulfil. -/
def check (o : Options) : Except UsageError Options :=
  if o.program.isNone && !o.printSetup then .error .noProgram
  else if o.fast && !o.dryRun then .error .fastWithoutDryRun
  else .ok o

end Options

namespace Request

/-- An argument that may stand behind an option as its value: anything that does not
look like an option itself. -/
def isValue (argument : String) : Bool :=
  match argument.toList with
  | '-' :: _ :: _ => false
  | _ => true

/-- How one argument is to be taken. -/
inductive Argument where
  /-- Only file names follow. -/
  | separator
  /-- A long option, with a value behind an equals sign or without. -/
  | long (name : String) (value : Option String)
  /-- Short options together. -/
  | short (letter : Char) (rest : List Char)
  /-- A file name. -/
  | file (path : String)
  deriving DecidableEq, Repr

/-- A long option, split at its first equals sign. -/
def longArgument (cs : List Char) : Argument :=
  let name := String.ofList (cs.takeWhile (· != '='))
  match cs.dropWhile (· != '=') with
  | [] => .long name none
  | _ :: value => .long name (some (String.ofList value))

/-- How an argument is to be taken. -/
def classify (argument : String) : Argument :=
  match argument.toList with
  | ['-', '-'] => .separator
  | '-' :: '-' :: cs => longArgument cs
  | '-' :: c :: rest => .short c rest
  | _ => .file argument

/-- The value that stands in one argument with a short option, possibly behind an
equals sign. -/
def attached : List Char → Option String
  | [] => none
  | '=' :: cs => some (String.ofList cs)
  | cs => some (String.ofList cs)

/-- A flag, the version or the help text by its long name. -/
def longFlag (o : Options) (name : String) : Except UsageError (Options ⊕ Request) :=
  match name with
  | "version" => .ok (.inr .version)
  | "help" => .ok (.inr .help)
  | _ => (o.flag name).map .inl

/-- The options from the arguments on, taken from left to right; the first that is
refused, or that asks for the version or the help text, decides. -/
def collect (o : Options) : List String → Except UsageError Request
  | [] => (o.check).map .run
  | argument :: rest =>
      match classify argument with
      | .separator => do
          let o ← rest.foldlM Options.setProgram o
          return .run (← o.check)
      | .file path => do Request.collect (← o.setProgram path) rest
      | .long "config" (some path) => do Request.collect (← o.setSetup path) rest
      | .long "config" none =>
          match rest with
          | path :: rest =>
              if isValue path then do Request.collect (← o.setSetup path) rest
              else .error (.missingValue "--config")
          | [] => .error (.missingValue "--config")
      | .long name (some _) => do
          let _ ← longFlag {} name
          throw (.needlessValue ("--" ++ name))
      | .long name none =>
          match longFlag o name with
          | .error e => .error e
          | .ok (.inr request) => .ok request
          | .ok (.inl o) => Request.collect o rest
      | .short 'V' _ => .ok .version
      | .short 'h' _ => .ok .help
      | .short 'c' text =>
          match attached text with
          | some path => do Request.collect (← o.setSetup path) rest
          | none =>
              match rest with
              | path :: rest =>
                  if isValue path then do Request.collect (← o.setSetup path) rest
                  else .error (.missingValue "-c")
              | [] => .error (.missingValue "-c")
      | .short _ _ => .error (.unknown argument)

/-- The request that a command line makes. -/
def ofArguments (arguments : List String) : Except UsageError Request :=
  Request.collect {} arguments

end Request

end TachoPrint
