import TachoPrint.Command.Session

/-!
# The printing program

The outer layer: it reads the files that the command line names, writes what the session
says, waits as long as the motors would run, and exits with the session's status.
-/

open TachoPrint

/-- What a path leads to.  A refusal's number may come with a negative sign. -/
def readPath (path : String) : IO FileContent := do
  try
    return .ok (← IO.FS.readBinFile path).toList
  catch e =>
    match e with
    | .noFileOrDirectory _ code text
    | .permissionDenied _ code text
    | .inappropriateType _ code text
    | .invalidArgument _ code text
    | .resourceExhausted _ code text
    | .otherError code text => return .error (.ofCode text code.toInt32.toInt.natAbs)
    | _ => return .error (.other e.toString 0)

/-- Wait as long as a run waits.  A run whose delays are skipped has none in its trace. -/
def replay (trace : List Event) : IO Unit :=
  for event in trace do
    match event with
    | .slept micros => IO.sleep ((micros.toNat + 999) / 1000).toUInt32
    | .device _ (.waited millis) => IO.sleep millis
    | _ => pure ()

/-- The help text. -/
def helpText : String :=
  "Print a G-code file on the EV3 printer\n\n" ++
  "Usage: ev3d-print [OPTIONS] [GCODE]\n\n" ++
  "Arguments:\n" ++
  "  [GCODE]  G-code file to print\n\n" ++
  "Options:\n" ++
  "  -c, --config <CONFIG>   TOML printer configuration (defaults to the reference build)\n" ++
  "      --dry-run           drive simulated motors instead of EV3 hardware\n" ++
  "      --fast              with --dry-run, skip the move delays\n" ++
  "      --skip-calibration  do not home the axes before printing\n" ++
  "      --dump              print the parsed instructions as JSON lines and exit\n" ++
  "      --print-config      print the effective configuration as TOML and exit\n" ++
  "  -h, --help              Print help\n" ++
  "  -V, --version           Print version\n"

/-- Run a session on the files of this machine. -/
def runSession (o : Options) : IO UInt32 := do
  let paths := o.setup.toList ++ o.program.toList
  let contents ← paths.mapM fun path => return (path, ← readPath path)
  let read := fun path => (contents.find? (·.1 = path)).elim (.error .notFound) (·.2)
  let session := Session.run o read
  IO.print session.output
  replay session.trace
  match session.ending with
  | .failed e => IO.println ("ERROR ev3d_print: " ++ e.report)
  | _ => pure ()
  return session.exitCode

/-- The printing program. -/
def main (arguments : List String) : IO UInt32 :=
  match Request.ofArguments arguments with
  | .ok (.run o) => runSession o
  | .ok .version => do IO.print versionText; return 0
  | .ok .help => do IO.print helpText; return 0
  | .error e => do IO.eprintln ("error: " ++ e.message); return UsageError.exitCode
