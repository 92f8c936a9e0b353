import TachoPrint.Command.Options
import TachoPrint.Gcode.Json
import TachoPrint.Gcode.Program
import TachoPrint.Machine.Head
import TachoPrint.Setup.Reading
import TachoPrint.Setup.Writing
import TachoPrint.Text.Terminal

/-!
# Sessions

A session is one run of the printing program: it loads the setup, reads the program,
and then writes, refuses or prints it.

## Main definitions

* `SessionError` — why a session fails.
* `Delay` — whether the delays of a run take their time.
* `Session` — what a session writes, what happens to the hardware, and how it ends.
* `Session.run` — the session that options ask for.
* `printJob`, `dryRun` — home the axes and run a program, and that on simulated hardware.
-/

namespace TachoPrint

/-- Why a session fails. -/
inductive SessionError where
  /-- The setup cannot be loaded. -/
  | setup (path : String) (cause : SetupError)
  /-- The setup cannot be written. -/
  | output (cause : SetupError)
  /-- There is no program. -/
  | noProgram
  /-- The program cannot be read. -/
  | program (path : String) (cause : ProgramError)
  /-- There is no real hardware. -/
  | noHardware
  /-- The hardware cannot be prepared. -/
  | assembly (cause : DeviceError)
  /-- The axes cannot be homed. -/
  | homing (cause : DeviceError)
  /-- An instruction is refused. -/
  | printing (cause : DeviceError)
  deriving DecidableEq

namespace SessionError

/-- What is reported of a failure: from the step that failed to what lies behind. -/
def chain : SessionError → List String
  | setup path cause =>
      ["unable to load config " ++ path, cause.message] ++
        cause.fileError?.toList.map FileError.message
  | output cause => [cause.message]
  | noProgram => ["no G-code file given"]
  | program path cause =>
      ["unable to parse " ++ path, cause.message] ++ cause.fileError?.toList.map FileError.message
  | noHardware =>
      ["built without EV3 support, rebuild with \x60--features ev3\x60 or pass --dry-run"]
  | assembly cause => [cause.message]
  | homing cause => ["calibration failed", cause.message]
  | printing cause => ["print failed", cause.message]

/-- The wording of a failure. -/
def message (e : SessionError) : String := ": ".intercalate e.chain

/-- What a terminal is given to show of a failure. -/
def report (e : SessionError) : String := spelledOut e.message

end SessionError

/-! ### Delays -/

/-- A delay, of the head itself or between two reads of an endstop. -/
def Event.isDelay : Event → Bool
  | .slept _ => true
  | .device _ (.waited _) => true
  | .device _ _ => false

/-- What carries out the delays of a run. -/
inductive Delay where
  /-- A delay takes its time. -/
  | real
  /-- A delay is over at once, as if nobody had asked for it. -/
  | skipped
  deriving DecidableEq, Repr

/-- What happens of a trace if its delays are carried out in that way. -/
def Delay.keep : Delay → List Event → List Event
  | .real, trace => trace
  | .skipped, trace => trace.filter (!·.isDelay)

/-- The same action with its delays carried out in that way. -/
def Delay.through {σ ε α : Type} (delay : Delay) (x : Action Event σ ε α) : Action Event σ ε α :=
  fun s =>
    let run := x s
    { run with trace := delay.keep run.trace }

/-! ### Jobs -/

/-- Home the axes, unless that is skipped, and run a program. -/
def printJob (program : List Instruction) (skipHoming : Bool) :
    Action Event Head SessionError Unit := do
  if !skipHoming then
    Head.calibrate.mapError .homing
  (Head.runProgram program).mapError .printing

/-- Put a simulated head with a way to delay together and print with it. -/
def dryRun (delay : Delay) (setup : PrinterSetup) (program : List Instruction)
    (skipHoming : Bool) : Action Event Unit SessionError Unit := do
  let head ← (Head.assemble setup Head.simulated).mapError .assembly
  let _ ← Action.apart id (delay.through (printJob program skipHoming)) head

/-- What comes of a session. -/
structure Session where
  /-- What is written. -/
  output : String := ""
  /-- What happens to the hardware. -/
  trace : List Event := []
  /-- How it ends. -/
  ending : Outcome SessionError Unit

namespace Session

/-- A session that fails without having done anything. -/
def failed (e : SessionError) : Session := { ending := .failed e }

/-- The setup that a session works with. -/
def loadSetup (read : String → FileContent) : Option String → Except SessionError PrinterSetup
  | none => .ok .standard
  | some path => (PrinterSetup.ofFile path (read path)).mapError (.setup path)

/-- The text of a program: a line for each instruction. -/
def dumpText (program : List Instruction) : String :=
  String.join (program.map fun i => i.json ++ "\n")

/-- A session that works with hardware. -/
def ofRun (run : Run Event Unit SessionError Unit) : Session :=
  { trace := run.trace, ending := run.ending }

/-- A session with its setup loaded. -/
def withSetup (o : Options) (read : String → FileContent) (setup : PrinterSetup) : Session :=
  if o.printSetup then
    match setup.toml? with
    | .ok text => { output := text, ending := .done () }
    | .error e => failed (.output e)
  else match o.program with
    | none => failed .noProgram
    | some path =>
        match Instruction.ofFile path (read path) with
        | .error e => failed (.program path e)
        | .ok program =>
            if o.dump then { output := dumpText program, ending := .done () }
            else if !o.dryRun then failed .noHardware
            else if o.fast then ofRun (dryRun .skipped setup program o.skipHoming ())
            else ofRun (dryRun .real setup program o.skipHoming ())

/-- The session that options ask for; `read` says what paths lead to. -/
def run (o : Options) (read : String → FileContent) : Session :=
  match loadSetup read o.setup with
  | .error e => failed e
  | .ok setup => withSetup o read setup

/-- The exit status of a session. -/
def exitCode (s : Session) : UInt32 :=
  match s.ending with
  | .done _ => 0
  | .failed _ => 1
  | .crashed => 101

end Session

/-- The exit status of a command line that is refused. -/
def UsageError.exitCode : UInt32 := 2

/-- What is written when the version is asked for. -/
def versionText : String := "ev3d-printer 1.0\n"

end TachoPrint
