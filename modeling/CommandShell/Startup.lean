import CommandShell.CommandLine.Parse
import CommandShell.Options.Decode
import CommandShell.Session

/-!
The shell as a program: from its command line to its exit code.
-/

namespace CommandShell

def inDirectory (directory name : String) : String :=
  if directory.isEmpty || directory.endsWith "/" then directory ++ name
  else directory ++ "/" ++ name

def historyPath? (environment : List (String × String)) : Option String :=
  (environment.lookup "HOME").map fun home => inDirectory home ".pish_history"

namespace Options

def load (path : String) : Work (Except Fault Options) := do
  match ← Work.ask (.readFile path) with
  | .ok text => return decode text
  | .error failure => return .error (.stream failure)

/-- The options in the given file, or in the one in the home directory if there is one. -/
def loadOrDefault (path : Option String) (environment : List (String × String)) :
    Work (Except Fault Options) :=
  match path with
  | some path => load path
  | none =>
    match environment.lookup "HOME" with
    | none => return .ok {}
    | some home => do
      let path := inDirectory home ".pishrc.json"
      let found : Bool ← Work.ask (.isFile path)
      if found then load path else return .ok {}

end Options

namespace Startup

open CommandLine (Arguments Request)

/-- Run what the command line asks for. Without a script and commands, lines are taken from the
terminal if there is one, and else the standard input is a script. -/
def runArguments (arguments : Arguments) (terminal : Option (List Entry)) : Routine Unit := do
  match arguments.commands, arguments.script, terminal with
  | some commands, _, _ =>
    let _ ← runInput arguments.dump commands
  | none, some path, _ =>
    match ← Routine.ask (.readFile path) with
    | .ok text =>
      let _ ← runInput arguments.dump text
    | .error failure => Routine.fail (.stream failure)
  | none, none, some entries => Session.run arguments.dump "" entries
  | none, none, none =>
    match ← Routine.ask .readInput with
    | .ok text =>
      let _ ← runInput arguments.dump text
    | .error failure => Routine.fail (.stream failure)

/-- What is done at the end, and the exit code. The request to end the shell is met on the spot. -/
def conclude : Except Fault Unit → Routine Int
  | .ok () => do
    Routine.tearDown
    let shell ← Routine.get
    pure (Status.exitCode shell.status)
  | .error (.exit code) => pure code
  | .error cause => do
    Routine.report cause.message
    Routine.tearDown
    pure 1

def runToCode (arguments : Arguments) (terminal : Option (List Entry)) : Routine Int := do
  let outcome ← (runArguments arguments terminal).attempt
  conclude outcome

/-- A shell with the options that the command line asks for, or with the defaults if those cannot be
had. -/
def startShell (arguments : Arguments) (environment : List (String × String)) : Work Shell := do
  match ← Options.loadOrDefault arguments.optionsFile environment with
  | .ok options => return Shell.start options environment
  | .error cause =>
    Work.tell .errors (shellName ++ ": " ++ cause.message ++ "\n")
    return Shell.start {} environment

def run (words : List String) (environment : List (String × String))
    (terminal : Option (List Entry)) : Work Empty := do
  let written (text : Text.Styled) := text.written (CommandLine.asksForStyles environment)
  match CommandLine.parse words with
  | .error mistake =>
    Work.write .errors (written mistake.message)
    Work.exit 2
  | .ok .help =>
    Work.write .output (written CommandLine.helpText)
    Work.exit 0
  | .ok .version =>
    Work.write .output (written CommandLine.versionText)
    Work.exit 0
  | .ok (.run arguments) =>
    let shell ← startShell arguments environment
    let outcome ← runToCode arguments terminal shell
    match outcome.1 with
    | .ok code => Work.exit code
    | .error _ => Work.exit 1

end Startup

end CommandShell
