import CommandShell.Shell.Status

/-!
The commands that the shell runs itself.
-/

namespace CommandShell

inductive Builtin where
  | exit
  | cd
  | jobs
  | help
  deriving DecidableEq, Repr

namespace Builtin

def ofName? : String → Option Builtin
  | "exit" => some .exit
  | "cd" => some .cd
  | "jobs" => some .jobs
  | "help" => some .help
  | _ => none

/-- The directory to go to: the argument, or the home directory. -/
def cdTarget (arguments : List String) (store : Store) : Except Fault String :=
  match arguments[1]? with
  | some path => .ok path
  | none =>
    match store.get? "HOME" with
    | some home => .ok home
    | none => .error .homeUnset

/-- Go to a directory. The variable `PWD` holds where that is. -/
def changeDirectory (arguments : List String) : Routine Unit := do
  let shell ← Routine.get
  let path ← Routine.ofExcept (cdTarget arguments shell.store)
  match ← Routine.ask (.changeDirectory path) with
  | .error errno => Routine.fail (.call errno)
  | .ok () =>
    match ← Routine.ask .currentDirectory with
    | .error failure => Routine.fail (.stream failure)
    | .ok directory => Routine.modify fun shell => shell.setVariable "PWD" directory

/-- Print lines until one cannot be printed. -/
def printEach : List String → Routine Unit
  | [] => pure ()
  | line :: lines => do
    Routine.print line
    printEach lines

/-- A line for each job, or one to say that there is none. -/
def jobLines (jobs : Jobs) : List String :=
  if jobs.isEmpty then ["No background jobs."]
  else jobs.pids.map fun pid => "Background job: PID " ++ toString pid

def helpLines : List String :=
  ["Built-in commands:", "  exit: Exit the shell",
    "  cd [dir]: Change the current directory to [dir]", "  jobs: List background jobs",
    "  help: Display this help message"]

def perform : Builtin → List String → Routine Unit
  | .exit, _ => Routine.fail (.exit 0)
  | .cd, arguments => changeDirectory arguments
  | .jobs, _ => do
    let shell ← Routine.get
    printEach (jobLines shell.jobs)
  | .help, _ => printEach helpLines

/-- The status of a command: zero, or the number of the failure it reports. A request to end the
shell is passed on. -/
def settle (name : String) (routine : Routine Unit) : Routine Int := do
  match ← routine.attempt with
  | .ok () => pure Status.success
  | .error (.exit code) => Routine.fail (.exit code)
  | .error cause =>
    Routine.complain (name ++ ": " ++ cause.message)
    pure cause.number

def run (arguments : List String) : Routine Int :=
  let name := arguments.headD ""
  settle name <|
    match ofName? name with
    | some builtin => builtin.perform arguments
    | none => Routine.fail (.internal ("not a builtin: " ++ name))

end Builtin

end CommandShell
