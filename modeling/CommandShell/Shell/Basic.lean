import CommandShell.Jobs
import CommandShell.Options.Basic
import CommandShell.Store

/-!
The state of a running shell. A forked process works on a copy of it, so that nothing it changes
there is seen by the shell.
-/

namespace CommandShell

/-- How the programs of a process are run. -/
structure Flags where
  /-- The process has no further work, so a program may take its place. -/
  inPlace : Bool := false
  /-- The process is a stage of a pipeline. -/
  inPipeline : Bool := false
  deriving DecidableEq, Repr

/-- What a script can see and change. -/
structure Shell where
  store : Store
  jobs : Jobs
  options : Options
  flags : Flags
  /-- The status of the last statement in the foreground. -/
  status : Int
  deriving DecidableEq, Repr

namespace Shell

def setVariable (shell : Shell) (name : String) (value : Option String) : Shell :=
  { shell with store := shell.store.set name value }

/-- Keep a status, which is also the variable `?`. -/
def setStatus (shell : Shell) (status : Int) : Shell :=
  { shell.setVariable "?" (some (toString status)) with status := status }

/-- A new shell, with the variables of the process it runs in. -/
def start (options : Options) (environment : List (String × String)) : Shell :=
  setStatus
    { store := Store.ofEnvironment environment
      jobs := Jobs.empty
      options := options
      flags := {}
      status := 0 }
    0

/-- The prompt: the variable `PS1`, or the one in the options. -/
def prompt (shell : Shell) : String :=
  (shell.store.get? "PS1").getD shell.options.prompt.primary

end Shell

end CommandShell
