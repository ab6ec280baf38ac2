import CommandShell.Shell.Loop

/-!
Running scripts. A failure ends the statement it happens in and no more; only the request to end the
shell goes further.
-/

namespace CommandShell

/-- Fork a process for a statement and keep it as a job. -/
def startJob (command : Command) : Routine Unit := do
  let shell ← Routine.get
  match ← Routine.ask (.fork (.job command shell)) with
  | .ok pid =>
    Routine.modify fun shell => { shell with jobs := (shell.jobs.insert pid).2 }
    Routine.say ("Started background job: PID " ++ toString pid)
  | .error errno => complainOfFork errno

/-- Run a statement in the foreground and keep its status. A failure is reported and its number is
the status. -/
def settleStatement (routine : Routine Int) : Routine Int := do
  match ← routine.attempt with
  | .ok status =>
    Routine.modify fun shell => shell.setStatus status
    pure status
  | .error (.exit code) => Routine.fail (.exit code)
  | .error cause =>
    Routine.report cause.message
    Routine.modify fun shell => shell.setStatus cause.number
    pure cause.number

/-- Give a variable the first of its values, or the empty text if there is none. -/
def assign (name : String) (value : List Word) : Routine Int := do
  Routine.modify fun shell =>
    shell.setVariable name (Expansion.arguments shell.store value).head?
  pure Status.success

mutual

/-- Do what a statement does, in this process. -/
def runCommand : Command → Routine Int
  | .pipeline stages => runPipeline stages
  | .assignment name value => assign name value
  | .conditional branches fallback => runBranches branches (runFallback fallback)
  | .loop parallel binder values body => do
    let shell ← Routine.get
    let arguments := Expansion.arguments shell.store values
    if parallel then runAtOnce binder.text body arguments
    else runEach binder.text (runStatements Status.success body) Status.success arguments

/-- Run the body of the first branch whose test succeeds. -/
def runBranches : List Branch → Routine Int → Routine Int
  | [], otherwise => otherwise
  | .mk test body :: branches, otherwise => do
    let status ← runPipeline test
    if status = Status.success then runStatements Status.success body
    else runBranches branches otherwise

def runFallback : Option (List Statement) → Routine Int
  | none => pure Status.success
  | some body => runStatements Status.success body

/-- Run a statement in the foreground or in the background. -/
def runStatement : Statement → Routine Int
  | .mk command background =>
    if background then do
      startJob command
      pure Status.success
    else settleStatement (runCommand command)

/-- Run statements in order. The status is that of the last one, or the given one if there is
none. -/
def runStatements (status : Int) : List Statement → Routine Int
  | [] => pure status
  | statement :: statements => do
    let status ← runStatement statement
    runStatements status statements

end

def Script.run (script : Script) : Routine Int := runStatements Status.success script

end CommandShell
