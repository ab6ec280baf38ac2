import CommandShell.Shell.Pipeline

/-!
The two kinds of loops: one round after the other in the shell itself, and all rounds at once, each
in a process of its own.
-/

namespace CommandShell

/-- Run the body for each value in turn, with the value in a variable. The status is that of the
last round, or the given one if there is none. -/
def runEach (name : String) (body : Routine Int) (status : Int) : List String → Routine Int
  | [] => pure status
  | value :: values => do
    Routine.modify fun shell => shell.setVariable name (some value)
    let status ← body
    runEach name body status values

/-- Fork a process for each value until that fails; `pids` are those before, the latest first. -/
def forkEach (name : String) (body : Script) (pids : List Pid) : List String → Routine Started
  | [] => pure ⟨pids, true⟩
  | value :: values => do
    Routine.modify fun shell => shell.setVariable name (some value)
    let shell ← Routine.get
    match ← Routine.ask (.fork (.iteration body shell)) with
    | .ok pid => forkEach name body (pid :: pids) values
    | .error errno =>
      complainOfFork errno
      pure ⟨pids, false⟩

/-- Wait for each process in turn. The status is that of the last one. -/
def waitEach (status : Int) : List Pid → Routine Int
  | [] => pure status
  | pid :: pids => do
    let status ← Routine.waitChild pid
    waitEach status pids

/-- Run all the rounds at once and wait for them. -/
def runAtOnce (name : String) (body : Script) (values : List String) : Routine Int := do
  let started ← forkEach name body [] values
  let status ← waitEach Status.success started.pids.reverse
  pure (if started.complete then status else Status.failure)

end CommandShell
