import CommandShell.Shell.Routine

/-!
Waiting for processes, and the statuses that come of it.
-/

namespace CommandShell

namespace Status

def success : Int := 0

/-- The status when a process was killed, or when there is no code to report at all. -/
def failure : Int := -1

/-- The status of a text that is no script. -/
def unreadable : Int := 2

/-- The exit code that stands for a status: itself if a process can have it. -/
def exitCode (status : Int) : Int := if 0 ≤ status ∧ status ≤ 255 then status else 1

end Status

namespace Routine

/-- The status that comes of a wait. The user is told of a signal. -/
def statusOfWait : WaitStatus → Routine Int
  | .exited _ code => pure code
  | .signaled pid signal _ => do
    say ("Child " ++ toString pid ++ " terminated by signal " ++ toString signal)
    pure Status.failure
  | _ => pure Status.failure

/-- Whether a wait has to be repeated. -/
def wasInterrupted : Except Errno WaitStatus → Bool
  | .error .interrupted => true
  | _ => false

/-- Wait for a process, again if that is interrupted. -/
def waitFor (pid : Pid) : Routine (Except Errno WaitStatus) :=
  lift (.callWhile (Call.wait pid) wasInterrupted)

def complainOfWait (errno : Errno) : Routine Unit := complain ("waitpid: " ++ errno.report)

def waitChild (pid : Pid) : Routine Int := do
  match ← waitFor pid with
  | .ok status => statusOfWait status
  | .error errno =>
    complainOfWait errno
    pure Status.failure

/-- Wait for a process without a word about how it ended. -/
def reapQuietly (pid : Pid) : Routine Unit := do
  match ← waitFor pid with
  | .ok _ => pure ()
  | .error errno => complainOfWait errno

/-- Wait for a job and say how it ended. -/
def reapJob (pid : Pid) : Routine Unit := do
  match ← ask (.wait pid) with
  | .ok (.exited pid code) =>
    say ("Child " ++ toString pid ++ " exited with status " ++ toString code)
  | .ok (.signaled pid signal _) =>
    say ("Child " ++ toString pid ++ " terminated by signal " ++ toString signal)
  | .ok _ => pure ()
  | .error errno => complainOfWait errno

def reapEach : List Pid → Routine Unit
  | [] => pure ()
  | pid :: pids => do
    reapJob pid
    reapEach pids

/-- Wait for all the jobs and forget them. -/
def reapAll : Routine Unit := do
  let shell ← get
  let (pids, jobs) := shell.jobs.drain
  modify fun shell => { shell with jobs := jobs }
  reapEach pids

theorem reapAll_eq :
    reapAll = (do
      let shell ← get
      modify fun shell => { shell with jobs := .empty }
      reapEach shell.jobs.pids) := by
  simp only [reapAll, Jobs.drain_eq]

/-- What is done before the shell ends. -/
def tearDown : Routine Unit := do
  let shell ← get
  if shell.options.run.waitAtExit then reapAll else pure ()

end Routine

end CommandShell
