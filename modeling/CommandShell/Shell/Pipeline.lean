import CommandShell.Expansion
import CommandShell.Shell.Builtin

/-!
Running programs and pipelines. A program is run by a process of its own, a pipeline by one for each
of its stages, all of them at once.
-/

namespace CommandShell

def complainOfFork (errno : Errno) : Routine Unit := Routine.complain ("fork: " ++ errno.report)

/-- Why a program could not be started, and the exit code that stands for it. -/
def startFailure (name : String) : Errno → Fault × Int
  | .noEntry => (.notFound name, 127)
  | .accessDenied => (.notPermitted name, 126)
  | errno => (.notRun (name ++ ": " ++ errno.description), 126)

/-- Become another program. If that fails the process ends. -/
def becomeProgram (arguments : List String) : Work Empty :=
  match arguments with
  | [] => Work.exit Status.success
  | name :: _ => do
    let errno ← Work.ask (.replace arguments)
    let failure := startFailure name errno
    Work.tell .errors (shellName ++ ": " ++ failure.1.message ++ "\n")
    Work.exit failure.2

/-- Run one program. What the shell does itself is done in this process, as is a program that may
take its place; any other is forked and waited for. -/
def runProgram (program : Program) : Routine Int := do
  let shell ← Routine.get
  let arguments := Expansion.arguments shell.store program
  match arguments with
  | [] => pure Status.success
  | name :: _ =>
    if (Builtin.ofName? name).isSome then Builtin.run arguments
    else if shell.flags.inPlace then
      let never ← Routine.lift (becomeProgram arguments)
      nomatch never
    else
      match ← Routine.ask (.fork (.program arguments)) with
      | .ok pid => Routine.waitChild pid
      | .error errno =>
        complainOfFork errno
        pure Status.failure

/-- Processes that were started, the latest first, and whether these are all that were wanted. -/
structure Started where
  pids : List Pid
  complete : Bool
  deriving DecidableEq, Repr

def closeEnd : Option Descriptor → Routine Unit
  | none => pure ()
  | some descriptor => Routine.ask (.close descriptor)

def closePipe : Option Pipe → Routine Unit
  | none => pure ()
  | some pipe => do
    Routine.ask (.close pipe.readEnd)
    Routine.ask (.close pipe.writeEnd)

/-- The pipe behind a stage: none behind the last one. -/
def openPipe (last : Bool) : Routine (Except Errno (Option Pipe)) :=
  if last then pure (.ok none)
  else do
    match ← Routine.ask .openPipe with
    | .ok pipe => pure (.ok (some pipe))
    | .error errno => pure (.error errno)

/-- Start the stages from left to right until a pipe or a process cannot be had. `source` is the end
that the next stage reads from, and `pids` are the stages before it, the latest first. -/
def startStages (source : Option Descriptor) (pids : List Pid) : List Program → Routine Started
  | [] => do
    closeEnd source
    pure ⟨pids, true⟩
  | program :: programs => do
    match ← openPipe programs.isEmpty with
    | .error errno =>
      Routine.complain ("pipe: " ++ errno.report)
      closeEnd source
      pure ⟨pids, false⟩
    | .ok target =>
      let shell ← Routine.get
      match ← Routine.ask (.fork (.stage program ⟨source, target⟩ shell)) with
      | .error errno =>
        complainOfFork errno
        closePipe target
        closeEnd source
        pure ⟨pids, false⟩
      | .ok pid =>
        closeEnd (target.map Pipe.writeEnd)
        closeEnd source
        startStages (target.map Pipe.readEnd) (pid :: pids) programs

/-- Wait for processes one after the other, without a word about how they ended. -/
def reapQuietlyEach : List Pid → Routine Unit
  | [] => pure ()
  | pid :: pids => do
    Routine.reapQuietly pid
    reapQuietlyEach pids

/-- Run a pipeline. Its status is that of its last stage, once all of them have ended. -/
def runPipeline : Pipeline → Routine Int
  | [program] => runProgram program
  | programs => do
    let started ← startStages none [] programs
    match started.pids with
    | [] => pure Status.failure
    | last :: others =>
      reapQuietlyEach others.reverse
      let status ← Routine.waitChild last
      pure (if started.complete then status else Status.failure)

end CommandShell
