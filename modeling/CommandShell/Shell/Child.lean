import CommandShell.Shell.Run

/-!
What forked processes do. Each of them ends in its own exit and never comes back to what its parent
does.
-/

namespace CommandShell

/-- End a forked process once its share of the work is done. -/
def exitWith : Except Fault Int → Work Empty
  | .ok status => Work.exit (Status.exitCode status)
  | .error (.exit code) => Work.exit code
  | .error cause => do
    Work.tell .errors (shellName ++ ": " ++ cause.message ++ "\n")
    Work.exit 1

/-- Do a routine in a forked process and end. -/
def finish (routine : Routine Int) (shell : Shell) : Work Empty :=
  (routine shell).bind fun outcome => exitWith outcome.1

/-- Make a copy of an open file and close the file itself. -/
def rewire (source target : Descriptor) : Routine Unit := do
  match ← Routine.ask (.duplicate source target) with
  | .ok () => Routine.ask (.close source)
  | .error errno => Routine.fail (.call errno)

/-- Take the ends of pipes that a stage uses for its input and output, and close the others. -/
def connect (wiring : Wiring) : Routine Unit := do
  closeEnd (wiring.target.map Pipe.readEnd)
  match wiring.source with
  | none => pure ()
  | some source => rewire source Descriptor.input
  match wiring.target with
  | none => pure ()
  | some pipe => rewire pipe.writeEnd Descriptor.output

/-- A stage has no further work, so its program may take its place. -/
def stageFlags : Flags := { inPlace := true, inPipeline := true }

def runStage (program : Program) (wiring : Wiring) : Routine Int := do
  connect wiring
  Routine.modify fun shell => { shell with flags := stageFlags }
  runProgram program

/-- A job is the leader of a session of its own. -/
def runJob (command : Command) : Routine Int := do
  match ← Routine.ask .startSession with
  | .ok () => runCommand command
  | .error errno => Routine.fail (.call errno)

def Child.work : Child → Work Empty
  | .program arguments => becomeProgram arguments
  | .stage words wiring shell => finish (runStage words wiring) shell
  | .iteration body shell => finish (Script.run body) shell
  | .job command shell => finish (runJob command) shell

end CommandShell
