import CommandShell.Script.Dump
import CommandShell.Script.Parse
import CommandShell.Shell.Run

/-!
Running texts. A text that is no script is reported and changes nothing but the status.
-/

namespace CommandShell

def reportUnreadable (error : Error) : Routine Int := do
  Routine.report error.message
  Routine.modify fun shell => shell.setStatus Status.unreadable
  pure Status.unreadable

/-- Run a script, and print it first if that is wanted. -/
def runScript (dump : Bool) (script : Script) : Routine Int := do
  if dump then Routine.complain script.dump
  script.run

def runInput (dump : Bool) (input : String) : Routine Int :=
  match Script.parse input with
  | .ok script => runScript dump script
  | .error error => reportUnreadable error

end CommandShell
