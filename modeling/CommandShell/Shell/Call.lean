import CommandShell.Action
import CommandShell.Fault
import CommandShell.Script.Basic
import CommandShell.Shell.Basic
import CommandShell.Stream

/-!
What the shell asks of the operating system. A forked process is given as the work it does.
-/

namespace CommandShell

abbrev Descriptor := Nat

namespace Descriptor

def input : Descriptor := 0

def output : Descriptor := 1

end Descriptor

/-- What became of a process. -/
inductive WaitStatus where
  | exited (pid : Pid) (code : Int)
  | signaled (pid : Pid) (signal : Int) (core : Bool)
  | stopped (pid : Pid) (signal : Int)
  | continued (pid : Pid)
  | stillAlive
  deriving DecidableEq, Repr

structure Pipe where
  readEnd : Descriptor
  writeEnd : Descriptor
  deriving DecidableEq, Repr

/-- The ends of pipes that a stage of a pipeline is started with. -/
structure Wiring where
  /-- The end that the stage reads from. The first stage reads what the shell reads. -/
  source : Option Descriptor
  /-- The pipe that the stage writes to. The last stage writes where the shell writes. -/
  target : Option Pipe
  deriving DecidableEq, Repr

/-- The work of a forked process. -/
inductive Child where
  | program (arguments : List String)
  | stage (program : Program) (wiring : Wiring) (shell : Shell)
  /-- One round of a parallel loop. -/
  | iteration (body : Script) (shell : Shell)
  | job (command : Command) (shell : Shell)

/-- A request to the operating system. -/
inductive Call where
  | fork (child : Child)
  | openPipe
  | close (descriptor : Descriptor)
  /-- Make the second number a copy of the first. -/
  | duplicate (source target : Descriptor)
  | startSession
  | wait (pid : Pid)
  | replace (arguments : List String)
  | exit (code : Int)
  /-- End because of a failure that nothing is prepared for. -/
  | abort (reason : String)
  | write (stream : Stream) (text : String)
  | changeDirectory (path : String)
  | currentDirectory
  | readFile (path : String)
  | isFile (path : String)
  | readInput

namespace Call

/-- The replies to a request. No reply comes after a process has ended or become another program. -/
def Reply : Call → Type
  | .fork _ => Except Errno Pid
  | .openPipe => Except Errno Pipe
  | .close _ => Unit
  | .duplicate _ _ => Except Errno Unit
  | .startSession => Except Errno Unit
  | .wait _ => Except Errno WaitStatus
  | .replace _ => Errno
  | .exit _ => Empty
  | .abort _ => Empty
  | .write _ _ => Except StreamFailure Unit
  | .changeDirectory _ => Except Errno Unit
  -- Nothing for a path that is no text.
  | .currentDirectory => Except StreamFailure (Option String)
  | .readFile _ => Except StreamFailure String
  | .isFile _ => Bool
  | .readInput => Except StreamFailure String

end Call

abbrev Work (α : Type) := Action Call Call.Reply α

namespace Work

def ask (call : Call) : Work call.Reply := Action.call call

def exit (code : Int) : Work Empty := ask (.exit code)

/-- Write a text, whether or not that can be done. -/
def write (stream : Stream) (text : String) : Work Unit :=
  (ask (.write stream text)).bind fun _ => .done ()

/-- Why a process gives up that could not print a text. -/
def unprinted (stream : Stream) (failure : StreamFailure) : String :=
  "failed printing to " ++ stream.name ++ ": " ++ failure.message

/-- Write a text that must not be lost: the process gives up if that cannot be done. -/
def tell (stream : Stream) (text : String) : Work Unit :=
  (ask (.write stream text)).bind fun (reply : Except StreamFailure Unit) =>
    match reply with
    | .ok () => .done ()
    | .error failure => (ask (.abort (unprinted stream failure))).bind nofun

end Work

end CommandShell
