import CommandShell.Action
import CommandShell.Machine.Files
import CommandShell.Tool.Interpreter.State

/-!
What a program asks of the machine, and the words in which programs are written.
-/

namespace CommandShell

inductive Arrangement where
  | standard
  | ignore
  /-- The signal is kept until the process asks for it. -/
  | keep
  deriving DecidableEq, Repr

inductive ToolCall where
  /-- At most so many bytes, none at the end. -/
  | read (descriptor : Descriptor) (count : Nat)
  | write (descriptor : Descriptor) (bytes : Bytes)
  | open (path : Bytes) (opening : Opening)
  | close (descriptor : Descriptor)
  /-- Make the second number a copy of the first. -/
  | duplicate (source target : Descriptor)
  /-- Copy a descriptor to a number from some number on that programs started later do not have. -/
  | setAside (source least : Descriptor)
  | openPipe
  | position (descriptor : Descriptor)
  | seek (descriptor : Descriptor) (position : Nat)
  | describe (descriptor : Descriptor)
  | stat (path : Bytes) (follow : Bool)
  | list (path : Bytes)
  | makeDirectory (path : Bytes)
  | removeDirectory (path : Bytes)
  | makeLink (target path : Bytes)
  | currentDirectory
  | changeDirectory (path : Bytes)
  | sleep (nanoseconds : Nat)
  /-- Send a signal to a process, or to a group if the number is not positive. -/
  | kill (pid : Pid) (signal : Signal)
  | arrange (signal : Signal) (arrangement : Arrangement)
  | ignored
  /-- The signals that were kept, the earliest first. -/
  | kept
  | identity
  | fork (fork : Interpreter.Fork)
  /-- How a child ended. If none has, wait for one or not. -/
  | wait (block : Bool)
  | replace (path : Bytes) (arguments environment : List Bytes)
  | exit (code : Int)

namespace ToolCall

def Reply : ToolCall → Type
  | .read _ _ => Except Errno Bytes
  | .write _ _ => Except Errno Unit
  | .open _ _ => Except Errno Descriptor
  | .close _ => Except Errno Unit
  | .duplicate _ _ => Except Errno Unit
  | .setAside _ _ => Except Errno Descriptor
  | .openPipe => Except Errno Pipe
  | .position _ => Except Errno Nat
  | .seek _ _ => Except Errno Unit
  | .describe _ => Except Errno FileStatus
  | .stat _ _ => Except Errno FileStatus
  | .list _ => Except Errno (List Bytes)
  | .makeDirectory _ => Except Errno Unit
  | .removeDirectory _ => Except Errno Unit
  | .makeLink _ _ => Except Errno Unit
  | .currentDirectory => Except Errno Bytes
  | .changeDirectory _ => Except Errno Unit
  | .sleep _ => Unit
  | .kill _ _ => Except Errno Unit
  | .arrange _ _ => Unit
  | .ignored => List Signal
  | .kept => List Signal
  | .identity => Pid × Pid
  | .fork _ => Except Errno Pid
  | .wait _ => Except Errno (Option (Pid × Ending))
  | .replace _ _ _ => Errno
  | .exit _ => Empty

end ToolCall

abbrev Steps (α : Type) := Action ToolCall ToolCall.Reply α

structure Invocation where
  name : Bytes
  arguments : List Bytes
  /-- Records of a name, an equals sign and a value. -/
  environment : List Bytes

namespace Steps

def ask (call : ToolCall) : Steps call.Reply := Action.call call

/-- Do something for each element in turn, and end with the greatest code. -/
def forEach {α : Type} (f : α → Steps Int) : List α → Steps Int
  | [] => .done 0
  | a :: rest => do
    let code ← f a
    let later ← forEach f rest
    return max code later

end Steps

end CommandShell
