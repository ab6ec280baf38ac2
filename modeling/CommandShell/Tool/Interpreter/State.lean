import CommandShell.Machine.Bytes
import CommandShell.Machine.Signal
import CommandShell.Tool.Interpreter.Syntax

/-!
What the interpreter knows while it runs a script, and what a process that it forks goes on with.
-/

namespace CommandShell

inductive Ending where
  | exited (code : Int)
  | signaled (signal : Signal)
  deriving DecidableEq, Repr

namespace Interpreter

structure Variable where
  name : List Char
  /-- Nothing if it was only marked. -/
  value : Option (List Char)
  exported : Bool := false
  readOnly : Bool := false
  deriving DecidableEq, Repr

structure Member where
  pid : Pid
  ending : Option Ending := none
  deriving DecidableEq, Repr

structure Job where
  number : Nat
  members : List Member
  awaited : Bool := false
  deriving DecidableEq, Repr

namespace Job

def isDone (job : Job) : Bool := job.members.all fun member => member.ending.isSome

end Job

inductive Saved where
  | binding (name : List Char) (before : Option Variable)
  | settings (letters : List Char)

inductive Skip where
  | leaveLoops (count : Nat)
  | repeatLoop (count : Nat)
  /-- Leave a function or a file, with a status that was chosen or not. -/
  | leaveFunction (chosen : Bool)
  deriving DecidableEq, Repr

/-- How far `getopts` has read its arguments. -/
structure OptionCursor where
  index : Nat := 1
  /-- How much of the argument before it was read, if it is not done with. -/
  offset : Option Nat := none

structure State where
  name : List Char
  arguments : List (List Char) := []
  bindings : List Variable := []
  functions : List (List Char × Tree) := []
  aliases : List (List Char × List Char) := []
  documents : List Document := []
  nextDocument : Nat := 0
  settings : List Char := []
  /-- What is done at signals; at signal zero, what is done at the end. -/
  traps : List (Signal × List Char) := []
  /-- The signals that are ignored whatever is said about them. -/
  ignored : List Signal := []
  /-- The signals that came and were not answered yet, the earliest first. -/
  pending : List Signal := []
  status : Int := 0
  pid : Pid := 0
  lastBackground : Option Pid := none
  jobs : List Job := []
  line : Nat := 0
  readLine : Nat := 1
  command : Option (List Char) := none
  directory : List Char := []
  realDirectory : List Char := []
  loopDepth : Nat := 0
  functionDepth : Nat := 0
  skip : Option Skip := none
  /-- What functions and commands change for a while, the innermost first. -/
  frames : List (List Saved) := []
  /-- The exit status of the last list of commands in a word. -/
  outputStatus : Int := 0
  /-- The status to end with, or the one that a signal has interrupted. -/
  savedStatus : Option Int := none
  /-- How deep this is within processes that the interpreter forked. -/
  level : Nat := 0
  optionCursor : OptionCursor := {}
  /-- What a command of the interpreter itself has printed and not written yet. -/
  output : List Char := []
  located : List (List Char × List Char) := []
  mask : Nat := 18
  tracing : Bool := false

inductive Plan where
  | file (direction : Direction) (descriptor : Descriptor) (path : List Char)
  | copy (descriptor : Descriptor) (source : Option Descriptor)
  | document (descriptor : Descriptor) (number : Nat)

inductive Wire where
  | close (descriptor : Descriptor)
  | move (source target : Descriptor)

inductive Share where
  /-- Run a command; `tested` says whether its status is looked at. -/
  | tree (tree : Option Tree) (plans : List Plan) (tested : Bool)
  | program (arguments : List (List Char)) (path : Option (List Char))
  | text (descriptor : Descriptor) (text : List Char)

structure Fork where
  state : State
  background : Bool
  first : Bool
  wires : List Wire
  share : Share

end Interpreter

end CommandShell
