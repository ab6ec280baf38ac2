import CommandShell.Shell.Child
import CommandShell.Startup
import CommandShell.Tool.Table

/-!
The processes of the machine.
-/

namespace CommandShell

/-- What a descriptor of a process stands for. -/
inductive Channel where
  | output
  | errors
  | file (number : Nat)
  | readEnd (pipe : Nat)
  | writeEnd (pipe : Nat)
  deriving DecidableEq, Repr

structure Slot where
  descriptor : Descriptor
  channel : Channel
  /-- Whether it is closed when the process becomes another program. -/
  aside : Bool := false
  deriving DecidableEq, Repr

/-- How many calls of each kind still work, where that is limited. -/
structure Limits where
  fork : Option Nat := none
  openPipe : Option Nat := none
  duplicate : Option Nat := none
  startSession : Option Nat := none
  deriving DecidableEq, Repr

namespace Limits

/-- Use up one call, if there is one left. -/
def spend : Option Nat → Option (Option Nat)
  | none => some none
  | some 0 => none
  | some (left + 1) => some (some left)

end Limits

inductive Activity where
  /-- It makes the calls it is told to from outside the machine. -/
  | outside
  | shell (work : Work Empty)
  | tool (steps : Steps Empty)
  /-- It has ended, and its parent was not told yet. -/
  | ended (ending : Ending)

/-- How far a wait for a child has come. -/
inductive Pause where
  /-- The process does not wait. -/
  | none
  | waiting
  /-- A signal came during the wait, and the process was not told yet. -/
  | interrupted
  deriving DecidableEq, Repr

structure Process where
  pid : Pid
  parent : Pid
  group : Pid
  slots : List Slot
  directory : Inode
  /-- The environment: records of a name, an equals sign and a value. -/
  records : List Bytes := []
  limits : Limits := {}
  wake : Option Nat := none
  stopped : Bool := false
  ignored : List Signal := []
  /-- The signals that are kept until the process asks for them. -/
  keeping : List Signal := []
  /-- The signals that came and were kept, the latest first. -/
  kept : List Signal := []
  /-- The signals that do no more than interrupt a wait, but only the first time they come. -/
  forgiven : List Signal := []
  pause : Pause := .none
  activity : Activity

namespace Process

def channel? (process : Process) (descriptor : Descriptor) : Option Channel :=
  (process.slots.find? fun slot => slot.descriptor = descriptor).map Slot.channel

/-- The least number that is not in use, from one on, in so many steps. -/
def freeFrom (process : Process) : Nat → Descriptor → Descriptor
  | 0, descriptor => descriptor
  | steps + 1, descriptor =>
    if (process.channel? descriptor).isSome then process.freeFrom steps (descriptor + 1)
    else descriptor

def freeDescriptor (process : Process) (least : Descriptor) : Descriptor :=
  process.freeFrom process.slots.length least

def closeChannel (process : Process) (descriptor : Descriptor) : Process :=
  { process with slots := process.slots.filter fun slot => slot.descriptor ≠ descriptor }

def openSlot (process : Process) (slot : Slot) : Process :=
  { process with slots := slot :: (process.closeChannel slot.descriptor).slots }

def openChannel (process : Process) (descriptor : Descriptor) (channel : Channel) : Process :=
  process.openSlot { descriptor, channel }

def hasEnded (process : Process) : Bool :=
  match process.activity with
  | .ended _ => true
  | _ => false

def finished (process : Process) (ending : Ending) : Process :=
  { process with
    slots := [], wake := none, stopped := false, kept := [], pause := .none
    activity := .ended ending }

/-- The process at the start of another program, with an environment for it. -/
def become (process : Process) (records : List Bytes) (activity : Activity) : Process :=
  { process with
    slots := process.slots.filter fun slot => !slot.aside
    records, keeping := [], kept := [], forgiven := [], activity }

def becomeTool (process : Process) (name : String) (arguments records : List Bytes) : Process :=
  process.become records (.tool (Tool.run name ⟨arguments.headD [], arguments.drop 1, records⟩))

/-- A record as a name and a value. The name is not empty, so it may start with an equals sign. -/
def binding? (record : Bytes) : Option (String × String) :=
  match record with
  | [] => none
  | first :: rest =>
    let name := rest.takeWhile (· ≠ Bytes.byte '=')
    if name.length < rest.length then
      some (Bytes.toText (first :: name), Bytes.toText (rest.drop (name.length + 1)))
    else none

/-- The process as a shell. It ignores the signal of a pipe that nobody reads, and survives the
first of each of those for memory that it cannot use. -/
def becomeShell (process : Process) (arguments records : List Bytes) : Process :=
  let words := (arguments.drop 1).map Bytes.toText
  let work := Startup.run words (records.filterMap binding?) none
  { process.become records (.shell work) with
    ignored := Signal.brokenPipe :: process.ignored.filter (· ≠ Signal.brokenPipe)
    forgiven := [Signal.busError, Signal.badAccess] }

def runsShell (process : Process) : Bool :=
  match process.activity with
  | .outside => true
  | .shell _ => true
  | _ => false

def child (process : Process) (pid : Pid) (activity : Activity) : Process :=
  { process with
    pid, parent := process.pid, wake := none, stopped := false, kept := [], pause := .none,
      activity }

end Process

end CommandShell
