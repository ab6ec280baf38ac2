import CommandShell.Tool.Interpreter.Basic

/-!
The processes that the interpreter starts, and how it waits for them.
-/

namespace CommandShell

namespace Ending

def status : Ending → Int
  | .exited code => code
  | .signaled signal => 128 + signal

/-- What is said of a process that a signal has ended while a command waited for it. -/
def notice : Ending → List Char
  | .exited _ => []
  | .signaled signal =>
    if signal = Signal.interrupt || signal = Signal.brokenPipe then []
    else (Signal.text signal).toList.take 32

def description : Ending → List Char
  | .exited code =>
    if code = 0 then "Done".toList else "Done(".toList ++ Interpreter.digitsOf code ++ [')']
  | .signaled signal => (Signal.text signal).toList.take 32

end Ending

namespace Interpreter

namespace Job

def status (job : Job) : Int :=
  match job.members.getLast? with
  | some member => (member.ending.map Ending.status).getD 0
  | none => 0

def has (job : Job) (pid : Pid) : Bool := job.members.any fun member => member.pid = pid

def record (job : Job) (pid : Pid) (ending : Ending) : Job :=
  { job with
    members := job.members.map fun member =>
      if member.pid = pid then { member with ending := some ending } else member }

end Job

namespace State

def job? (state : State) (number : Nat) : Option Job :=
  state.jobs.find? fun job => job.number = number

def setJob (state : State) (job : Job) : State :=
  { state with jobs := state.jobs.map fun other => if other.number = job.number then job
    else other }

def dropJob (state : State) (number : Nat) : State :=
  { state with jobs := state.jobs.filter fun job => job.number ≠ number }

/-- The number for a new job: the first one that is free, or whose job has ended and was waited
for. -/
def freeJob (state : State) : Nat :=
  let isFree (number : Nat) : Bool :=
    match state.job? number with
    | some job => job.isDone && job.awaited
    | none => true
  ((List.range (state.jobs.length + 1)).map (· + 1)).find? isFree |>.getD (state.jobs.length + 1)

def addJob (state : State) : Nat × State :=
  let number := state.freeJob
  let state := state.dropJob number
  (number, { state with jobs := ⟨number, [], false⟩ :: state.jobs })

def addMember (state : State) (number : Nat) (pid : Pid) (background : Bool) : State :=
  let state := if background then { state with lastBackground := some pid } else state
  match state.job? number with
  | some job => state.setJob { job with members := job.members ++ [{ pid }] }
  | none => state

end State

namespace Running

def fork (job : Option Nat) (background : Bool) (wires : List Wire) (share : Share) :
    Running Unit := do
  let state ← get
  let first := ((job.bind state.job?).map fun job => job.members.isEmpty).getD true
  match ← ask (.fork ⟨state, background, first, wires, share⟩) with
  | .ok pid =>
    if let some number := job then
      modify fun state => state.addMember number pid background
  | .error _ =>
    if let some number := job then modify fun state => state.dropJob number
    fail "Cannot fork".toList

def newJob : Running Nat := modifyGet State.addJob

def collectSignals : Running Unit := do
  let state ← get
  if state.hasTraps then
    let came : List Signal ← ask .kept
    modify fun state => { state with pending := state.pending ++ came }

/-- Note the end of a process. If a command waits for its job, the signal that ended it is shown. -/
def record (awaited : Option Nat) (pid : Pid) (ending : Ending) : Running Unit := do
  let state ← get
  match state.jobs.find? fun job => !job.isDone && job.has pid with
  | none => return ()
  | some job =>
    set (state.setJob (job.record pid ending))
    let notice := ending.notice
    if awaited = some job.number && !notice.isEmpty then say (notice ++ ['\n'])

/-- Note the ends of all processes that have ended, in so many steps. -/
def reapFrom (awaited : Option Nat) : Nat → Running Unit
  | 0 => return ()
  | steps + 1 => do
    match ← ask (.wait false) with
    | .ok (some (pid, ending)) =>
      record awaited pid ending
      reapFrom awaited steps
    | _ => return ()

def reap (awaited : Option Nat) : Running Unit := do
  if !(← get).jobs.isEmpty then reapFrom awaited patience

def isRunning (number : Nat) : Running Bool := do
  return ((← get).job? number).any fun job => !job.isDone

/-- Wait for a job, in so many steps. Signals do not interrupt this. -/
def waitFrom (number : Nat) : Nat → Running Unit
  | 0 => return ()
  | steps + 1 => do
    if ← isRunning number then
      match ← ask (.wait true) with
      | .ok (some (pid, ending)) =>
        record (some number) pid ending
        waitFrom number steps
      | .ok none => waitFrom number steps
      | .error .interrupted =>
        collectSignals
        waitFrom number steps
      | .error _ => return ()

def waitForJob (number : Nat) : Running Int := do
  waitFrom number patience
  reap (some number)
  let state ← get
  match state.job? number with
  | some job =>
    if job.isDone then set (state.dropJob number)
    return job.status
  | none => return 0

/-- Wait until a job ends or, if none is given, until any process does, in so many steps. A signal
interrupts this; says whether none did. -/
def waitInterruptedFrom (number : Option Nat) : Nat → Running Bool
  | 0 => return true
  | steps + 1 => do
    let runs ←
      match number with
      | some number => isRunning number
      | none => pure true
    if !runs then
      reap number
      return true
    collectSignals
    if !(← get).pending.isEmpty then
      reap number
      return false
    match ← ask (.wait true) with
    | .ok (some (pid, ending)) =>
      record number pid ending
      if number.isNone then
        reap none
        return true
      waitInterruptedFrom number steps
    | .ok none => waitInterruptedFrom number steps
    | .error .interrupted => waitInterruptedFrom number steps
    | .error _ => return true

def waitInterrupted (number : Option Nat) : Running Bool := waitInterruptedFrom number patience

end Running

end Interpreter

end CommandShell
