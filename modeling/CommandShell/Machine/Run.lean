import CommandShell.Machine.Request

/-!
Running the machine: a process goes on until it has to wait, and then the next one does. Time goes
on only when none of them can do anything.
-/

namespace CommandShell.Machine

/-- Let a process make its next call. Says whether anything came of it. -/
def advance (machine : Machine) (process : Process) : Machine × Bool :=
  let go (machine : Machine) (activity : Activity) : Machine × Bool :=
    match machine.process? process.pid with
    | some process => (machine.setProcess { process with activity }, true)
    | none => (machine, true)
  if process.stopped then (machine, false)
  else match process.activity with
  | .shell (Action.ask call again next) =>
    match machine.perform process call with
    | .reply value machine =>
      go machine (.shell (if again value then Action.ask call again next else next value))
    | .wait machine => (machine, false)
    | .gone machine => (machine, true)
  | .shell (Action.done never) => nomatch never
  | .tool (Action.ask call again next) =>
    match machine.performTool process call with
    | .reply value machine =>
      go machine (.tool (if again value then Action.ask call again next else next value))
    | .wait machine => (machine, false)
    | .gone machine => (machine, true)
  | .tool (Action.done never) => nomatch never
  | .outside => (machine, false)
  | .ended _ => (machine, false)

/-- How many calls a process makes before the next one has its turn, if it does not wait earlier. -/
def turnLength : Nat := 1000

/-- Let a process make so many calls at most, until it has to wait. Says whether anything came of
it. -/
def advanceFor (pid : Pid) (moved : Bool) : Nat → Machine → Machine × Bool
  | 0, machine => (machine, moved)
  | calls + 1, machine =>
    match machine.process? pid with
    | none => (machine, moved)
    | some process =>
      match machine.advance process with
      | (machine, true) => advanceFor pid true calls machine
      | (machine, false) => (machine, moved)

def advanceEach (machine : Machine) (moved : Bool) : List Pid → Machine × Bool
  | [] => (machine, moved)
  | pid :: pids =>
    let (machine, moved) := advanceFor pid moved turnLength machine
    machine.advanceEach moved pids

def turn (machine : Machine) : Machine × Bool :=
  machine.advanceEach false (machine.processes.map Process.pid)

/-- Go on to the time when the next sleep is over, if any process sleeps. -/
def skipTime? (machine : Machine) : Option Machine :=
  match (machine.processes.filterMap Process.wake).min? with
  | some time => some { machine with clock := max machine.clock time }
  | none => none

/-- Do the work of the process outside, with the others whenever it waits, for so many calls and
turns at most. There is no result if the work ends the process, or if nothing can go on any more. -/
def drive {α : Type} : Nat → Work α → Machine → Option α × Machine
  | 0, _, machine => (none, machine)
  | _ + 1, Action.done result, machine => (some result, machine)
  | turns + 1, Action.ask call again next, machine =>
    match machine.process? mainPid with
    | none => (none, machine)
    | some process =>
      match machine.perform process call with
      | .reply value machine =>
        drive turns (if again value then Action.ask call again next else next value) machine
      | .gone machine => (none, machine)
      | .wait machine =>
        match machine.turn with
        | (machine, true) => drive turns (Action.ask call again next) machine
        | (machine, false) =>
          match machine.skipTime? with
          | some machine => drive turns (Action.ask call again next) machine
          | none => (none, machine)

/-- More calls and turns than any work that ends takes. -/
def enoughTurns : Nat := Nat.pow 10 9

def run {α : Type} (machine : Machine) (work : Work α) : Option α × Machine :=
  drive enoughTurns work machine

/-- Let the other processes go on until none of them can, for so many turns at most. -/
def settleFor : Nat → Machine → Machine
  | 0, machine => machine
  | turns + 1, machine =>
    match machine.turn with
    | (machine, true) => settleFor turns machine
    | (machine, false) =>
      match machine.skipTime? with
      | some machine => settleFor turns machine
      | none => machine

def settle (machine : Machine) : Machine := settleFor enoughTurns machine

/-- The exit code of the process outside, once it has ended. -/
def exitCode? (machine : Machine) : Option Int :=
  match (machine.process? mainPid).map Process.activity with
  | some (.ended (.exited code)) => some code
  | _ => none

/-- Take away what was written since the last time, to the output and to the stream for errors. -/
def takeWritten (machine : Machine) : (Bytes × Bytes) × Machine :=
  ((machine.output.reverse.flatten, machine.errors.reverse.flatten),
    { machine with output := [], errors := [] })

end CommandShell.Machine
