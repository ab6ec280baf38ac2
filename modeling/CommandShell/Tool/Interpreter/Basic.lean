import CommandShell.Tool.Call
import CommandShell.Tool.Interpreter.Variables

/-!
What the interpreter does: steps that see and change what it knows, and that can be broken off.
-/

namespace CommandShell.Interpreter

/-- Why work is broken off. The status is the one that the state has. -/
inductive Raise where
  | failure
  | exit
  | finish
  deriving DecidableEq, Repr

abbrev Running := ExceptT Raise (StateT State Steps)

namespace Running

def ask (call : ToolCall) : Running call.Reply := ExceptT.lift fun state => do
  return (← Steps.ask call, state)

def attempt {α : Type} (work : Running α) : Running (Except Raise α) :=
  ExceptT.mk do return .ok (← work.run)

def settle {α : Type} (result : Except Raise α) : Running α :=
  match result with
  | .ok value => return value
  | .error raise => throw raise

def say (chars : List Char) : Running Unit := do
  let _ ← ask (.write 2 (Bytes.ofChars chars))

def warn (message : List Char) : Running Unit := do
  let state ← get
  let command := match state.command with | some name => name ++ [':', ' '] | none => []
  say (state.name ++ [':', ' '] ++ digitsOf state.line ++ [':', ' '] ++ command ++ message ++
    ['\n'])

/-- Print what a command has printed for the standard output. Says whether that could be done. -/
def flush : Running Bool := do
  let state ← get
  if state.output.isEmpty then return true
  set { state with output := [] }
  match ← ask (.write 1 (Bytes.ofChars state.output)) with
  | .ok () => return true
  | .error _ => return false

def print (chars : List Char) : Running Unit :=
  modify fun state => { state with output := state.output ++ chars }

def failWith {α : Type} (raise : Raise) (status : Int) (message : List Char) : Running α := do
  warn message
  modify fun state => { state with status }
  let _ ← flush
  throw raise

def fail {α : Type} (message : List Char) : Running α := failWith .failure 2 message

def orFail {α : Type} (result : Except (List Char) α) : Running α :=
  match result with
  | .ok value => return value
  | .error message => fail message

def change (f : State → Except (List Char) State) : Running Unit := do
  set (← orFail (f (← get)))

def assign (name value : List Char) : Running Unit :=
  change fun state => state.assign name value false

def assignNamed (name value : List Char) : Running Unit :=
  change fun state => state.assignNamed name value false

def lookup (name : List Char) : Running (Option (List Char)) := do return (← get).lookup name

/-- Do something to the end of a list, in which each element is used at most once. -/
def each {α : Type} (f : α → Running Unit) : List α → Running Unit
  | [] => return ()
  | a :: rest => do
    f a
    each f rest

end Running

inductive Use where
  | opening
  | creating
  | running
  deriving DecidableEq, Repr

def Use.text (use : Use) (errno : Errno) : List Char :=
  if errno = .noEntry || errno = .notDirectory then
    match use with
    | .opening => "No such file".toList
    | .creating => "Directory nonexistent".toList
    | .running => "not found".toList
  else errno.systemText.toList

end CommandShell.Interpreter
