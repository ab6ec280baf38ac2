import CommandShell.Shell.Input

/-!
The interactive session: a prompt, a line, and so on. Lines are gathered until they are a script, so
that a conditional or a loop may take several of them.
-/

namespace CommandShell

/-- What comes of asking for a line. -/
inductive Entry where
  | line (text : String)
  /-- The line was given up, and the lines gathered before it. -/
  | interrupt
  | failure (cause : Fault)
  deriving DecidableEq, Repr

namespace Session

/-- The prompt while a script is not finished. -/
def continuation : String := "> "

def ask (gathered : String) : Routine Unit := do
  let shell ← Routine.get
  let prompt := if gathered.isEmpty then shell.prompt else continuation
  Routine.lift (Work.write .output prompt)

/-- What to do with gathered lines. -/
inductive Reading where
  | script (script : Script)
  | unfinished
  | unreadable (error : Error)

/-- Read gathered lines. If only their end is missing they are not finished. -/
def read (gathered : String) : Reading :=
  match Script.parse gathered with
  | .ok script => .script script
  | .error (.parse error) => if error.incomplete then .unfinished else .unreadable (.parse error)
  | .error error => .unreadable error

/-- Take one entry after the other, until there are no more. -/
def run (dump : Bool) (gathered : String) : List Entry → Routine Unit
  | [] => ask gathered
  | .interrupt :: entries => do
    ask gathered
    run dump "" entries
  | .failure cause :: _ => do
    ask gathered
    Routine.fail cause
  | .line text :: entries => do
    ask gathered
    let gathered := gathered ++ text ++ "\n"
    match read gathered with
    | .unfinished => run dump gathered entries
    | .unreadable error =>
      let _ ← reportUnreadable error
      run dump "" entries
    | .script script =>
      let _ ← runScript dump script
      run dump "" entries

end Session

end CommandShell
