import CommandShell.Tool.Condition
import CommandShell.Tool.Expression
import CommandShell.Tool.Interpreter.Run
import CommandShell.Tool.Place
import CommandShell.Tool.Sequence
import CommandShell.Tool.Sorting

/-!
The programs of the machine by their names.
-/

namespace CommandShell.Tool

def plain : List (String × (Invocation → Steps Int)) :=
  [("[", bracket), ("cat", cat), ("echo", echo), ("expr", expr), ("false", decline), ("grep", grep),
    ("head", head), ("ln", ln), ("mkdir", mkdir), ("printenv", printenv), ("printf", printf),
    ("pwd", pwd), ("rmdir", rmdir), ("seq", seq), ("sleep", sleep), ("sort", sort), ("tail", tail),
    ("test", test), ("touch", touch), ("tr", tr), ("true", succeed), ("wc", wc), ("yes", yes)]

def interpreter : String := "sh"

def names : List String := interpreter :: plain.map Prod.fst

def run (name : String) (invocation : Invocation) : Steps Empty :=
  if name = interpreter then Interpreter.sh invocation
  else do
    let code ←
      match plain.lookup name with
      | some program => program invocation
      | none => pure 127
    Steps.ask (.exit code)

end CommandShell.Tool
