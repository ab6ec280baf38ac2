import CommandShell.Script.Basic

/-!
The outline of a script: one line for every part of it, indented by two spaces for every level.
Bodies stand one level below the lines that announce them.
-/

namespace CommandShell

structure OutlineLine where
  depth : Nat
  text : String
  deriving DecidableEq, Repr

/-- The line indented, with the line break that ends it. -/
def OutlineLine.render (line : OutlineLine) : String :=
  String.ofList (List.replicate (2 * line.depth) ' ') ++ line.text ++ "\n"

/-- The line above the statements of a script. -/
def bodyLine (depth : Nat) : OutlineLine := ⟨depth, "script:"⟩

def Program.outline (depth : Nat) (program : Program) : OutlineLine :=
  ⟨depth, "program: " ++ joinWords program⟩

/-- A single program stands for itself; several are listed below a line of their own. -/
def Pipeline.outline (depth : Nat) : Pipeline → List OutlineLine
  | [program] => [Program.outline depth program]
  | stages => ⟨depth, "pipe_stream:"⟩ :: stages.map (Program.outline (depth + 1))

mutual

def Command.outline (depth : Nat) : Command → List OutlineLine
  | .pipeline stages => Pipeline.outline depth stages
  | .assignment name value => [⟨depth, "var_assign: " ++ name ++ " = " ++ joinWords value⟩]
  | .conditional branches fallback =>
    outlineBranches depth "if:" branches ++ outlineFallback depth fallback
  | .loop parallel binder values body =>
    ⟨depth, "for " ++ binder.text ++ " in " ++ joinWords values ++ "; " ++
      (if parallel then "parallel " else "") ++ "do"⟩ ::
      bodyLine (depth + 1) :: outlineStatements (depth + 2) body

/-- The branches of a conditional; the first is announced by the given line, the others by
`elif:`. -/
def outlineBranches (depth : Nat) (announced : String) : List Branch → List OutlineLine
  | [] => []
  | .mk test body :: branches =>
    ⟨depth, announced⟩ :: Pipeline.outline (depth + 1) test ++
      (⟨depth, "then:"⟩ :: bodyLine (depth + 1) :: outlineStatements (depth + 2) body) ++
      outlineBranches depth "elif:" branches

def outlineFallback (depth : Nat) : Option (List Statement) → List OutlineLine
  | none => []
  | some body => ⟨depth, "else:"⟩ :: bodyLine (depth + 1) :: outlineStatements (depth + 2) body

def outlineStatements (depth : Nat) : List Statement → List OutlineLine
  | [] => []
  | .mk command _ :: statements => command.outline depth ++ outlineStatements depth statements

end

namespace Script

def outlineLines (script : Script) : List OutlineLine :=
  bodyLine 0 :: outlineStatements 1 script

def outline (script : Script) : String :=
  String.join (script.outlineLines.map OutlineLine.render)

end Script

end CommandShell
