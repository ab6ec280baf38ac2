import CommandShell.Json.Basic
import CommandShell.Script.Basic

/-!
The dump of a script: the whole tree as a JSON document, a member for every field and a single
tagged member for every kind of command.
-/

namespace CommandShell

def Word.toJson (word : Word) : Json :=
  .object [("text", .string word.text), ("is_var", .bool word.isReference)]

def wordsToJson (words : List Word) : Json := .array (words.map Word.toJson)

def Program.toJson (program : Program) : Json := .object [("words", wordsToJson program)]

def Pipeline.toJson (pipeline : Pipeline) : Json :=
  .object [("programs", .array (pipeline.map Program.toJson))]

mutual

def Command.toJson : Command → Json
  | .pipeline stages => .object [("Pipeline", Pipeline.toJson stages)]
  | .assignment name value =>
    .object [("Assignment", .object [("name", .string name), ("value", wordsToJson value)])]
  | .conditional branches fallback =>
    .object [("Conditional",
      .object [("parts", .array (branchesToJson branches)),
        ("else_body", fallbackToJson fallback)])]
  | .loop parallel binder values body =>
    .object [("ForLoop",
      .object [("parallel", .bool parallel), ("var_name", binder.toJson),
        ("var_values", wordsToJson values), ("body", .array (statementsToJson body))])]

def branchesToJson : List Branch → List Json
  | [] => []
  | .mk test body :: branches =>
    .object [("predicate", Pipeline.toJson test), ("body", .array (statementsToJson body))] ::
      branchesToJson branches

def fallbackToJson : Option (List Statement) → Json
  | none => .null
  | some body => .array (statementsToJson body)

def statementsToJson : List Statement → List Json
  | [] => []
  | .mk command background :: statements =>
    .object [("kind", command.toJson), ("background", .bool background)] ::
      statementsToJson statements

end

namespace Script

def toJson (script : Script) : Json := .array (statementsToJson script)

def dump (script : Script) : String := script.toJson.pretty

end Script

end CommandShell
