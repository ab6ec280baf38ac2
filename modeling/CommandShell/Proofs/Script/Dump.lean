import CommandShell.Proofs.Json.Printer
import CommandShell.Proofs.Json.Unambiguous
import CommandShell.Script.Dump

/-!
The dump of a script is a JSON document, and the script can be read back from it. So different
scripts have different dumps.
-/

namespace CommandShell

open Json (Value)

/-! Scripts as they are read from a value: an object with the members in the order of the fields. -/

def Word.ofValue? : Value → Option Word
  | .object [("text", .string text), ("is_var", .bool false)] => some (.literal text)
  | .object [("text", .string text), ("is_var", .bool true)] => some (.reference text)
  | _ => none

def wordsOfValue? : Value → Option (List Word)
  | .array elements => elements.mapM Word.ofValue?
  | _ => none

def Program.ofValue? : Value → Option Program
  | .object [("words", words)] => wordsOfValue? words
  | _ => none

def Pipeline.ofValue? : Value → Option Pipeline
  | .object [("programs", .array programs)] => programs.mapM Program.ofValue?
  | _ => none

mutual

def Command.ofValue? : Value → Option Command
  | .object [("Pipeline", pipeline)] => return .pipeline (← Pipeline.ofValue? pipeline)
  | .object [("Assignment", .object [("name", .string name), ("value", value)])] =>
    return .assignment name (← wordsOfValue? value)
  | .object [("Conditional", .object [("parts", .array parts), ("else_body", fallback)])] =>
    return .conditional (← branchesOfValues? parts) (← fallbackOfValue? fallback)
  | .object
      [("ForLoop",
        .object [("parallel", .bool parallel), ("var_name", binder), ("var_values", values),
      ("body", .array body)])] =>
    return .loop parallel (← Word.ofValue? binder) (← wordsOfValue? values)
      (← statementsOfValues? body)
  | _ => none

def branchesOfValues? : List Value → Option (List Branch)
  | [] => some []
  | .object [("predicate", test), ("body", .array body)] :: others =>
    return .mk (← Pipeline.ofValue? test) (← statementsOfValues? body) ::
      (← branchesOfValues? others)
  | _ => none

def fallbackOfValue? : Value → Option (Option (List Statement))
  | .null => some none
  | .array body => return some (← statementsOfValues? body)
  | _ => none

def statementsOfValues? : List Value → Option (List Statement)
  | [] => some []
  | .object [("kind", command), ("background", .bool background)] :: others =>
    return .mk (← Command.ofValue? command) background :: (← statementsOfValues? others)
  | _ => none

end

def Script.ofValue? : Value → Option Script
  | .array statements => statementsOfValues? statements
  | _ => none

/-! What was written is read back. -/

theorem mapM_values {α : Type} {write : α → Json} {read? : Value → Option α}
    (back : ∀ element, read? (write element).value = some element) (elements : List α) :
    (Json.values (elements.map write)).mapM read? = some elements := by
  induction elements with
  | nil => rfl
  | cons element elements inductionHypothesis =>
      rw [List.map_cons, Json.values, List.mapM_cons, back, inductionHypothesis]
      rfl

theorem Word.ofValue?_toJson (word : Word) : Word.ofValue? word.toJson.value = some word := by
  cases word <;> rfl

theorem wordsOfValue?_toJson (words : List Word) :
    wordsOfValue? (wordsToJson words).value = some words :=
  mapM_values Word.ofValue?_toJson words

theorem Program.ofValue?_toJson (program : Program) :
    Program.ofValue? (Program.toJson program).value = some program :=
  wordsOfValue?_toJson program

theorem Pipeline.ofValue?_toJson (pipeline : Pipeline) :
    Pipeline.ofValue? (Pipeline.toJson pipeline).value = some pipeline :=
  mapM_values Program.ofValue?_toJson pipeline

mutual

theorem Command.ofValue?_toJson :
    ∀ command : Command, Command.ofValue? command.toJson.value = some command
  | .pipeline stages => by
      simp [Command.toJson, Json.value, Json.memberValues, Command.ofValue?,
        Pipeline.ofValue?_toJson]
  | .assignment name value => by
      simp [Command.toJson, Json.value, Json.memberValues, Command.ofValue?, wordsOfValue?_toJson]
  | .conditional branches fallback => by
      simp [Command.toJson, Json.value, Json.memberValues, Command.ofValue?,
        branchesOfValues?_toJson branches, fallbackOfValue?_toJson fallback]
  | .loop parallel binder values body => by
      simp [Command.toJson, Json.value, Json.memberValues, Command.ofValue?, Word.ofValue?_toJson,
        wordsOfValue?_toJson, statementsOfValues?_toJson body]

theorem branchesOfValues?_toJson :
    ∀ branches : List Branch, branchesOfValues? (Json.values (branchesToJson branches)) =
      some branches
  | [] => rfl
  | .mk test body :: branches => by
      simp [branchesToJson, Json.values, Json.value, Json.memberValues, branchesOfValues?,
        Pipeline.ofValue?_toJson, statementsOfValues?_toJson body,
        branchesOfValues?_toJson branches]

theorem fallbackOfValue?_toJson :
    ∀ fallback : Option (List Statement), fallbackOfValue? (fallbackToJson fallback).value =
      some fallback
  | none => rfl
  | some body => by
      simp [fallbackToJson, Json.value, fallbackOfValue?, statementsOfValues?_toJson body]

theorem statementsOfValues?_toJson :
    ∀ statements : List Statement, statementsOfValues? (Json.values (statementsToJson statements)) =
      some statements
  | [] => rfl
  | .mk command background :: statements => by
      simp [statementsToJson, Json.values, Json.value, Json.memberValues, statementsOfValues?,
        Command.ofValue?_toJson command, statementsOfValues?_toJson statements]

end

namespace Script

theorem ofValue?_toJson (script : Script) : ofValue? (toJson script).value = some script :=
  statementsOfValues?_toJson script

theorem isDocument_dump (script : Script) :
    Json.IsDocument (toJson script).value script.dump.toList :=
  Json.isDocument_pretty (toJson script)

theorem ofValue?_of_isDocument {script : Script} {value : Value}
    (document : Json.IsDocument value script.dump.toList) : ofValue? value = some script := by
  rw [(isDocument_dump script).unique document]
  exact ofValue?_toJson script

/-- The dump of a script is a JSON document, what it says in JSON reads as the script, and no other
script has the same dump. -/
theorem dump_reads_back (script : Script) :
    Json.IsDocument (toJson script).value script.dump.toList ∧
      (∀ value, Json.IsDocument value script.dump.toList → ofValue? value = some script) ∧
      ∀ script' : Script, script'.dump = script.dump → script' = script := by
  refine ⟨isDocument_dump script, fun value => ofValue?_of_isDocument, ?_⟩
  intro script' same
  have document := isDocument_dump script'
  rw [same] at document
  exact Option.some.inj ((ofValue?_toJson script').symm.trans (ofValue?_of_isDocument document))

end Script

end CommandShell
