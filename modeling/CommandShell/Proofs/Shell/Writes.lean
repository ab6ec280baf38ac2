import CommandShell.Proofs.Shell.Conduct
import CommandShell.Proofs.Store.Entries

/-!
The variables that a script can change. Only what stands in the foreground counts, and not what is
run by processes of its own: pipelines, jobs and the rounds of parallel loops.
-/

namespace CommandShell

mutual

/-- The variables that a command gives values to, in the shell itself. -/
def Command.writes : Command → List String
  | .pipeline _ => []
  | .assignment name _ => [recordKey name]
  | .conditional branches fallback => branchesWrites branches ++ fallbackWrites fallback
  | .loop parallel binder _ body =>
    recordKey binder.text :: (if parallel then [] else statementsWrites body)

def branchesWrites : List Branch → List String
  | [] => []
  | .mk _ body :: branches => statementsWrites body ++ branchesWrites branches

def fallbackWrites : Option (List Statement) → List String
  | none => []
  | some body => statementsWrites body

def statementsWrites : List Statement → List String
  | [] => []
  | .mk command background :: statements =>
    (if background then [] else command.writes) ++ statementsWrites statements

end

def Script.writes (script : Script) : List String := statementsWrites script

/-- The variables that a task gives values to, in the process itself. -/
def Task.writes : Task → List String
  | .statements _ body => statementsWrites body
  | .statement single => statementsWrites [single]
  | .command inner => inner.writes
  | .branches choices fallback => branchesWrites choices ++ fallbackWrites fallback
  | .rounds name body _ _ => recordKey name :: statementsWrites body
  | .pipeline _ => []
  | .program _ => []

/-- Changes to no variables but those named, the status and the directory. -/
def Bounds.writing (names : List String) : Bounds where
  change first second :=
    ∀ name, recordKey name ∉ names → recordKey name ≠ "?" → recordKey name ≠ "PWD" →
    second.store.get? name = first.store.get? name
  failure _ := True
  refl _ _ _ _ _ := rfl
  trans first second name absent noStatus noDirectory :=
    (second name absent noStatus noDirectory).trans (first name absent noStatus noDirectory)

open Routine (Within)

section Writing

variable {names : List String}

theorem setVariable_within {name : String}
    (named : recordKey name ∈ names ∨ recordKey name = "?" ∨ recordKey name = "PWD")
    (shell : Shell) (value : Option String) :
    (Bounds.writing names).change shell (shell.setVariable name value) := by
  intro other absent noStatus noDirectory
  refine Store.get?_set_of_ne ?_ shell.store value
  intro same
  rw [same] at absent noStatus noDirectory
  rcases named with inside | status | directory
  · exact absent inside
  · exact noStatus status
  · exact noDirectory directory

theorem Task.Part.writes_subset {part whole : Task} (inside : part.Part whole) :
    part.writes ⊆ whole.writes := by
  cases inside with
  | @first _ single | @later _ _ single =>
      obtain ⟨inner, background⟩ := single
      simp [writes, statementsWrites]
  | foreground => simp [writes, statementsWrites]
  | simple | conditional | loop | single => simp [writes, Command.writes]
  | test | round | laterRound => simp [writes]
  | body | otherwise => simp [writes, branchesWrites]
  | fallback => simp [writes, branchesWrites, fallbackWrites]

theorem Task.Binds.mem_writes {task : Task} {name : String} {value : Option String}
    (binds : task.Binds name value) : recordKey name ∈ task.writes := by
  unfold Task.Binds at binds
  split at binds
  · simp [writes, Command.writes, binds.1]
  · simp [writes, Command.writes, binds.1]
  · simp [writes, binds.1]
  · contradiction

theorem writing_allows : (Bounds.writing names).conduct.Allows fun task => task.writes ⊆ names where
  hereditary inside := List.Subset.trans inside.writes_subset
  plain _ _ := trivial
  waits _ := trivial
  forks _ _ _ _ _ := trivial
  inPlace _ _ _ _ _ := ⟨trivial, trivial⟩
  status shell status := setVariable_within (Or.inr (Or.inl (by decide))) shell _
  jobs _ _ _ _ _ _ := rfl
  bindings admitted binds shell := setVariable_within (Or.inl (admitted binds.mem_writes)) shell _
  directory := setVariable_within (Or.inr (Or.inr (by decide)))
  exit _ := trivial

theorem runStatements_within {statements : List Statement} (status : Int)
    (inside : statementsWrites statements ⊆ names) :
    (runStatements status statements).Within (.writing names) :=
  (writing_allows.task (.statements status statements) inside).within

end Writing

/-- However a script ends, and whatever replies it got, it has left alone each variable that it does
not visibly write, apart from the status and the directory. -/
theorem Script.run_keeps (script : Script) (shell : Shell) {name : String}
    (unwritten : recordKey name ∉ script.writes) (noStatus : recordKey name ≠ "?")
    (noDirectory : recordKey name ≠ "PWD") :
    (script.run shell).Always fun outcome => outcome.2.store.get? name = shell.store.get? name := by
  have within := runStatements_within Status.success (List.Subset.refl script.writes)
  refine (within shell).imp ?_
  rintro outcome ⟨kept, _⟩
  exact kept name unwritten noStatus noDirectory

theorem Script.run_keeps_background :
    (Script.run [.mk (.assignment "x" []) false, .mk (.assignment "y" []) true]
      (.start {} [])).Always fun outcome =>
        outcome.2.store.get? "y" = (Shell.start {} []).store.get? "y" :=
  Script.run_keeps _ _ (by decide) (by decide) (by decide)

end CommandShell
