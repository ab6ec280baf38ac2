import CommandShell.Shell.Run

/-!
The tasks that a process turns to while it runs a script: statements in order, a statement, what it
does, the branches of a conditional, the rounds of a loop, a pipeline, a program. A task is made of
smaller ones, and what is kept by putting routines together is kept by every task.
-/

namespace CommandShell

/-- Something that a process does itself in order to run a script. -/
inductive Task where
  /-- Statements that are still to be run, behind one that had the status. -/
  | statements (status : Int) (statements : List Statement)
  | statement (statement : Statement)
  | command (command : Command)
  | branches (branches : List Branch) (fallback : Option (List Statement))
  /-- The rounds of a loop that are still to come, behind one that had the status. -/
  | rounds (name : String) (body : List Statement) (status : Int) (values : List String)
  | pipeline (stages : Pipeline)
  | program (program : Program)

namespace Task

def run : Task → Routine Int
  | .statements status body => runStatements status body
  | .statement single => runStatement single
  | .command inner => runCommand inner
  | .branches choices fallback => runBranches choices (runFallback fallback)
  | .rounds name body status values =>
      runEach name (runStatements Status.success body) status values
  | .pipeline stages => runPipeline stages
  | .program words => runProgram words

/-- The values that a task may give to a variable by itself. -/
def Binds : Task → String → Option String → Prop
  | .command (.assignment name words), bound, value =>
    bound = name ∧ ∃ store, value = (Expansion.arguments store words).head?
  | .command (.loop _ binder words _), bound, value =>
    bound = binder.text ∧ ∃ store, ∃ text ∈ Expansion.arguments store words, value = some text
  | .rounds name _ _ values, bound, value => bound = name ∧ ∃ text ∈ values, value = some text
  | _, _, _ => False

/-- The processes that a task starts by itself, in a state of the shell. -/
def Forks : Task → Shell → Child → Prop
  | .statement (.mk inner _), shell, child => child = .job inner shell
  | .command (.loop _ _ _ body), shell, child => child = .iteration body shell
  | .pipeline stages, shell, child => ∃ words ∈ stages, ∃ wiring, child = .stage words wiring shell
  | .program words, shell, child => child = .program (Expansion.arguments shell.store words)
  | _, _, _ => False

/-- One task is part of another, and the same process does both. -/
inductive Part : Task → Task → Prop where
  | first {status : Int} {single : Statement} {later : List Statement} :
      Part (.statement single) (.statements status (single :: later))
  | later {status status' : Int} {single : Statement} {later : List Statement} :
      Part (.statements status' later) (.statements status (single :: later))
  | foreground {inner : Command} : Part (.command inner) (.statement (.mk inner false))
  | simple {stages : Pipeline} : Part (.pipeline stages) (.command (.pipeline stages))
  | conditional {choices : List Branch} {fallback : Option (List Statement)} :
      Part (.branches choices fallback) (.command (.conditional choices fallback))
  | loop {binder : Word} {values : List Word} {body : List Statement} {store : Store} :
      Part (.rounds binder.text body Status.success (Expansion.arguments store values))
        (.command (.loop false binder values body))
  | test {test : Pipeline} {body : List Statement} {choices : List Branch}
      {fallback : Option (List Statement)} :
      Part (.pipeline test) (.branches (.mk test body :: choices) fallback)
  | body {test : Pipeline} {body : List Statement} {choices : List Branch}
      {fallback : Option (List Statement)} :
      Part (.statements Status.success body) (.branches (.mk test body :: choices) fallback)
  | otherwise {test : Pipeline} {body : List Statement} {choices : List Branch}
      {fallback : Option (List Statement)} :
      Part (.branches choices fallback) (.branches (.mk test body :: choices) fallback)
  | fallback {body : List Statement} :
      Part (.statements Status.success body) (.branches [] (some body))
  | round {name value : String} {body : List Statement} {status : Int} {values : List String} :
      Part (.statements Status.success body) (.rounds name body status (value :: values))
  | laterRound {name value : String} {body : List Statement} {status status' : Int}
      {values : List String} :
      Part (.rounds name body status' values) (.rounds name body status (value :: values))
  | single {words : Program} : Part (.program words) (.pipeline [words])

/-- A bound on how deep tasks are nested in a task. -/
noncomputable def size : Task → Nat
  | .statements _ body => 2 * sizeOf body + 2
  | .statement single => 2 * sizeOf single + 2
  | .command inner => 2 * sizeOf inner + 2
  | .branches choices fallback => 2 * (sizeOf choices + sizeOf fallback) + 2
  | .rounds _ body _ _ => 2 * sizeOf body + 3
  | .pipeline _ => 1
  | .program _ => 0

/-- The rounds that are left. -/
def roundsLeft : Task → Nat
  | .rounds _ _ _ values => values.length
  | _ => 0

theorem Part.smaller {part whole : Task} (inside : part.Part whole) :
    part.size < whole.size ∨ part.size = whole.size ∧ part.roundsLeft < whole.roundsLeft := by
  cases inside with
  -- Only from one round to the next a task stays as deep as it is.
  | laterRound => exact Or.inr ⟨rfl, Nat.lt_succ_self _⟩
  | _ => exact Or.inl (by simp +arith [size])

theorem Part.wellFounded : WellFounded Part := by
  have founded := InvImage.wf (fun task : Task => (task.size, task.roundsLeft))
    (Prod.lex Nat.lt_wfRel Nat.lt_wfRel).wf
  refine Subrelation.wf ?_ founded
  intro part whole inside
  exact Prod.lex_def.mpr inside.smaller

/-- What holds of a task whenever it holds of those it is made of, holds of all. -/
theorem induction {motive : Task → Prop}
    (nil : ∀ status, motive (.statements status []))
    (cons : ∀ status statement statements, motive (.statement statement) →
      (∀ status, motive (.statements status statements)) →
      motive (.statements status (statement :: statements)))
    (background : ∀ command, motive (.statement (.mk command true)))
    (foreground : ∀ command, motive (.command command) → motive (.statement (.mk command false)))
    (simple : ∀ stages, motive (.pipeline stages) → motive (.command (.pipeline stages)))
    (assignment : ∀ name value, motive (.command (.assignment name value)))
    (conditional : ∀ branches fallback, motive (.branches branches fallback) →
      motive (.command (.conditional branches fallback)))
    (parallel : ∀ binder values body, motive (.command (.loop true binder values body)))
    (sequential : ∀ binder values body,
      (∀ store,
        motive (.rounds binder.text body Status.success (Expansion.arguments store values))) →
      motive (.command (.loop false binder values body)))
    (nothing : motive (.branches [] none))
    (fallback : ∀ body, motive (.statements Status.success body) →
      motive (.branches [] (some body)))
    (branch : ∀ test body branches fallback, motive (.pipeline test) →
      motive (.statements Status.success body) → motive (.branches branches fallback) →
      motive (.branches (.mk test body :: branches) fallback))
    (finished : ∀ name body status, motive (.rounds name body status []))
    (round : ∀ name body status value values, motive (.statements Status.success body) →
      (∀ status, motive (.rounds name body status values)) →
      motive (.rounds name body status (value :: values)))
    (single : ∀ program, motive (.program program) → motive (.pipeline [program]))
    (joined : ∀ stages, stages.length ≠ 1 → motive (.pipeline stages))
    (program : ∀ program, motive (.program program)) (task : Task) : motive task := by
  induction task using Part.wellFounded.induction with
  | h task inside =>
    match task with
    | .statements status [] => exact nil status
    | .statements status (first :: later) =>
        exact cons status first later (inside _ .first) fun status => inside _ .later
    | .statement (.mk inner true) => exact background inner
    | .statement (.mk inner false) => exact foreground inner (inside _ .foreground)
    | .command (.pipeline stages) => exact simple stages (inside _ .simple)
    | .command (.assignment name value) => exact assignment name value
    | .command (.conditional choices other) =>
        exact conditional choices other (inside _ .conditional)
    | .command (.loop true binder values body) => exact parallel binder values body
    | .command (.loop false binder values body) =>
        exact sequential binder values body fun store => inside _ .loop
    | .branches [] none => exact nothing
    | .branches [] (some body) => exact fallback body (inside _ .fallback)
    | .branches (.mk test body :: choices) other =>
        exact branch test body choices other (inside _ .test) (inside _ .body) (inside _ .otherwise)
    | .rounds name body status [] => exact finished name body status
    | .rounds name body status (value :: values) =>
        exact round name body status value values (inside _ .round) fun status =>
          inside _ .laterRound
    | .pipeline [] => exact joined [] (by simp)
    | .pipeline [words] => exact single words (inside _ .single)
    | .pipeline (first :: second :: stages) => exact joined _ (by simp)
    | .program words => exact program words

end Task

/-- What is to be done for a script. -/
def Script.task (script : Script) : Task := .statements Status.success script

theorem Routine.bind_assoc {α β γ : Type} (routine : Routine α) (first : α → Routine β)
    (second : β → Routine γ) :
    (routine >>= first) >>= second = routine >>= fun result => first result >>= second := by
  funext shell
  simp only [bind_apply, Action.bind_assoc]
  congr 1
  funext outcome
  cases outcome.1 with
  | ok result => rfl
  | error cause => rfl

theorem runStatements_append (status : Int) (first second : List Statement) :
    runStatements status (first ++ second) =
      runStatements status first >>= fun status => runStatements status second := by
  induction first generalizing status with
  | nil => simp only [List.nil_append, runStatements]; rfl
  | cons statement first inductionHypothesis =>
      simp only [List.cons_append, runStatements, inductionHypothesis, Routine.bind_assoc]

/-- A property of routines that is kept when they are put together, and that all the parts of a task
have as long as the task is one of those admitted. -/
structure Discipline (admits : Task → Prop) where
  holds : {α : Type} → Routine α → Prop
  hereditary : ∀ {part whole : Task}, part.Part whole → admits whole → admits part
  done : ∀ {α : Type} (result : α), holds (pure result : Routine α)
  bind : ∀ {α β : Type} {routine : Routine α} {next : α → Routine β}, holds routine →
    (∀ result, holds (next result)) → holds (routine >>= next)
  get : holds Routine.get
  settle : ∀ {routine : Routine Int}, holds routine → holds (settleStatement routine)
  set : ∀ {task : Task} {name : String} {value : Shell → Option String}, admits task →
    (∀ shell, task.Binds name (value shell)) →
    holds (Routine.modify fun shell => shell.setVariable name (value shell))
  job : ∀ {command : Command}, admits (.statement (.mk command true)) → holds (startJob command)
  atOnce : ∀ {binder : Word} {values : List Word} {body : Script} (store : Store),
    admits (.command (.loop true binder values body)) →
    holds (runAtOnce binder.text body (Expansion.arguments store values))
  joined : ∀ {stages : Pipeline}, stages.length ≠ 1 → admits (.pipeline stages) →
    holds (runPipeline stages)
  program : ∀ {words : Program}, admits (.program words) → holds (runProgram words)

/-- All tasks that are admitted have a property that their parts have. -/
theorem Discipline.task {admits : Task → Prop} (discipline : Discipline admits) (task : Task) :
    admits task → discipline.holds task.run := by
  intro admitted
  induction task using Task.induction with
  | nil status =>
      rw [Task.run, runStatements]
      exact discipline.done status
  | cons status statement statements first later =>
      rw [Task.run, runStatements]
      refine discipline.bind (first (discipline.hereditary .first admitted)) fun status => ?_
      exact later status (discipline.hereditary .later admitted)
  | background command =>
      rw [Task.run, runStatement, if_pos rfl]
      exact discipline.bind (discipline.job admitted) fun _ => discipline.done _
  | foreground command inner =>
      rw [Task.run, runStatement]
      exact discipline.settle (inner (discipline.hereditary .foreground admitted))
  | simple stages inner =>
      rw [Task.run, runCommand]
      exact inner (discipline.hereditary .simple admitted)
  | assignment name value =>
      rw [Task.run, runCommand]
      exact discipline.bind (discipline.set admitted fun shell => ⟨rfl, _, rfl⟩) fun _ =>
        discipline.done _
  | conditional branches fallback inner =>
      rw [Task.run, runCommand]
      exact inner (discipline.hereditary .conditional admitted)
  | parallel binder values body =>
      rw [Task.run, runCommand]
      exact discipline.bind discipline.get fun shell => discipline.atOnce _ admitted
  | sequential binder values body inner =>
      rw [Task.run, runCommand]
      exact discipline.bind discipline.get fun shell =>
        inner _ (discipline.hereditary .loop admitted)
  | nothing =>
      rw [Task.run, runBranches, runFallback]
      exact discipline.done _
  | fallback body inner =>
      rw [Task.run, runBranches, runFallback]
      exact inner (discipline.hereditary .fallback admitted)
  | branch test body branches fallback inTest inBody later =>
      rw [Task.run, runBranches]
      refine discipline.bind (inTest (discipline.hereditary .test admitted)) fun status => ?_
      split
      · exact inBody (discipline.hereditary .body admitted)
      · exact later (discipline.hereditary .otherwise admitted)
  | finished name body status => exact discipline.done status
  | round name body status value values inBody later =>
      have binds : (Task.rounds name body status (value :: values)).Binds name (some value) :=
        ⟨rfl, value, List.mem_cons_self, rfl⟩
      refine discipline.bind (discipline.set admitted fun _ => binds) fun _ => ?_
      refine discipline.bind (inBody (discipline.hereditary .round admitted)) fun status => ?_
      exact later status (discipline.hereditary .laterRound admitted)
  | single program inner => exact inner (discipline.hereditary .single admitted)
  | joined stages joined => exact discipline.joined joined admitted
  | program program => exact discipline.program admitted

end CommandShell
