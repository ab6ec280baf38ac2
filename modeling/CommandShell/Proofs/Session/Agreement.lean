import CommandShell.Proofs.Session.Course
import CommandShell.Proofs.Shell.Conduct
import CommandShell.Proofs.Shell.World

/-!
A session and a script file agree. Lines that make a script are run to the same effect when they are
entered one by one, apart from the prompts.
-/

namespace CommandShell

/-! Scripts one after the other. -/

namespace Routine

variable {α β : Type}

/-- A routine without its result. -/
def forget (routine : Routine α) : Routine Unit := routine >>= fun _ => pure ()

theorem forget_bind (routine : Routine α) (next : α → Routine β) :
    (routine >>= next).forget = routine >>= fun result => (next result).forget :=
  bind_assoc routine next _

theorem forget_apply (routine : Routine α) (shell : Shell) :
    routine.forget shell =
      (routine shell).bind fun outcome => .done (outcome.1.map fun _ => (), outcome.2) := by
  rw [forget, bind_apply]
  congr 1
  funext outcome
  cases outcome.1 with
  | ok result => rfl
  | error cause => rfl

end Routine

theorem runStatements_forget (status status' : Int) (statements : List Statement) :
    (runStatements status statements).forget = (runStatements status' statements).forget := by
  cases statements with
  | nil => simp only [runStatements]; rfl
  | cons statement statements => simp only [runStatements]

theorem Script.run_append (first second : Script) :
    (Script.run (first ++ second)).forget = Script.run first >>= fun _ =>
      (Script.run second).forget := by
  rw [Script.run, runStatements_append, Routine.forget_bind]
  congr 1
  funext status
  exact runStatements_forget status Status.success second

theorem runScript_adds (dump : Bool) (script : Script) :
    script.run.Adds dump (runScript dump script) := by
  unfold runScript
  split
  · next told => exact Routine.Adds.tell _ told (.refl script.run)
  · exact .refl script.run

theorem runInput_of_parse {input : String} {script : Script}
    (parsed : Script.parse input = .ok script) (dump : Bool) :
    runInput dump input = runScript dump script := by
  delta runInput
  rw [parsed]

theorem runInput_of_error {input : String} {error : Error}
    (failed : Script.parse input = .error error) (dump : Bool) :
    runInput dump input = reportUnreadable error := by
  delta runInput
  rw [failed]

namespace Session

theorem ask_adds {dump : Bool} (gathered : String) {plain routine : Routine Unit}
    (later : plain.Adds dump routine) : plain.Adds dump (ask gathered >>= fun _ => routine) :=
  fun shell => Work.Adds.write .output _ (later shell)

theorem run_line (dump : Bool) (gathered text : String) (entries : List Entry) :
    run dump gathered (.line text :: entries) = (do
      ask gathered
      match read (gathered ++ text ++ "\n") with
      | .unfinished => run dump (gathered ++ text ++ "\n") entries
      | .unreadable error =>
        let _ ← reportUnreadable error
        run dump "" entries
      | .script script =>
        let _ ← runScript dump script
        run dump "" entries) := (rfl)

/-- A session runs the scripts it reads, and prints prompts on the way. -/
theorem Course.adds {gathered : String} {lines : List String} {scripts : List Script}
    (course : Course gathered lines scripts) (dump : Bool) :
    (Script.run scripts.flatten).forget.Adds dump (run dump gathered (lines.map .line)) := by
  induction course with
  | ended => exact fun shell => Work.Adds.write .output _ (.done _)
  | unfinished reads _ inductionHypothesis =>
      rw [List.map_cons, run_line, reads]
      exact ask_adds _ inductionHypothesis
  | script reads _ inductionHypothesis =>
      rw [List.map_cons, run_line, reads, List.flatten_cons, Script.run_append]
      exact ask_adds _ ((runScript_adds dump _).bind fun _ => inductionHypothesis)

/-! A session that keeps a log. -/

/-- What became of the lines of a session so far. -/
structure Log where
  /-- The scripts that were handed on to be run. -/
  scripts : List Script
  /-- The errors that were reported instead. -/
  unreadable : List Error
  /-- The lines that were gathered and are no script yet. -/
  gathered : String

/-- A log in which nothing has happened. -/
def Log.start : Log := ⟨[], [], ""⟩

/-- Go on behind a routine. If it fails, the log stays as it is. -/
def Log.during {α : Type} (log : Log) (routine : Routine α)
    (next : α → Shell → Work (Log × Except Fault Unit × Shell)) (shell : Shell) :
    Work (Log × Except Fault Unit × Shell) :=
  (routine shell).bind fun outcome =>
    match outcome.1 with
    | .ok result => next result outcome.2
    | .error cause => .done (log, .error cause, outcome.2)

/-- The session, with a log of it. -/
def record (dump : Bool) (log : Log) : List Entry → Shell → Work (Log × Except Fault Unit × Shell)
  | [] => log.during (ask log.gathered) fun _ shell => .done (log, .ok (), shell)
  | .interrupt :: entries =>
    log.during (ask log.gathered) fun _ => record dump { log with gathered := "" } entries
  | .failure cause :: _ =>
    log.during (ask log.gathered) fun _ shell => .done (log, .error cause, shell)
  | .line text :: entries =>
    log.during (ask log.gathered) fun _ =>
      let gathered := log.gathered ++ text ++ "\n"
      match read gathered with
      | .unfinished => record dump { log with gathered := gathered } entries
      | .unreadable error =>
        let log : Log := ⟨log.scripts, log.unreadable ++ [error], ""⟩
        log.during (reportUnreadable error) fun _ => record dump log entries
      | .script script =>
        let log : Log := ⟨log.scripts ++ [script], log.unreadable, ""⟩
        log.during (runScript dump script) fun _ => record dump log entries

theorem during_forget {α : Type} {log : Log} {routine : Routine α}
    {next : α → Shell → Work (Log × Except Fault Unit × Shell)} {next' : α → Routine Unit}
    (same : ∀ result shell, ((next result shell).bind fun leaf => .done leaf.2) =
      next' result shell)
    (shell : Shell) :
    ((log.during routine next shell).bind fun leaf => .done leaf.2) =
      (routine >>= next') shell := by
  rw [Log.during, Action.bind_assoc, Routine.bind_apply]
  congr 1
  funext outcome
  cases outcome.1 with
  | ok result => exact same result outcome.2
  | error cause => rfl

theorem record_forget (dump : Bool) (log : Log) (entries : List Entry) (shell : Shell) :
    ((record dump log entries shell).bind fun leaf => .done leaf.2) =
      run dump log.gathered entries shell := by
  induction entries generalizing log shell with
  | nil => rfl
  | cons entry entries inductionHypothesis =>
      cases entry with
      | interrupt => exact during_forget (fun _ => inductionHypothesis _) shell
      | failure cause => exact during_forget (fun _ _ => rfl) shell
      | line text =>
          refine during_forget (fun _ shell => ?_) shell
          dsimp only
          cases read (log.gathered ++ text ++ "\n") with
          | unfinished => exact inductionHypothesis _ shell
          | unreadable error => exact during_forget (fun _ => inductionHypothesis _) shell
          | script script => exact during_forget (fun _ => inductionHypothesis _) shell

theorem always_during {α : Type} {log : Log} {routine : Routine α}
    {next : α → Shell → Work (Log × Except Fault Unit × Shell)}
    {holds : Log × Except Fault Unit × Shell → Prop} (within : routine.Within .exits)
    (later : ∀ result shell, (next result shell).Always holds)
    (stopped : ∀ code shell, holds (log, .error (.exit code), shell)) (shell : Shell) :
    (log.during routine next shell).Always holds := by
  refine Action.always_bind.mpr ((within shell).imp ?_)
  rintro ⟨outcome, shell'⟩ ⟨_, failed⟩
  cases outcome with
  | ok result => exact later result shell'
  | error cause =>
      obtain ⟨code, rfl⟩ := failed cause rfl
      exact stopped code shell'

theorem ask_within (gathered : String) {bounds : Bounds} : (ask gathered).Within bounds :=
  Routine.Within.get.bind fun _ => .lift _

theorem Course.always {lines : List String} {scripts : List Script} {gathered : String}
    (course : Course gathered lines scripts) (dump : Bool) (log : Log)
    (same : log.gathered = gathered) (shell : Shell) :
    (record dump log (lines.map .line) shell).Always fun leaf =>
      leaf.1.unreadable = log.unreadable ∧ leaf.1.scripts <+: log.scripts ++ scripts ∧
        (leaf.2.1 = .ok () ∧ leaf.1.scripts = log.scripts ++ scripts ∧ leaf.1.gathered = "" ∨
          ∃ code, leaf.2.1 = .error (.exit code)) := by
  induction course generalizing log shell with
  | ended =>
      refine always_during (ask_within _) (fun _ shell => ?_) (fun code shell => ?_) shell
      · exact ⟨rfl, by simp, Or.inl ⟨rfl, by simp, same⟩⟩
      · exact ⟨rfl, by simp, Or.inr ⟨code, rfl⟩⟩
  | unfinished reads later inductionHypothesis =>
      refine always_during (ask_within _) (fun _ shell => ?_) (fun code shell => ?_) shell
      · simp only [same, reads]
        exact inductionHypothesis ⟨log.scripts, log.unreadable, _⟩ rfl shell
      · exact ⟨rfl, by simp, Or.inr ⟨code, rfl⟩⟩
  | @script gathered line lines script scripts reads later inductionHypothesis =>
      have handed : log.scripts ++ [script] ++ scripts = log.scripts ++ script :: scripts := by simp
      refine always_during (ask_within _) (fun _ shell => ?_) (fun code shell => ?_) shell
      · simp only [same, reads]
        refine always_during (runScript_exits dump script) (fun _ shell => ?_)
          (fun code shell => ?_) shell
        · have always := inductionHypothesis ⟨log.scripts ++ [script], log.unreadable, ""⟩ rfl shell
          rwa [handed] at always
        · exact ⟨rfl, ⟨scripts, handed⟩, Or.inr ⟨code, rfl⟩⟩
      · exact ⟨rfl, by simp, Or.inr ⟨code, rfl⟩⟩

/-- Lines that make a script, entered one by one, are all run and nothing else is, unless the shell
is ended in between. The work is that of running the whole script at once, with texts written on the
way, and so it ends in the same way in every world, if only scripts can be printed where that is
asked for. -/
theorem run_lines {lines : List String} {script : Script}
    (plain : ∀ line ∈ lines, ∀ c ∈ line.toList, isPlain c = true)
    (parsed : Script.parse (joinLines lines) = .ok script) (dump : Bool) (shell : Shell) :
    ((record dump .start (lines.map .line) shell).bind fun leaf => .done leaf.2) =
      run dump "" (lines.map .line) shell ∧
    ((record dump .start (lines.map .line) shell).Always fun leaf =>
      leaf.1.unreadable = [] ∧ leaf.1.scripts.flatten <+: script ∧
        (leaf.2.1 = .ok () ∧ leaf.1.scripts.flatten = script ∧ leaf.1.gathered = "" ∨
          ∃ code, leaf.2.1 = .error (.exit code))) ∧
    (∃ plain : Work (Except Fault Unit × Shell),
      plain.Adds dump (run dump "" (lines.map .line) shell) ∧
        plain.Adds dump ((runInput dump (joinLines lines)).forget shell)) ∧
    ∀ (world : World) (state final : world.State) (outcome : Except Fault Unit) (shell' : Shell),
      (dump = true → world.Prints) →
      (world.Ends state (run dump "" (lines.map .line) shell) (outcome, shell') final ↔
        ∃ result, world.Ends state (runInput dump (joinLines lines) shell) (result, shell') final ∧
          result.map (fun _ => ()) = outcome) := by
  have reads : Reader.read ("".toList ++ (joinLines lines).toList) = .ok script :=
    Script.parseChars_eq_ok.mp parsed
  obtain ⟨scripts, course, rfl⟩ := exists_course (by simp) plain (Or.inl rfl) reads
  have session := course.adds dump shell
  have input : Work.Adds dump ((Script.run scripts.flatten).forget shell)
      ((runInput dump (joinLines lines)).forget shell) := by
    rw [runInput_of_parse parsed]
    exact ((runScript_adds dump _).bind fun _ => .refl _) shell
  refine ⟨record_forget dump .start _ shell, ?_, ⟨_, session, input⟩, ?_⟩
  · refine (course.always dump .start rfl shell).imp ?_
    rintro ⟨log, outcome, shell'⟩ ⟨noErrors, ⟨rest, handed⟩, ended⟩
    refine ⟨noErrors, ⟨rest.flatten, ?_⟩, ?_⟩
    · rw [← List.flatten_append, handed]
      rfl
    · rcases ended with ⟨finished, all, empty⟩ | exited
      · exact Or.inl ⟨finished, by rw [all]; rfl, empty⟩
      · exact Or.inr exited
  · intro world state final outcome shell' prints
    rw [session.ends_iff prints, ← input.ends_iff prints, Routine.forget_apply, World.ends_map]
    constructor
    · rintro ⟨⟨result, shell''⟩, ends, same⟩
      obtain ⟨rfl, rfl⟩ := Prod.mk.inj same
      exact ⟨result, ends, rfl⟩
    · rintro ⟨result, ends, rfl⟩
      exact ⟨(result, shell'), ends, rfl⟩

theorem run_lines_loop :
    World.bare.Ends () (run true "" (["for x in", "do", "done"].map .line) (.start {} []))
      (.ok (), (Shell.start {} []).setStatus 0) () := by
  have parsed : Script.parse (joinLines ["for x in", "do", "done"]) =
      .ok [.mk (.loop false (.literal "x") [] []) false] := by
    with_unfolding_all rfl
  have plain : ∀ line ∈ ["for x in", "do", "done"], ∀ c ∈ line.toList, isPlain c = true := by
    simp [isPlain]
  -- The lines become a name, so that the session is not run on them here.
  generalize ["for x in", "do", "done"] = lines at parsed plain ⊢
  refine ((run_lines plain parsed true _).2.2.2 World.bare () () _ _ fun _ => World.bare_prints).mpr
    ⟨.ok 0, ?_, rfl⟩
  rw [runInput_of_parse parsed]
  exact ((runScript_adds true _ _).ends_iff fun _ => World.bare_prints).mpr ⟨rfl, rfl⟩

end Session

end CommandShell
