import CommandShell.Proofs.Shell.Conduct
import CommandShell.Proofs.Shell.Writes
import CommandShell.Shell.Child

/-!
Conditionals with several branches. The branches behind the first are a conditional of their own,
which stands in the fallback: one more statement is settled on the way to each of them, and nothing
can be seen of that, since to settle a statement twice is to settle it once.
-/

namespace CommandShell

theorem Action.bind_congr {Call : Type} {Reply : Call → Type} {α β : Type}
    {action : Action Call Reply α} {next next' : α → Action Call Reply β}
    (same : action.Always fun result => next result = next' result) :
    action.bind next = action.bind next' := by
  induction action with
  | done result => exact same
  | ask call again rest inductionHypothesis =>
      simp only [ask_bind]
      congr 1
      funext reply
      exact inductionHypothesis reply (same reply)

theorem Shell.setStatus_setStatus (shell : Shell) (status status' : Int) :
    (shell.setStatus status).setStatus status' = shell.setStatus status' := by
  simp only [setStatus, setVariable, Store.set_set]

theorem settleStatement_apply (routine : Routine Int) (shell : Shell) :
    settleStatement routine shell =
      (routine shell).bind fun outcome =>
        settleStatement (Routine.ofExcept outcome.1) outcome.2 := by
  rw [settleStatement, Routine.bind_apply, Routine.attempt, Action.bind_assoc]
  refine Action.bind_congr ((Action.always_true _).imp ?_)
  rintro ⟨outcome, shell'⟩ -
  cases outcome <;> rfl

theorem settleStatement_fail {cause : Fault} (other : ∀ code, cause ≠ .exit code) (shell : Shell) :
    settleStatement (Routine.fail cause) shell =
      (Work.tell .errors (shellName ++ ": " ++ cause.message ++ "\n")).bind fun _ =>
        .done (.ok cause.number, shell.setStatus cause.number) := by
  let settle : Routine Int := do
    Routine.modify fun shell => shell.setStatus cause.number
    pure cause.number
  have reports : settleStatement (Routine.fail cause) shell =
      (Routine.report cause.message >>= fun _ => settle) shell := by
    cases cause with
    | exit code => exact absurd rfl (other code)
    | _ => rfl
  rw [reports]
  exact Routine.lift_bind_apply _ _ shell

theorem settleStatement_settleStatement (routine : Routine Int) :
    settleStatement (settleStatement routine) = settleStatement routine := by
  funext shell
  rw [settleStatement_apply (settleStatement routine), settleStatement_apply routine,
    Action.bind_assoc]
  refine Action.bind_congr ((Action.always_true _).imp ?_)
  rintro ⟨outcome, shell'⟩ -
  have again (status : Int) :
      settleStatement (Routine.ofExcept (.ok status)) (shell'.setStatus status) =
        .done (.ok status, shell'.setStatus status) := by
    change Action.done (Except.ok status, (shell'.setStatus status).setStatus status) = _
    rw [Shell.setStatus_setStatus]
  cases outcome with
  | ok status => exact again status
  | error cause =>
      by_cases exits : ∃ code, cause = .exit code
      · obtain ⟨code, rfl⟩ := exits
        rfl
      · rw [Routine.ofExcept, settleStatement_fail (not_exists.mp exits), Action.bind_assoc]
        exact Action.bind_congr ((Action.always_true _).imp fun _ _ => again _)

theorem settleStatement_bind_congr {α : Type} {routine : Routine α} {next next' : α → Routine Int}
    (same : ∀ result, settleStatement (next result) = settleStatement (next' result)) :
    settleStatement (routine >>= next) = settleStatement (routine >>= next') := by
  funext shell
  rw [settleStatement_apply, settleStatement_apply (routine >>= next'), Routine.bind_apply,
    Routine.bind_apply, Action.bind_assoc, Action.bind_assoc]
  refine Action.bind_congr ((Action.always_true _).imp ?_)
  rintro ⟨outcome, shell'⟩ -
  cases outcome with
  | error cause => rfl
  | ok result => rw [← settleStatement_apply, ← settleStatement_apply, same]

theorem finish_bind_congr {α : Type} {routine : Routine α} {next next' : α → Routine Int}
    {shell : Shell}
    (same : ∀ result shell', finish (next result) shell' = finish (next' result) shell') :
    finish (routine >>= next) shell = finish (routine >>= next') shell := by
  rw [finish, finish, Routine.bind_apply, Routine.bind_apply, Action.bind_assoc, Action.bind_assoc]
  refine Action.bind_congr ((Action.always_true _).imp ?_)
  rintro ⟨outcome, shell'⟩ -
  cases outcome with
  | error cause => rfl
  | ok result => exact same result shell'

/-- A process that ends with a statement ends as it would without settling it. -/
theorem finish_settleStatement {routine : Routine Int} (exits : routine.Within .exits)
    (shell : Shell) :
    finish (settleStatement routine) shell = finish routine shell := by
  rw [finish, finish, settleStatement_apply, Action.bind_assoc]
  refine Action.bind_congr ((exits shell).imp ?_)
  rintro ⟨outcome, shell'⟩ ⟨-, failed⟩
  cases outcome with
  | ok status => rfl
  | error cause =>
      obtain ⟨code, rfl⟩ := failed cause rfl
      rfl

theorem runStatements_single (statement : Statement) :
    runStatements Status.success [statement] = runStatement statement := by
  funext shell
  rw [runStatements, Routine.bind_apply]
  refine Eq.trans (Action.bind_congr ((Action.always_true _).imp ?_)) (Action.bind_done _)
  rintro ⟨outcome, shell'⟩ -
  cases outcome <;> rfl

theorem runCommand_conditional_cons (first : Branch) (others : List Branch)
    (fallback : Option Script) :
    runCommand (.conditional (first :: others) fallback) = runPipeline first.test >>= fun status =>
      if status = Status.success then runStatements Status.success first.body
      else runCommand (.conditional others fallback) := by
  obtain ⟨test, body⟩ := first
  simp only [runCommand, runBranches, Branch.test, Branch.body]

/-- With a conditional for its fallback, a conditional of one branch differs from one of several
branches only in that the inner one is settled. -/
theorem runCommand_conditional_nested (first : Branch) (others : List Branch)
    (fallback : Option Script) :
    runCommand (.conditional [first] (some [.mk (.conditional others fallback) false])) =
      runPipeline first.test >>= fun status =>
        if status = Status.success then runStatements Status.success first.body
        else settleStatement (runCommand (.conditional others fallback)) := by
  obtain ⟨test, body⟩ := first
  rw [runCommand, runBranches, runBranches, runFallback, runStatements_single, runStatement]
  rfl

theorem settleStatement_nested (first : Branch) (others : List Branch) (fallback : Option Script) :
    settleStatement (runCommand (.conditional (first :: others) fallback)) =
      settleStatement
        (runCommand (.conditional [first] (some [.mk (.conditional others fallback) false]))) := by
  rw [runCommand_conditional_cons, runCommand_conditional_nested]
  refine settleStatement_bind_congr fun status => ?_
  split
  · rfl
  · exact (settleStatement_settleStatement _).symm

theorem finish_runCommand_nested (first : Branch) (others : List Branch) (fallback : Option Script)
    (shell : Shell) :
    finish (runCommand (.conditional (first :: others) fallback)) shell =
      finish (runCommand (.conditional [first] (some [.mk (.conditional others fallback) false])))
        shell := by
  rw [runCommand_conditional_cons, runCommand_conditional_nested]
  refine finish_bind_congr fun status shell' => ?_
  split
  · rfl
  · have exits : (runCommand (.conditional others fallback)).Within .exits :=
      (Bounds.exits_allows.task (.command (.conditional others fallback)) trivial).within
    exact (finish_settleStatement exits shell').symm

/-- A statement in the background starts one job, and what follows does not depend on the work of
the job. -/
theorem exists_runStatement_background (shell : Shell) :
    ∃ next : Except Errno Pid → Work (Except Fault Int × Shell), ∀ command,
      runStatement (.mk command true) shell =
        Action.ask (.fork (.job command shell)) (fun _ => false) next := by
  let keep : Except Errno Pid → Routine Unit
    | .ok pid => do
      Routine.modify fun shell => { shell with jobs := (shell.jobs.insert pid).2 }
      Routine.say ("Started background job: PID " ++ toString pid)
    | .error errno => complainOfFork errno
  refine ⟨fun reply => (keep reply >>= fun _ => pure Status.success) shell, fun command => ?_⟩
  rw [runStatement, if_pos rfl]
  refine congrArg (Action.ask _ _) (funext fun reply => ?_)
  cases reply <;> rfl

/-- The branches behind the first may as well be a conditional in the fallback. In the foreground
the two statements are the same work, call by call, whatever the replies are, with the same outcome
and the same state of the shell behind it. In the background each of them starts one job and goes on
in the same way, and the two jobs are the same work. -/
theorem runStatement_elseIf (first second : Branch) (others : List Branch)
    (fallback : Option Script) :
    let several : Command := .conditional (first :: second :: others) fallback
    let nested : Command :=
      .conditional [first] (some [.mk (.conditional (second :: others) fallback) false])
    runStatement (.mk several false) = runStatement (.mk nested false) ∧
      ∀ shell, (Child.job several shell).work = (Child.job nested shell).work ∧
        ∃ next : Except Errno Pid → Work (Except Fault Int × Shell), ∀ command ∈ [several, nested],
          runStatement (.mk command true) shell =
            Action.ask (.fork (.job command shell)) (fun _ => false) next := by
  intro several nested
  refine ⟨?_, fun shell => ⟨?_, ?_⟩⟩
  · simp only [runStatement, Bool.false_eq_true, if_false]
    exact settleStatement_nested first (second :: others) fallback
  · refine finish_bind_congr fun reply shell' => ?_
    split
    · exact finish_runCommand_nested first (second :: others) fallback shell'
    · rfl
  · obtain ⟨next, starts⟩ := exists_runStatement_background shell
    exact ⟨next, fun command _ => starts command⟩

end CommandShell
