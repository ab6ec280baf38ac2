import CommandShell.Proofs.Shell.Reach

/-!
The request to end the shell. It comes from the command `exit` in the process itself and from
nowhere else; nothing is done behind it, and every other failure stays with the statement it happens
in.
-/

namespace CommandShell

/-- A program that tells the process to end: the first of its arguments is `exit`. -/
def Program.Exits (program : Program) (shell : Shell) : Prop :=
  (Expansion.arguments shell.store program).head? = some "exit"

instance (program : Program) (shell : Shell) : Decidable (program.Exits shell) :=
  inferInstanceAs (Decidable (_ = _))

variable {shell shell' : Shell} {events : List Event} {cause : Fault}

theorem Routine.Keeps.not_leads_error {α : Type} {routine : Routine α} {failure : Fault → Prop}
    (keeps : routine.Keeps (Bounds.failing failure).conduct) (other : ¬ failure cause) :
    ¬ routine.Leads shell events (.error cause) shell' := by
  intro leads
  exact other ((leads.within keeps.within).2 cause rfl)

theorem settleStatement_leads_error {routine : Routine Int} :
    (settleStatement routine).Leads shell events (.error cause) shell' ↔
      ∃ code, cause = .exit code ∧ routine.Leads shell events (.error (.exit code)) shell' := by
  rw [settleStatement, Routine.leads_attempt_bind]
  constructor
  · rintro ⟨first, second, inner, middle, rfl, leads, later⟩
    split at later
    · simp [Routine.leads_bind, Routine.leads_modify, Routine.leads_pure] at later
    · obtain ⟨rfl, same, rfl⟩ := Routine.leads_fail.mp later
      exact ⟨_, Except.error.inj same, by simpa using leads⟩
    · simp [Routine.leads_bind, Routine.report, Routine.complain, Routine.leads_tell,
        Routine.leads_modify, Routine.leads_pure] at later
  · rintro ⟨code, rfl, leads⟩
    exact ⟨events, [], _, shell', by simp, leads, Routine.leads_fail.mpr ⟨rfl, rfl, rfl⟩⟩

theorem settleStatement_leads_ok {routine : Routine Int} {status : Int}
    (leads : (settleStatement routine).Leads shell events (.ok status) shell') :
    (∃ behind, routine.Leads shell events (.ok status) behind ∧ shell' = behind.setStatus status) ∨
      ∃ cause first behind, (∀ code, cause ≠ .exit code) ∧
        routine.Leads shell first (.error cause) behind := by
  rw [settleStatement, Routine.leads_attempt_bind] at leads
  obtain ⟨first, second, inner, middle, rfl, leads, later⟩ := leads
  split at later
  · next status' =>
    rw [Routine.leads_modify_bind, Routine.leads_pure] at later
    obtain ⟨rfl, same, rfl⟩ := later
    obtain rfl := Except.ok.inj same
    exact Or.inl ⟨middle, by simpa using leads, rfl⟩
  · simp [Routine.leads_fail] at later
  · next cause other => exact Or.inr ⟨cause, first, middle, fun code same => other code same, leads⟩

theorem settleStatement_leads_of_ok {routine : Routine Int} {status : Int} {behind : Shell}
    (leads : routine.Leads shell events (.ok status) behind) :
    (settleStatement routine).Leads shell events (.ok status) (behind.setStatus status) := by
  refine Routine.leads_attempt_bind.mpr ⟨events, [], _, behind, by simp, leads, ?_⟩
  exact Routine.leads_modify_bind.mpr (Routine.leads_pure.mpr ⟨rfl, rfl, rfl⟩)

theorem Builtin.settle_leads_error {name : String} {routine : Routine Unit} :
    (Builtin.settle name routine).Leads shell events (.error cause) shell' ↔
      ∃ code, cause = .exit code ∧ routine.Leads shell events (.error (.exit code)) shell' := by
  rw [Builtin.settle, Routine.leads_attempt_bind]
  constructor
  · rintro ⟨first, second, inner, middle, rfl, leads, later⟩
    split at later
    · simp [Routine.leads_pure] at later
    · obtain ⟨rfl, same, rfl⟩ := Routine.leads_fail.mp later
      exact ⟨_, Except.error.inj same, by simpa using leads⟩
    · simp [Routine.leads_bind, Routine.complain, Routine.leads_tell, Routine.leads_pure] at later
  · rintro ⟨code, rfl, leads⟩
    exact ⟨events, [], _, shell', by simp, leads, Routine.leads_fail.mpr ⟨rfl, rfl, rfl⟩⟩

theorem Builtin.ofName?_eq_exit {name : String} (found : ofName? name = some .exit) :
    name = "exit" := by
  unfold ofName? at found
  split at found
  · rfl
  all_goals contradiction

theorem Builtin.run_leads_error {arguments : List String} :
    (Builtin.run arguments).Leads shell events (.error cause) shell' ↔
      arguments.head? = some "exit" ∧ cause = .exit 0 ∧ events = [] ∧ shell' = shell := by
  rw [Builtin.run, Builtin.settle_leads_error]
  constructor
  · rintro ⟨code, rfl, leads⟩
    split at leads
    · next builtin found =>
      by_cases exits : builtin = .exit
      · subst exits
        obtain ⟨rfl, same, rfl⟩ := Routine.leads_fail.mp leads
        have named := ofName?_eq_exit found
        cases arguments with
        | nil => simp at named
        | cons name rest => exact ⟨congrArg some named, Except.error.inj same, rfl, rfl⟩
      · -- Whatever the other commands fail with, it is no request to end.
        have keeps : (builtin.perform arguments).Keeps
            (Bounds.failing fun cause => ∀ code, cause ≠ .exit code).conduct :=
          perform_keeps (fun _ _ => trivial) (fun _ other => other) (fun _ _ => trivial) builtin
            arguments fun same => absurd same exits
        exact absurd leads (keeps.not_leads_error fun other => other code rfl)
    · simp [Routine.leads_fail] at leads
  · rintro ⟨head, rfl, rfl, rfl⟩
    obtain ⟨rest, rfl⟩ := List.head?_eq_some_iff.mp head
    exact ⟨0, rfl, Routine.leads_fail.mpr ⟨rfl, rfl, rfl⟩⟩

theorem runProgram_leads_error {program : Program} :
    (runProgram program).Leads shell events (.error cause) shell' ↔
      program.Exits shell ∧ cause = .exit 0 ∧ events = [] ∧ shell' = shell := by
  rw [runProgram, Routine.leads_get_bind, Program.Exits]
  cases Expansion.arguments shell.store program with
  | nil => simp [Routine.leads_pure]
  | cons name rest =>
      dsimp only
      split
      · exact Builtin.run_leads_error
      · next external =>
        constructor
        · intro leads
          exfalso
          split at leads
          · rcases Routine.leads_bind.mp leads with ⟨_, _, never, _⟩ | ⟨_, lifted, _⟩
            · exact nomatch never
            · obtain ⟨never, _⟩ := Routine.leads_lift.mp lifted
              exact nomatch never
          · refine @Routine.Keeps.not_leads_error _ _ _ _ _ _ (fun _ => False) ?_ id leads
            refine (Routine.Keeps.ask trivial).bind fun reply => ?_
            split
            · exact waitChild_keeps (fun _ _ => trivial) (fun _ => trivial) _
            · exact (complain_keeps (fun _ _ => trivial) _).bind fun _ => .done _
        · rintro ⟨head, _⟩
          obtain rfl := Option.some.inj head
          simp [Builtin.ofName?] at external

/-- Tasks that are left to other processes. What this one does is start them, and wait where it has
to. -/
def Task.Apart : Task → Prop
  | .statement (.mk _ background) => background = true
  | .command (.loop parallel _ _ _) => parallel = true
  | .pipeline stages => stages.length ≠ 1
  | _ => False

theorem Task.Apart.keeps {task : Task} (apart : task.Apart) :
    task.run.Keeps (Bounds.failing fun _ => False).conduct := by
  have plain (call : Call) (_ : call.Plain) :
      (Bounds.failing fun _ => False).conduct.call call := trivial
  unfold Task.Apart at apart
  split at apart
  · subst apart
    rw [Task.run, runStatement, if_pos rfl]
    exact (startJob_keeps plain (fun _ _ => trivial) fun _ _ => trivial).bind fun _ => .done _
  · subst apart
    rw [Task.run, runCommand]
    exact Routine.Keeps.get.bind fun shell =>
      runAtOnce_keeps plain (fun _ => trivial) (fun _ _ => trivial) fun _ _ _ => trivial
  · exact runPipeline_joined_keeps plain apart (fun _ => trivial) fun _ _ _ _ _ => trivial
  · contradiction

namespace Task

variable {task next : Task} {middle : Shell} {first second : List Event} {code : Int}

/-- The request to end the shell goes through every task on the way. -/
theorem Enters.leads_exit (enters : Enters task shell first next middle)
    (leads : next.run.Leads middle second (.error (.exit code)) shell') :
    task.run.Leads shell (first ++ second) (.error (.exit code)) shell' := by
  cases enters with
  | first =>
      rw [run, runStatements]
      exact leads.bind_error
  | later ran =>
      rw [run, runStatements]
      exact ran.bind leads
  | foreground =>
      rw [run, runStatement]
      exact settleStatement_leads_error.mpr ⟨code, rfl, leads⟩
  | simple | conditional | loop =>
      rw [run, runCommand]
      exact leads
  | test =>
      rw [run, runBranches]
      exact leads.bind_error
  | body ran =>
      rw [run, runBranches]
      exact ran.bind leads
  | otherwise ran failed =>
      rw [run, runBranches]
      refine ran.bind ?_
      rw [if_neg failed]
      exact leads
  | fallback =>
      rw [run, runBranches, runFallback]
      exact leads
  | round =>
      exact leads.bind_error
  | laterRound ran =>
      exact Routine.leads_modify_bind.mpr (ran.bind leads)
  | single => exact leads

theorem Reaches.leads_exit (reaches : Reaches task shell first next middle)
    (leads : next.run.Leads middle second (.error (.exit code)) shell') :
    task.run.Leads shell (first ++ second) (.error (.exit code)) shell' := by
  induction reaches with
  | here => exact leads
  | onward enters _ inductionHypothesis =>
      rw [List.append_assoc]
      exact enters.leads_exit (inductionHypothesis leads)

/-- A task comes to a program that tells the process to end. -/
def Exits (task : Task) (shell : Shell) (events : List Event) (shell' : Shell) : Prop :=
  ∃ program, Reaches task shell events (.program program) shell' ∧ program.Exits shell'

theorem Exits.leads (exits : task.Exits shell events shell') :
    task.run.Leads shell events (.error (.exit 0)) shell' := by
  obtain ⟨program, reaches, told⟩ := exits
  have ended : (Task.program program).run.Leads shell' [] (.error (.exit 0)) shell' :=
    runProgram_leads_error.mpr ⟨told, rfl, rfl, rfl⟩
  simpa using reaches.leads_exit ended

theorem Enters.exits (enters : Enters task shell first next middle)
    (exits : next.Exits middle second shell') : task.Exits shell (first ++ second) shell' := by
  obtain ⟨program, reaches, told⟩ := exits
  exact ⟨program, .onward enters reaches, told⟩

/-- If a task fails, the process was told to end, and nothing was done behind that. -/
theorem exits_of_leads (task : Task) {shell : Shell} {events : List Event}
    (leads : task.run.Leads shell events (.error cause) shell') :
    cause = .exit 0 ∧ task.Exits shell events shell' := by
  induction task using Task.induction generalizing shell events with
  | nil status =>
      rw [run, runStatements] at leads
      simp [Routine.leads_pure] at leads
  | cons status statement statements first later =>
      rw [run, runStatements] at leads
      rcases Routine.leads_bind.mp leads with ⟨_, _, status', _, rfl, ran, rest⟩ | ⟨_, failed, same⟩
      · obtain ⟨rfl, exits⟩ := later status' rest
        exact ⟨rfl, (Enters.later ran).exits exits⟩
      · obtain rfl := Except.error.inj same
        obtain ⟨rfl, exits⟩ := first failed
        exact ⟨rfl, Enters.first.exits exits⟩
  | background command =>
      have apart : (Task.statement (.mk command true)).Apart := rfl
      exact absurd leads (apart.keeps.not_leads_error id)
  | foreground command inner =>
      rw [run, runStatement] at leads
      obtain ⟨code, rfl, failed⟩ := settleStatement_leads_error.mp leads
      obtain ⟨same, exits⟩ := inner failed
      exact ⟨same, Enters.foreground.exits exits⟩
  | simple stages inner =>
      rw [run, runCommand] at leads
      obtain ⟨rfl, exits⟩ := inner leads
      exact ⟨rfl, Enters.simple.exits exits⟩
  | assignment name value =>
      rw [run, runCommand, assign, Routine.leads_modify_bind] at leads
      simp [Routine.leads_pure] at leads
  | conditional branches fallback inner =>
      rw [run, runCommand] at leads
      obtain ⟨rfl, exits⟩ := inner leads
      exact ⟨rfl, Enters.conditional.exits exits⟩
  | parallel binder values body =>
      have apart : (Task.command (.loop true binder values body)).Apart := rfl
      exact absurd leads (apart.keeps.not_leads_error id)
  | sequential binder values body inner =>
      rw [run, runCommand] at leads
      obtain ⟨rfl, exits⟩ := inner _ leads
      exact ⟨rfl, Enters.loop.exits exits⟩
  | nothing =>
      rw [run, runBranches, runFallback] at leads
      simp [Routine.leads_pure] at leads
  | fallback body inner =>
      rw [run, runBranches, runFallback] at leads
      obtain ⟨rfl, exits⟩ := inner leads
      exact ⟨rfl, Enters.fallback.exits exits⟩
  | branch test body branches fallback inTest inBody later =>
      rw [run, runBranches] at leads
      rcases Routine.leads_bind.mp leads with ⟨_, _, status, _, rfl, ran, rest⟩ | ⟨_, failed, same⟩
      · by_cases succeeded : status = Status.success
        · subst succeeded
          obtain ⟨rfl, exits⟩ := inBody rest
          exact ⟨rfl, (Enters.body ran).exits exits⟩
        · rw [if_neg succeeded] at rest
          obtain ⟨rfl, exits⟩ := later rest
          exact ⟨rfl, (Enters.otherwise ran succeeded).exits exits⟩
      · obtain rfl := Except.error.inj same
        obtain ⟨rfl, exits⟩ := inTest failed
        exact ⟨rfl, Enters.test.exits exits⟩
  | finished name body status =>
      simp [run, runEach, Routine.leads_pure] at leads
  | round name body status value values inBody later =>
      rw [run, runEach, Routine.leads_modify_bind] at leads
      rcases Routine.leads_bind.mp leads with ⟨_, _, status', _, rfl, ran, rest⟩ | ⟨_, failed, same⟩
      · obtain ⟨rfl, exits⟩ := later status' rest
        exact ⟨rfl, (Enters.laterRound ran).exits exits⟩
      · obtain rfl := Except.error.inj same
        obtain ⟨rfl, exits⟩ := inBody failed
        exact ⟨rfl, Enters.round.exits exits⟩
  | single program inner =>
      obtain ⟨rfl, exits⟩ := inner leads
      exact ⟨rfl, Enters.single.exits exits⟩
  | joined stages joined =>
      have apart : (Task.pipeline stages).Apart := joined
      exact absurd leads (apart.keeps.not_leads_error id)
  | program program =>
      obtain ⟨told, rfl, rfl, rfl⟩ := runProgram_leads_error.mp leads
      exact ⟨rfl, program, .here, told⟩

end Task

/-- Work that leaves the process as it is, where programs do not take its place. -/
def Conduct.ongoing : Conduct where
  state shell := shell.flags.inPlace = false
  call := Call.Ongoing
  change first second := second.flags = first.flags
  failure _ := True
  refl _ := rfl
  trans first second := second.trans first
  state_of_change own kept := by rw [kept, own]

theorem Conduct.ongoing_allows : Conduct.ongoing.Allows fun _ => True where
  hereditary _ _ := trivial
  plain _ plain := plain.ongoing
  waits _ := trivial
  forks _ _ _ _ _ := trivial
  inPlace shell own replaced := by
    have own : shell.flags.inPlace = false := own
    rw [own] at replaced
    contradiction
  status _ _ := rfl
  jobs _ _ := rfl
  bindings _ _ _ := rfl
  directory _ _ := rfl
  exit _ := trivial

theorem Script.run_append_eq (first second : Script) :
    Script.run (first ++ second) = first.run >>= fun status =>
      if second.isEmpty then pure status else second.run := by
  rw [Script.run, runStatements_append]
  congr 1
  funext status
  cases second with
  | nil =>
      rw [runStatements]
      rfl
  | cons statement statements =>
      rw [runStatements, List.isEmpty_cons, if_neg Bool.false_ne_true, Script.run, runStatements]

/-- A script comes to a status or to the request to end the shell, and to that one exactly if the
process itself came to the command for it: then nothing has happened since. In a process of its own
it comes to one of these, whatever the replies to its calls are, unless a text cannot be written
that must not be lost: then it gives up at once. Processes that do other parts of the script cannot
end it, and a script with something behind it is that script followed by the rest, if there is
any. -/
theorem Script.run_exits_iff (script : Script) (shell : Shell) :
    (∀ events outcome shell', script.run.Leads shell events outcome shell' →
      ((∃ status, outcome = .ok status) ∨ outcome = .error (.exit 0)) ∧
      (outcome = .error (.exit 0) ↔
        ∃ before ended, before <+: events ∧ script.task.Exits shell before ended) ∧
      ∀ before ended, before <+: events → script.task.Exits shell before ended →
        events = before ∧ shell' = ended) ∧
    (shell.flags.inPlace = false → ∀ events, Work.Begins (script.run shell) events →
      (∃ outcome shell', script.run.Leads shell events outcome shell') ∨
      ∃ call, Work.Asks (script.run shell) events call ∧
        (call.Ongoing ∨ ∃ before event, events = before ++ [event] ∧ event.Defeats call)) ∧
    (∀ task : Task, task.Apart → ∀ shell, (task.run shell).Always fun outcome =>
      ∃ status, outcome.1 = .ok status) ∧
    ∀ later : Script, Script.run (script ++ later) = script.run >>= fun status =>
      if later.isEmpty then pure status else later.run := by
  refine ⟨?_, ?_, ?_, script.run_append_eq⟩
  · intro events outcome shell' leads
    have ended {before : List Event} {ended : Shell} (start : before <+: events)
        (exits : script.task.Exits shell before ended) :
        events = before ∧ outcome = .error (.exit 0) ∧ shell' = ended := by
      obtain ⟨rest, rfl⟩ := start
      obtain ⟨same, results⟩ := Work.Leads.unique leads exits.leads (List.append_nil _)
      obtain ⟨rfl, rfl⟩ := Prod.mk.inj results
      exact ⟨same, rfl, rfl⟩
    refine ⟨?_, ⟨?_, ?_⟩, ?_⟩
    · cases outcome with
      | ok status => exact Or.inl ⟨status, rfl⟩
      | error cause =>
          obtain ⟨rfl, _⟩ := script.task.exits_of_leads leads
          exact Or.inr rfl
    · rintro rfl
      exact ⟨events, shell', List.prefix_rfl, (script.task.exits_of_leads leads).2⟩
    · rintro ⟨before, at', start, exits⟩
      exact (ended start exits).2.1
    · intro before at' start exits
      exact ⟨(ended start exits).1, (ended start exits).2.2⟩
  · intro own events begins
    have keeps := Conduct.ongoing_allows.task script.task trivial shell own
    rcases begins.leads_or_asks with ⟨⟨outcome, shell'⟩, leads⟩ | ⟨call, asks⟩
    · exact Or.inl ⟨outcome, shell', leads⟩
    · exact Or.inr ⟨call, asks, asks.allowed_or_defeated keeps⟩
  · intro task apart shell
    refine (apart.keeps.within shell).imp ?_
    rintro ⟨outcome, shell'⟩ ⟨_, failed⟩
    cases outcome with
    | ok status => exact ⟨status, rfl⟩
    | error cause => exact absurd rfl (failed cause)

theorem Script.run_exits_iff_loop :
    (((Task.statement (.mk (.pipeline [[.literal "exit"]]) true)).run (.start {} [])).Always
      fun outcome => ∃ status, outcome.1 = .ok status) ∧
    (∀ events outcome shell',
      (Script.run [.mk (.loop false (.literal "x") [.literal "a", .literal "b"]
          [.mk (.pipeline [[.literal "exit"]]) false]) false,
        .mk (.pipeline [[.literal "ls"]]) false]).Leads (.start {} []) events outcome shell' ↔
      events = [] ∧ outcome = .error (.exit 0) ∧
        shell' = (Shell.start {} []).setVariable "x" (some "a")) ∧
    let job : Script := [.mk (.pipeline [[.literal "exit"]]) true]
    let events : List Event :=
      [⟨.fork (.job (.pipeline [[.literal "exit"]]) (.start {} [])), .ok 7⟩]
    (∃ outcome shell', job.run.Leads (.start {} []) events outcome shell') ∨
      ∃ call, Work.Asks (job.run (.start {} [])) events call ∧
        (call.Ongoing ∨ ∃ before event, events = before ++ [event] ∧ event.Defeats call) := by
  have apart : (Task.statement (.mk (.pipeline [[.literal "exit"]]) true)).Apart := rfl
  refine ⟨(Script.run_exits_iff [] (.start {} [])).2.2.1 _ apart _, ?_, ?_⟩
  · intro events outcome shell'
    have exits : (Script.task [.mk (.loop false (.literal "x") [.literal "a", .literal "b"]
          [.mk (.pipeline [[.literal "exit"]]) false]) false,
        .mk (.pipeline [[.literal "ls"]]) false]).Exits (.start {} []) []
          ((Shell.start {} []).setVariable "x" (some "a")) := by
      refine ⟨[.literal "exit"], ?_, by decide⟩
      refine .onward .first (.onward .foreground (.onward .loop ?_))
      exact .onward .round
        (.onward .first (.onward .foreground (.onward .simple (.onward .single .here))))
    constructor
    · intro leads
      obtain ⟨_, ended, unique⟩ := (Script.run_exits_iff _ _).1 events outcome shell' leads
      have nothing : [] <+: events := List.nil_prefix
      exact ⟨(unique _ _ nothing exits).1, ended.mpr ⟨_, _, nothing, exits⟩,
        (unique _ _ nothing exits).2⟩
    · rintro ⟨rfl, rfl, rfl⟩
      exact exits.leads
  · refine (Script.run_exits_iff _ _).2.1 rfl _ fun before event after same => ?_
    rcases List.append_eq_singleton_iff.mp same.symm with ⟨rfl, same⟩ | ⟨_, impossible⟩
    · obtain ⟨rfl, _⟩ := List.cons.inj same
      exact Or.inl ⟨[], by simp, rfl, rfl⟩
    · contradiction

/-- It is not so that every failure stays with its statement: if the message about one cannot be
written, the process gives up. Nor is a script with nothing behind it that script followed by the
empty one: its status is kept. -/
theorem Script.run_gives_up :
    let moves : Statement := .mk (.pipeline [[.literal "cd", .literal "/nope"]]) false
    let touches : Statement := .mk (.pipeline [[.literal "touch", .literal "f"]]) false
    let fails : Statement := .mk (.pipeline [[.literal "false"]]) false
    let events : List Event := [⟨.changeDirectory "/nope", .error .noEntry⟩,
      ⟨.write .errors "cd: No such file or directory\n", .error (.system .noSpace)⟩]
    Work.Asks (Script.run [moves, touches] (.start {} [])) events
      (.abort "failed printing to stderr: No space left on device (os error 28)") ∧
    (∀ more outcome shell',
      ¬ (Script.run [moves, touches]).Leads (.start {} []) (events ++ more) outcome shell') ∧
    ∃ ran shell', (Script.run ([fails] ++ [])).Leads (.start {} []) ran (.ok 1) shell' ∧
      (Script.run [fails] >>= fun _ => Script.run []).Leads (.start {} []) ran (.ok 0) shell' := by
  intro moves touches fails events
  have asks : Work.Asks (Script.run [moves, touches] (.start {} [])) events
      (.abort "failed printing to stderr: No space left on device (os error 28)") :=
    Or.inr ⟨[_], [_], .error .noEntry, rfl, .last rfl,
      Or.inr ⟨[_], [], .error (.system .noSpace), rfl, .last rfl, Or.inl ⟨[], by simp, rfl, rfl⟩⟩⟩
  have leads : (Script.run [fails]).Leads (.start {} [])
      [⟨.fork (.program ["false"]), .ok 7⟩, ⟨.wait 7, .ok (.exited 7 1)⟩] (.ok 1)
      ((Shell.start {} []).setStatus 1) :=
    ⟨[_], [_], .ok 7, rfl, .last rfl, [_], [], .ok (.exited 7 1), rfl, .last rfl, rfl, rfl⟩
  have nothing : (Script.run []).Leads ((Shell.start {} []).setStatus 1) [] (.ok 0)
      ((Shell.start {} []).setStatus 1) := by
    rw [Script.run, runStatements]
    exact ⟨rfl, rfl⟩
  exact ⟨asks, fun more outcome shell' => asks.not_leads_of_abort, _, _, leads, leads.bind nothing⟩

end CommandShell
