import CommandShell.Proofs.Shell.LastStatus
import CommandShell.Proofs.Shell.StatusRange
import CommandShell.Startup

/-!
The exit code of a process, told by what it asks for in the end. The shell ends with the code of a
text that is no script, with success on request, or with the status of the last statement that it
ran itself; a process that it has forked ends with success if its share of the work did, or on
request.
-/

namespace CommandShell

variable {shell shell' : Shell} {events : List Event} {code : Int}

namespace Status

theorem exitCode_range (status : Int) : 0 ≤ exitCode status ∧ exitCode status ≤ 255 := by
  unfold exitCode
  split
  · assumption
  · decide

theorem exitCode_eq_zero_iff {status : Int} : exitCode status = 0 ↔ status = 0 := by
  unfold exitCode
  split
  · rfl
  · next outside =>
      constructor
      · intro impossible
        contradiction
      · rintro rfl
        exact absurd ⟨by decide, by decide⟩ outside

end Status

/-! The end of a forked process. -/

/-- The exit code that stands for how the work of a forked process went. -/
def finalCode : Except Fault Int → Int
  | .ok status => Status.exitCode status
  | .error (.exit code) => code
  | .error _ => 1

theorem exitWith_asks (outcome : Except Fault Int) :
    (∃ events, Work.Asks (exitWith outcome) events (.exit (finalCode outcome))) ∧
      ∀ events code, Work.Asks (exitWith outcome) events (.exit code) →
        code = finalCode outcome := by
  unfold exitWith
  split
  · next status =>
    refine ⟨⟨[], Work.asks_exit.mpr ⟨rfl, rfl⟩⟩, fun events code asks => ?_⟩
    exact Call.exit.inj (Work.asks_exit.mp asks).2
  · next code =>
    refine ⟨⟨[], Work.asks_exit.mpr ⟨rfl, rfl⟩⟩, fun events code asks => ?_⟩
    exact Call.exit.inj (Work.asks_exit.mp asks).2
  · next cause other =>
    have own : finalCode (.error cause) = 1 := by
      cases cause with
      | exit code => exact absurd rfl (other code)
      | _ => rfl
    rw [own]
    constructor
    · have printed (text : String) :
          Work.Leads (Work.tell .errors text) [⟨.write .errors text, .ok ()⟩] () :=
        Work.leads_tell.mpr rfl
      exact ⟨_ ++ [], (printed _).asks_bind.mpr (Work.asks_exit.mpr ⟨rfl, rfl⟩)⟩
    · intro events code asks
      rcases Work.asks_bind.mp asks with printing | ⟨_, _, _, _, _, ends⟩
      · have other (text : String) :
            Work.Only (· ≠ .exit code) (fun _ => True) (Work.tell .errors text) :=
          Work.tell_only nofun
        exact absurd rfl (printing.allowed (other _) nofun)
      · exact Call.exit.inj (Work.asks_exit.mp ends).2

theorem Child.finish_leads_exit {child : Child} {task : Task} {given : Shell}
    (leads : (child.prepare >>= fun _ => task.run).Leads given events (.error (.exit code))
      shell') :
    code = 0 := by
  rcases Routine.leads_bind.mp leads with ⟨_, _, _, _, _, _, ran⟩ | ⟨cause, failed, same⟩
  · exact Fault.exit.inj (task.exits_of_leads ran).1
  · obtain rfl := Except.error.inj same
    have within : child.prepare.Within (.failing fun cause => ∃ errno, cause = .call errno) := by
      refine Child.prepare_within_of (fun _ _ => trivial) ?_ child
      exact fun errno => ⟨errno, rfl⟩
    obtain ⟨errno, impossible⟩ := (failed.within within).2 _ rfl
    cases impossible

/-- A forked process that comes to the end of its work exits with success exactly if the work did,
or on request. -/
theorem Child.exitCode_of_leads {child : Child} {task : Task} {given : Shell}
    {outcome : Except Fault Int} (starts : child.start? = some (task, given))
    (leads : (child.prepare >>= fun _ => task.run).Leads given events outcome shell') :
    (0 ≤ finalCode outcome ∧ finalCode outcome ≤ 255) ∧
      (finalCode outcome = 0 ↔ outcome = .ok 0 ∨ ∃ code, outcome = .error (.exit code)) ∧
      (∃ more, Work.Asks child.work (events ++ more) (.exit (finalCode outcome))) ∧
      ∀ more code, Work.Asks child.work (events ++ more) (.exit code) →
        code = finalCode outcome := by
  have ends (more : List Event) (asked : Call) :
      Work.Asks child.work (events ++ more) asked ↔ Work.Asks (exitWith outcome) more asked := by
    rw [Child.work_of_start? starts]
    exact Work.Leads.asks_bind leads
  simp only [ends]
  refine ⟨?_, ?_, (exitWith_asks outcome).1, (exitWith_asks outcome).2⟩
  · unfold finalCode
    split
    · exact Status.exitCode_range _
    · rw [Child.finish_leads_exit leads]
      decide
    · decide
  · unfold finalCode
    split
    · simp [Status.exitCode_eq_zero_iff]
    · simp [Child.finish_leads_exit leads]
    · next other => simpa using fun code same => other code same

/-! The end of the shell. -/

theorem Task.not_exits_of_leads {task : Task} {status : Int} {before : List Event} {ended : Shell}
    (leads : task.run.Leads shell events (.ok status) shell') (start : before <+: events) :
    ¬ task.Exits shell before ended := by
  intro exits
  obtain ⟨rest, rfl⟩ := start
  obtain ⟨_, results⟩ := Work.Leads.unique leads exits.leads (List.append_nil _)
  cases (Prod.mk.inj results).1

/-- The status that the last statement in the foreground has in a run of a script. Without one it is
zero. -/
inductive Script.LastStatus : Script → Shell → List Event → Int → Prop where
  | none {script : Script} {shell shell' : Shell} {events : List Event} {result : Int}
      (ran : script.run.Leads shell events (.ok result) shell')
      (background : ∀ statement ∈ script, statement.background = true) :
        LastStatus script shell events 0
  | some {before later : Script} {command : Command} {shell reached behind shell' : Shell}
      {first second third : List Event} {previous status result : Int}
      (ran : (Script.run before).Leads shell first (.ok previous) reached)
      (last : (runStatement (.mk command false)).Leads reached second (.ok status) behind)
      (after : (runStatements status later).Leads behind third (.ok result) shell')
      (background : ∀ statement ∈ later, statement.background = true) :
      LastStatus (before ++ .mk command false :: later) shell (first ++ (second ++ third)) status

theorem exists_last_foreground (statements : List Statement) :
    (∀ statement ∈ statements, statement.background = true) ∨
      ∃ before command later, statements = before ++ .mk command false :: later ∧
        ∀ statement ∈ later, statement.background = true := by
  induction statements with
  | nil => exact Or.inl (by simp)
  | cons statement statements inductionHypothesis =>
      rcases inductionHypothesis with background | ⟨before, command, later, rfl, background⟩
      · obtain ⟨command, own⟩ := statement
        cases own with
        | true =>
            left
            intro other membership
            rcases List.mem_cons.mp membership with rfl | later
            · rfl
            · exact background other later
        | false => exact Or.inr ⟨[], command, statements, rfl, background⟩
      · exact Or.inr ⟨statement :: before, command, later, rfl, background⟩

/-- Behind a script, the shell has the status of the last statement in the foreground. -/
theorem Script.lastStatus_of_leads {script : Script} {result : Int} (fresh : shell.status = 0)
    (ran : script.run.Leads shell events (.ok result) shell') :
    script.LastStatus shell events shell'.status := by
  rcases exists_last_foreground script with background | ⟨before, command, later, rfl, background⟩
  · have kept : shell'.status = shell.status :=
      (ran.within (runStatements_background background _)).1
    rw [kept, fresh]
    exact .none ran background
  · obtain ⟨first, second, third, reached, behind, previous, own, rfl, earlier, inner, after⟩ :=
      runStatements_last ran
    have kept : shell'.status = own := (after.within (runStatements_background background _)).1
    rw [kept]
    have last : (runStatement (.mk command false)).Leads reached second (.ok own)
        (behind.setStatus own) := by
      rw [runStatement]
      exact settleStatement_leads_of_ok inner
    exact .some earlier last after background

/-- Conversely, a script that has a last status has come to its end, and left the shell with it. -/
theorem Script.LastStatus.leads {script : Script} {status : Int}
    (last : script.LastStatus shell events status) (fresh : shell.status = 0) :
    ∃ result shell', script.run.Leads shell events (.ok result) shell' ∧
      shell'.status = status := by
  cases last with
  | none ran background =>
      exact ⟨_, _, ran, (ran.within (runStatements_background background _)).1.trans fresh⟩
  | @some before _ _ _ _ _ _ _ _ _ _ _ result ran last after background =>
      obtain ⟨_, _, rfl⟩ := runStatement_leads_ok last
      refine ⟨result, _, ?_, (after.within (runStatements_background background _)).1⟩
      rw [Script.run, runStatements_append]
      refine ran.bind ?_
      rw [runStatements]
      exact last.bind after

namespace Startup

open CommandLine (Arguments)

/-- The text that the shell is to run, and how it comes to it. -/
inductive Given (arguments : Arguments) : Option (List Entry) → List Event → String → Prop where
  | commands {terminal : Option (List Entry)} {text : String}
      (given : arguments.commands = some text) :
      Given arguments terminal [] text
  | script {terminal : Option (List Entry)} {path text : String}
      (noCommands : arguments.commands = none)
      (given : arguments.script = some path) :
        Given arguments terminal [⟨.readFile path, .ok text⟩] text
  | input {text : String} (noCommands : arguments.commands = none)
      (noScript : arguments.script = none) :
      Given arguments none [⟨.readInput, .ok text⟩] text

variable {arguments : Arguments} {terminal : Option (List Entry)}
  {environment : List (String × String)} {words : List String} {text : String}
  {taken loaded : List Event}

theorem exists_start_of_leads (leads : Work.Leads (startShell arguments environment) loaded shell) :
    ∃ options, shell = .start options environment := by
  have always : (startShell arguments environment).Always fun shell =>
      ∃ options, shell = .start options environment := by
    refine Action.always_bind.mpr ((Action.always_true _).imp fun outcome _ => ?_)
    cases outcome with
    | ok options => exact ⟨options, rfl⟩
    | error cause => exact Action.always_bind.mpr ((Action.always_true _).imp fun _ _ => ⟨{}, rfl⟩)
  exact leads.of_always always

/-- The shell does not end while it runs a text. -/
theorem runInput_ongoing (dump : Bool) (text : String) : (runInput dump text).Keeps .ongoing := by
  have complains (line : String) : (Routine.complain line).Keeps .ongoing :=
    complain_keeps (fun _ plain => plain.ongoing) line
  unfold runInput
  split
  · next script _ =>
    have runs : script.run.Keeps .ongoing := Conduct.ongoing_allows.task script.task trivial
    cases dump with
    | false => exact runs
    | true => exact (complains _).bind fun _ => runs
  · exact (complains _).bind fun _ => (Routine.Keeps.modify fun _ => rfl).bind fun _ => .done _

theorem Given.ongoing (given : Given arguments terminal taken text) :
    (runArguments arguments terminal).Keeps .ongoing := by
  have runs (text : String) :
      (do let _ ← runInput arguments.dump text : Routine Unit).Keeps .ongoing :=
    (runInput_ongoing arguments.dump text).bind fun _ => .done ()
  unfold runArguments
  cases given with
  | commands given =>
      rw [given]
      exact runs _
  | script noCommands given =>
      rw [noCommands, given]
      refine (Routine.Keeps.ask (by trivial)).bind fun reply => ?_
      split
      · exact runs _
      · exact .fail trivial
  | input noCommands noScript =>
      rw [noCommands, noScript]
      refine (Routine.Keeps.ask (by trivial)).bind fun reply => ?_
      split
      · exact runs _
      · exact .fail trivial

theorem Given.leads (given : Given arguments terminal taken text) {ran : List Event}
    {outcome : Except Fault Int}
    (leads : (runInput arguments.dump text).Leads shell ran outcome shell') :
    (runArguments arguments terminal).Leads shell (taken ++ ran)
      (outcome.map fun _ => ()) shell' := by
  have runs : (do let _ ← runInput arguments.dump text : Routine Unit).Leads shell ran
      (outcome.map fun _ => ()) shell' := Routine.leads_bind_pure.mpr ⟨outcome, leads, rfl⟩
  unfold runArguments
  cases given with
  | commands given =>
      rw [given]
      exact runs
  | script noCommands given =>
      rw [noCommands, given]
      exact Routine.leads_ask_bind.mpr ⟨.ok text, ran, rfl, runs⟩
  | input noCommands noScript =>
      rw [noCommands, noScript]
      exact Routine.leads_ask_bind.mpr ⟨.ok text, ran, rfl, runs⟩

theorem Given.eq_of_leads (given : Given arguments terminal taken text) {first late : List Event}
    {outcome : Except Fault Unit}
    (leads : (runArguments arguments terminal).Leads shell first outcome shell')
    (same : taken ++ events = first ++ late) :
    ∃ ran inner, events = ran ++ late ∧
      (runInput arguments.dump text).Leads shell ran inner shell' ∧
      outcome = inner.map fun _ => () := by
  unfold runArguments at leads
  cases given with
  | commands given =>
      rw [given] at leads
      obtain ⟨inner, inside, rfl⟩ := Routine.leads_bind_pure.mp leads
      exact ⟨first, inner, same, inside, rfl⟩
  | script noCommands given =>
      rw [noCommands, given] at leads
      obtain ⟨reply, ran, rfl, later⟩ := Routine.leads_ask_bind.mp leads
      obtain ⟨here, rfl⟩ := List.cons.inj same
      cases here
      obtain ⟨inner, inside, rfl⟩ := Routine.leads_bind_pure.mp later
      exact ⟨ran, inner, rfl, inside, rfl⟩
  | input noCommands noScript =>
      rw [noCommands, noScript] at leads
      obtain ⟨reply, ran, rfl, later⟩ := Routine.leads_ask_bind.mp leads
      obtain ⟨here, rfl⟩ := List.cons.inj same
      cases here
      obtain ⟨inner, inside, rfl⟩ := Routine.leads_bind_pure.mp later
      exact ⟨ran, inner, rfl, inside, rfl⟩

theorem conclude_keeps {conduct : Conduct} (plain : ∀ call : Call, call.Plain → conduct.call call)
    (waits : ∀ pid, conduct.call (.wait pid))
    (tracks : ∀ shell jobs, conduct.change shell { shell with jobs := jobs })
    (outcome : Except Fault Unit) :
    (conclude outcome).Keeps conduct := by
  have tears := tearDown_keeps plain waits tracks
  unfold conclude
  split
  · exact tears.bind fun _ => Routine.Keeps.get.bind fun _ => .done _
  · exact .done _
  · exact (complain_keeps plain _).bind fun _ => tears.bind fun _ => .done _

theorem run_eq (asked : CommandLine.parse words = .ok (.run arguments)) :
    Startup.run words environment terminal =
      (startShell arguments environment).bind fun shell =>
        (runToCode arguments terminal shell).bind fun outcome =>
          match outcome.1 with
          | .ok code => Work.exit code
          | .error _ => Work.exit 1 := by
  unfold Startup.run
  rw [asked]
  rfl

theorem asks_run_iff (asked : CommandLine.parse words = .ok (.run arguments))
    (started : Work.Leads (startShell arguments environment) loaded shell)
    (given : Given arguments terminal taken text) :
    Work.Asks (Startup.run words environment terminal) (loaded ++ (taken ++ events)) (.exit code) ↔
      ∃ ran late outcome behind shell', events = ran ++ late ∧
        (runInput arguments.dump text).Leads shell ran outcome behind ∧
        (conclude (outcome.map fun _ => ())).Leads behind late (.ok code) shell' := by
  rw [run_eq asked, started.asks_bind, Work.asks_bind]
  constructor
  · rintro (ending | ⟨first, second, ⟨result, final⟩, same, leads, ending⟩)
    · have keeps : (runToCode arguments terminal).Keeps .ongoing := by
        have runs := given.ongoing
        refine Routine.Keeps.bind
          (.attempt fun shell own => (runs shell own).imp fun _ kept => kept.1) ?_
        exact conclude_keeps (fun _ plain => plain.ongoing) (fun _ => trivial) fun _ _ => rfl
      obtain ⟨options, rfl⟩ := exists_start_of_leads started
      exact (ending.allowed (keeps _ rfl) nofun).elim
    · obtain ⟨front, late, outcome, behind, rfl, runs, concluded⟩ :=
        Routine.leads_attempt_bind.mp leads
      rw [List.append_assoc] at same
      obtain ⟨ran, inner, rfl, inside, rfl⟩ := given.eq_of_leads runs same
      cases result with
      | ok result =>
          obtain ⟨rfl, own⟩ := Work.asks_exit.mp ending
          obtain rfl := Call.exit.inj own
          exact ⟨ran, late, inner, behind, final, by simp, inside, concluded⟩
      | error cause =>
          have keeps :
              (conclude (inner.map fun _ => ())).Keeps (Bounds.failing fun _ => False).conduct :=
            conclude_keeps (fun _ _ => trivial) (fun _ => trivial) (fun _ _ => trivial) _
          exact absurd concluded (keeps.not_leads_error id)
  · rintro ⟨ran, late, outcome, behind, final, rfl, leads, concluded⟩
    right
    refine ⟨taken ++ (ran ++ late), [],
      (.ok code, final), by simp, ?_, Work.asks_exit.mpr ⟨rfl, rfl⟩⟩
    exact Routine.leads_attempt_bind.mpr
      ⟨taken ++ ran, late, _, behind, by simp, given.leads leads, concluded⟩

theorem conclude_leads_ok {late : List Event}
    (leads : (conclude (.ok ())).Leads shell late (.ok code) shell') :
    code = Status.exitCode shell.status := by
  rcases Routine.leads_bind.mp leads with ⟨_, _, _, behind, _, torn, later⟩ | ⟨_, _, impossible⟩
  · rw [Routine.leads_get_bind, Routine.leads_pure] at later
    have tears : Routine.tearDown.Keeps Bounds.steady.conduct :=
      tearDown_keeps (fun _ _ => trivial) (fun _ => trivial) fun _ _ => rfl
    have kept : behind.status = shell.status := (torn.within tears.within).1
    rw [← kept]
    exact Except.ok.inj later.2.1
  · cases impossible

theorem exists_reapEach_leads (pids : List Pid) (shell : Shell) :
    ∃ events, (Routine.reapEach pids).Leads shell events (.ok ()) shell := by
  induction pids with
  | nil => exact ⟨[], Routine.leads_pure.mpr ⟨rfl, rfl, rfl⟩⟩
  | cons pid pids inductionHypothesis =>
      obtain ⟨events, later⟩ := inductionHypothesis
      have waits :
          (Routine.reapJob pid).Leads shell [⟨.wait pid, .ok .stillAlive⟩] (.ok ()) shell :=
        Routine.leads_ask_bind.mpr ⟨.ok .stillAlive, [], rfl,
          Routine.leads_pure.mpr ⟨rfl, rfl, rfl⟩⟩
      exact ⟨_, waits.bind later⟩

theorem exists_tearDown_leads (shell : Shell) :
    ∃ events shell', Routine.tearDown.Leads shell events (.ok ()) shell' := by
  unfold Routine.tearDown
  simp only [Routine.leads_get_bind]
  split
  · obtain ⟨events, leads⟩ :=
      exists_reapEach_leads shell.jobs.pids { shell with jobs := Jobs.empty }
    rw [Routine.reapAll_eq]
    exact ⟨events, _, Routine.leads_get_bind.mpr (Routine.leads_modify_bind.mpr leads)⟩
  · exact ⟨[], shell, Routine.leads_pure.mpr ⟨rfl, rfl, rfl⟩⟩

theorem report_leads (line : String) (shell : Shell) :
    (Routine.report line).Leads shell [⟨.write .errors (shellName ++ ": " ++ line ++ "\n"), .ok ()⟩]
      (.ok ())
      shell :=
  Routine.leads_tell.mpr ⟨rfl, rfl, rfl⟩

theorem exists_conclude_leads (outcome : Except Fault Unit) (shell : Shell) :
    ∃ late code shell', (conclude outcome).Leads shell late (.ok code) shell' := by
  obtain ⟨torn, behind, leads⟩ := exists_tearDown_leads shell
  unfold conclude
  split
  · have later : (Routine.get >>= fun shell => pure (Status.exitCode shell.status)).Leads behind []
        (.ok (Status.exitCode behind.status)) behind :=
      Routine.leads_get_bind.mpr (Routine.leads_pure.mpr ⟨rfl, rfl, rfl⟩)
    exact ⟨_, _, _, leads.bind later⟩
  · exact ⟨[], _, shell, Routine.leads_pure.mpr ⟨rfl, rfl, rfl⟩⟩
  · have later : (pure 1 : Routine Int).Leads behind [] (.ok 1) behind :=
      Routine.leads_pure.mpr ⟨rfl, rfl, rfl⟩
    exact ⟨_, _, _, (report_leads _ _).bind (leads.bind later)⟩

theorem code_of_conclude {dump : Bool} {ran late : List Event} {outcome : Except Fault Int}
    {behind : Shell} (fresh : shell.status = 0)
    (leads : (runInput dump text).Leads shell ran outcome behind)
    (concluded : (conclude (outcome.map fun _ => ())).Leads behind late (.ok code) shell') :
    (∀ error, Script.parse text = .error error → code = 2) ∧
      ∀ script, Script.parse text = .ok script →
        ∃ printed rest, ran = printed ++ rest ∧ script.Dumped dump printed ∧
          (script.task.Exits shell rest behind ∧ late = [] ∧ code = 0 ∨
            (∀ before ended, before <+: rest → ¬ script.task.Exits shell before ended) ∧
              ∃ status, script.LastStatus shell rest status ∧ code = Status.exitCode status) := by
  unfold runInput at leads
  constructor
  · intro error unreadable
    rw [unreadable] at leads
    obtain ⟨rfl, rfl⟩ := reportUnreadable_leads leads
    exact conclude_leads_ok concluded
  · intro script parsed
    rw [parsed] at leads
    obtain ⟨printed, rest, rfl, dumped, ran⟩ := runScript_leads_iff.mp leads
    refine ⟨printed, rest, rfl, dumped, ?_⟩
    cases outcome with
    | ok result =>
        refine Or.inr ⟨fun before ended => Task.not_exits_of_leads ran, ?_⟩
        exact ⟨_, Script.lastStatus_of_leads fresh ran, conclude_leads_ok concluded⟩
    | error cause =>
        obtain ⟨rfl, exits⟩ := script.task.exits_of_leads ran
        obtain ⟨rfl, same, _⟩ := Routine.leads_pure.mp concluded
        exact Or.inl ⟨exits, rfl, Except.ok.inj same⟩

/-- The exit code tells success from failure. As long as the operating system gives codes and
numbers that it has, every status lies between -1 and 255. The shell runs a text and then exits:
with 2 if it is no script, with 0 if it came to `exit` itself, and else with the code of the status
that its last statement in the foreground had. A process that it forks, and that comes to the end of
its work, exits with 0 exactly if the work ended with the status 0 or by `exit`. -/
theorem run_exitCode :
    (∀ shell events status shell', (∀ event ∈ events, event.Regular) →
      ((∃ script : Script, script.run.Leads shell events (.ok status) shell') ∨
        (∃ statement, (runStatement statement).Leads shell events (.ok status) shell') ∨
        (∃ command, (runCommand command).Leads shell events (.ok status) shell') ∨
        ∃ stages, (runPipeline stages).Leads shell events (.ok status) shell') →
      -1 ≤ status ∧ status ≤ 255) ∧
    (∀ words environment terminal arguments loaded shell taken text,
      CommandLine.parse words = .ok (.run arguments) →
      Work.Leads (startShell arguments environment) loaded shell →
      Given arguments terminal taken text →
      (∀ ran outcome behind, (runInput arguments.dump text).Leads shell ran outcome behind →
        ∃ late code, Work.Asks (Startup.run words environment terminal)
          (loaded ++ (taken ++ (ran ++ late))) (.exit code)) ∧
      ∀ events code, Work.Asks (Startup.run words environment terminal)
          (loaded ++ (taken ++ events)) (.exit code) →
        (∀ error, Script.parse text = .error error → code = 2) ∧
        ∀ script, Script.parse text = .ok script →
          ∃ printed ran late, events = printed ++ (ran ++ late) ∧
            script.Dumped arguments.dump printed ∧
            ((∃ ended, script.task.Exits shell ran ended) ∧ late = [] ∧ code = 0 ∨
              (∀ before ended, before <+: ran → ¬ script.task.Exits shell before ended) ∧
                ∃ status, script.LastStatus shell ran status ∧ code = Status.exitCode status ∧
                  0 ≤ code ∧ code ≤ 255 ∧ (code = 0 ↔ status = 0))) ∧
    ∀ child task given events outcome shell', Child.start? child = some (task, given) →
      (child.prepare >>= fun _ => task.run).Leads given events outcome shell' →
      ∃ code, 0 ≤ code ∧ code ≤ 255 ∧
        (code = 0 ↔ outcome = .ok 0 ∨ ∃ told, outcome = .error (.exit told)) ∧
        (∃ more, Work.Asks child.work (events ++ more) (.exit code)) ∧
        ∀ more code', Work.Asks child.work (events ++ more) (.exit code') → code' = code := by
  refine ⟨?_, ?_, ?_⟩
  · rintro shell events status shell' regular
      (⟨script, leads⟩ | ⟨statement, leads⟩ | ⟨command, leads⟩ | ⟨stages, leads⟩)
    · exact @Task.inRange_of_leads script.task _ _ _ _ leads Status.inRange_success regular
    · exact @Task.inRange_of_leads (.statement statement) _ _ _ _ leads trivial regular
    · exact @Task.inRange_of_leads (.command command) _ _ _ _ leads trivial regular
    · exact @Task.inRange_of_leads (.pipeline stages) _ _ _ _ leads trivial regular
  · intro words environment terminal arguments loaded shell taken text asked started given
    constructor
    · intro ran outcome behind leads
      obtain ⟨late, code, final, concluded⟩ :=
        exists_conclude_leads (outcome.map fun _ => ()) behind
      exact ⟨late, code, (asks_run_iff asked started given).mpr
        ⟨ran, late, outcome, behind, final, rfl, leads, concluded⟩⟩
    · intro events code asks
      obtain ⟨ran, late, outcome, behind, final, rfl, leads, concluded⟩ :=
        (asks_run_iff asked started given).mp asks
      have fresh : shell.status = 0 := by
        obtain ⟨options, rfl⟩ := exists_start_of_leads started
        rfl
      obtain ⟨unreadable, readable⟩ := code_of_conclude fresh leads concluded
      refine ⟨unreadable, fun script parsed => ?_⟩
      obtain ⟨printed, rest, rfl, dumped, ended⟩ := readable script parsed
      refine ⟨printed, rest, late, by simp, dumped, ?_⟩
      rcases ended with ⟨exits, nothing, own⟩ | ⟨goesOn, status, last, rfl⟩
      · exact Or.inl ⟨⟨behind, exits⟩, nothing, own⟩
      · have range := Status.exitCode_range status
        exact Or.inr ⟨goesOn, status, last, rfl, range.1, range.2, Status.exitCode_eq_zero_iff⟩
  · intro child task given events outcome shell' starts leads
    obtain ⟨range, success, asks, unique⟩ := Child.exitCode_of_leads starts leads
    exact ⟨finalCode outcome, range.1, range.2, success, asks, unique⟩

/-- The last statement in the foreground fails, behind a job. The shell ends with its status, and a
process that is forked to do the same does not end with success. -/
theorem run_exitCode_failing :
    let script : Script :=
      [.mk (.pipeline [[.literal "cat"]]) true, .mk (.pipeline [[.literal "ls"]]) false]
    ∃ ran behind, (∀ event ∈ ran, Event.Regular event) ∧
      script.run.Leads (.start {} []) ran (.ok 3) behind ∧
      (∃ late, Work.Asks (Startup.run ["-c", "cat & ls"] [] none) (ran ++ late) (.exit 3)) ∧
      ∃ late code, code ≠ 0 ∧
        Work.Asks (Child.iteration script (.start {} [])).work (ran ++ late) (.exit code) := by
  intro script
  obtain ⟨_, ends, inner⟩ := run_exitCode
  have asked :
      CommandLine.parse ["-c", "cat & ls"] = .ok (.run { commands := some "cat & ls" }) := by
    with_unfolding_all rfl
  have parsed : Script.parse "cat & ls" = .ok script := by with_unfolding_all rfl
  have started : Work.Leads (startShell { commands := some "cat & ls" } []) [] (.start {} []) :=
    ⟨rfl, rfl⟩
  let ran : List Event := [⟨.fork (.job (.pipeline [[.literal "cat"]]) (.start {} [])), .ok 7⟩,
    ⟨.write .output "Started background job: PID 7\n", .ok ()⟩, ⟨.fork (.program ["ls"]), .ok 8⟩,
    ⟨.wait 8, .ok (.exited 8 3)⟩]
  obtain ⟨behind, leads, own⟩ :
      ∃ behind, script.run.Leads (.start {} []) ran (.ok 3) behind ∧ behind.status = 3 :=
    ⟨_, ⟨[_], [_, _, _], .ok 7, rfl, .last rfl, [_], [_, _], .ok (), rfl, .last rfl,
      [_], [_], .ok 8, rfl, .last rfl, [_], [], .ok (.exited 8 3), rfl, .last rfl, rfl, rfl⟩, rfl⟩
  have regular : ∀ event ∈ ran, event.Regular := by simp [ran, Event.Regular]
  refine ⟨ran, behind, regular, leads, ?_, ?_⟩
  · obtain ⟨ending, codes⟩ := ends _ _ none _ _ _ _ _ asked started (.commands rfl)
    have input : (runInput false "cat & ls").Leads (.start {} []) ran (.ok 3) behind := by
      delta runInput
      rw [parsed]
      exact leads
    obtain ⟨late, code, asks⟩ := ending ran _ _ input
    obtain ⟨_, ran', late', same, rfl, exits | ⟨_, status, last, rfl, _⟩⟩ :=
      (codes _ _ asks).2 script parsed
    · obtain ⟨⟨_, exits⟩, _⟩ := exits
      cases (Prod.mk.inj (Work.Leads.unique leads exits.leads same).2).1
    · obtain ⟨_, final, leads', rfl⟩ := last.leads rfl
      obtain ⟨_, results⟩ := Work.Leads.unique leads leads' same
      rw [← (Prod.mk.inj results).2, own] at asks
      exact ⟨late, asks⟩
  · obtain ⟨code, _, _, success, ⟨more, asks⟩, _⟩ :=
      inner (.iteration script (.start {} [])) _ _ ran _ behind rfl leads
    refine ⟨more, code, ?_, asks⟩
    rw [Ne, success]
    simp

end Startup

end CommandShell
