import CommandShell.Proofs.Script.WellFormed
import CommandShell.Proofs.Shell.Exit
import CommandShell.Proofs.Shell.Process
import CommandShell.Proofs.Shell.Runs
import CommandShell.Proofs.Shell.Writes

/-!
The last status is kept twice, as a number and as the variable `?`. The two agree from the start of
a shell on, in all processes that come of the texts it is given: only a status is ever written to
that variable, since no text names it where a value is given.
-/

namespace CommandShell

namespace Shell

/-- The variable `?` holds the last status. -/
def Recorded (shell : Shell) : Prop := shell.store.get? "?" = some (toString shell.status)

instance (shell : Shell) : Decidable shell.Recorded := inferInstanceAs (Decidable (_ = _))

theorem recorded_setStatus (shell : Shell) (status : Int) : (shell.setStatus status).Recorded :=
  Store.get?_set shell.store "?" (some (toString status))

theorem recorded_start (options : Options) (environment : List (String × String)) :
    (start options environment).Recorded :=
  recorded_setStatus _ 0

theorem Recorded.setVariable {shell : Shell} {name : String} (recorded : shell.Recorded)
    (other : recordKey name ≠ "?") (value : Option String) :
    (shell.setVariable name value).Recorded := by
  have different : recordKey "?" ≠ recordKey name := Ne.symm other
  exact (Store.get?_set_of_ne different shell.store value).trans recorded

end Shell

theorem recordKey_ne_of_isName {name : String} (named : isName name = true) :
    recordKey name ≠ "?" := by
  intro same
  have letters := congrArg String.toList same
  rw [recordKey, String.toList_ofList] at letters
  unfold isName at named
  cases text : name.toList with
  | nil => simp [text] at named
  | cons c rest =>
      rw [text] at letters named
      rw [List.takeWhile_cons] at letters
      split at letters
      · obtain rfl : c = '?' := (List.cons.inj letters).1
        simp [Rule.isNameStart] at named
      · contradiction

/-! Tasks in which all names are names. -/

namespace Task

def wellFormed : Task → Bool
  | .statements _ body => statementsWellFormed body
  | .statement (.mk inner _) => inner.wellFormed
  | .command inner => inner.wellFormed
  | .branches choices fallback => branchesWellFormed choices && fallbackWellFormed fallback
  | .rounds name body _ _ => isName name && statementsWellFormed body
  | .pipeline _ => true
  | .program _ => true

theorem isName_of_isBinder {binder : Word} (named : binder.isBinder = true) :
    isName binder.text = true := by
  cases binder with
  | literal name => exact named
  | reference name => simp [Word.isBinder] at named

theorem Part.wellFormed {part whole : Task} (inside : part.Part whole)
    (formed : whole.wellFormed = true) :
    part.wellFormed = true := by
  cases inside with
  | @first _ single | @later _ _ single =>
      obtain ⟨inner, background⟩ := single
      simp_all [Task.wellFormed, statementsWellFormed]
  | foreground => exact formed
  | simple | test | single => rfl
  | conditional => simp_all [Task.wellFormed, Command.wellFormed]
  | loop => simp_all [Task.wellFormed, Command.wellFormed, isName_of_isBinder]
  | body | otherwise => simp_all [Task.wellFormed, branchesWellFormed]
  | fallback => simp_all [Task.wellFormed, branchesWellFormed, fallbackWellFormed]
  | round | laterRound => simp_all [Task.wellFormed]

theorem Binds.isName {task : Task} {name : String} {value : Option String}
    (binds : task.Binds name value) (formed : task.wellFormed = true) :
    CommandShell.isName name = true := by
  unfold Binds at binds
  split at binds
  · obtain ⟨rfl, _⟩ := binds
    simp_all [Task.wellFormed, Command.wellFormed]
  · obtain ⟨rfl, _⟩ := binds
    simp_all [Task.wellFormed, Command.wellFormed, isName_of_isBinder]
  · obtain ⟨rfl, _⟩ := binds
    simp_all [Task.wellFormed]
  · contradiction

theorem Forks.wellFormed {task inner : Task} {shell given : Shell} {child : Child}
    (forks : task.Forks shell child) (formed : task.wellFormed = true)
    (starts : child.start? = some (inner, given)) : inner.wellFormed = true ∧ given = shell := by
  unfold Forks at forks
  split at forks
  · subst forks
    obtain ⟨rfl, rfl⟩ := Prod.mk.inj (Option.some.inj starts)
    exact ⟨formed, rfl⟩
  · subst forks
    obtain ⟨rfl, rfl⟩ := Prod.mk.inj (Option.some.inj starts)
    simp_all [Task.wellFormed, Command.wellFormed]
  · obtain ⟨words, _, wiring, rfl⟩ := forks
    obtain ⟨rfl, rfl⟩ := Prod.mk.inj (Option.some.inj starts)
    exact ⟨rfl, rfl⟩
  · subst forks
    simp [Child.start?] at starts
  · contradiction

end Task

/-- The status stays recorded, and every process is started with a record of it. -/
def Conduct.recording : Conduct where
  state := Shell.Recorded
  call
    | .fork child =>
        ∀ task shell, child.start? = some (task, shell) → task.wellFormed = true ∧ shell.Recorded
    | _ => True
  change first second := first.Recorded → second.Recorded
  failure _ := True
  refl _ := id
  trans first second := second ∘ first
  state_of_change recorded changed := changed recorded

theorem Conduct.recording_allows : Conduct.recording.Allows fun task => task.wellFormed = true where
  hereditary := Task.Part.wellFormed
  plain call plain := by
    cases call with
    | fork | wait | replace | exit => contradiction
    | _ => trivial
  waits _ := trivial
  forks formed shell recorded child forks inner given starts := by
    obtain ⟨formed', rfl⟩ := forks.wellFormed formed starts
    exact ⟨formed', recorded⟩
  inPlace _ _ _ _ _ := ⟨trivial, trivial⟩
  status shell status _ := shell.recorded_setStatus status
  jobs _ _ := id
  bindings formed binds shell recorded :=
    recorded.setVariable (recordKey_ne_of_isName (binds.isName formed)) _
  directory shell value recorded := recorded.setVariable (by decide) value
  exit _ := trivial

theorem Conduct.recording_begins {child : Child} {task : Task} {given ready : Shell}
    {events : List Event} (allowed : Conduct.recording.call (.fork child))
    (starts : child.start? = some (task, given))
    (prepared : child.prepare.Leads given events (.ok ()) ready) :
    task.wellFormed = true ∧ ready.Recorded := by
  obtain ⟨formed, recorded⟩ := allowed task given starts
  obtain ⟨⟨flags, rfl⟩, _⟩ := prepared.within child.prepare_within
  exact ⟨formed, recorded⟩

theorem Task.recorded_of_reaches {task inner next : Task} {shell begun reached : Shell}
    {events : List Event} (formed : task.wellFormed = true) (recorded : shell.Recorded)
    (descends : task.Descends shell inner begun)
    (reaches : inner.Reaches begun events next reached) :
    reached.Recorded := by
  have allows := Conduct.recording_allows
  obtain ⟨formed', recorded'⟩ := descends.admitted allows Conduct.recording_begins formed recorded
  exact reaches.change allows formed' recorded' recorded'

variable {shell shell' : Shell} {events : List Event} {outcome : Except Fault Int}

theorem runStatement_leads_ok {command : Command} {status : Int}
    (leads : (runStatement (.mk command false)).Leads shell events (.ok status) shell') :
    ∃ behind, (runCommand command).Leads shell events (.ok status) behind ∧
      shell' = behind.setStatus status := by
  rw [runStatement] at leads
  rcases settleStatement_leads_ok leads with ended | ⟨cause, first, behind, other, failed⟩
  · exact ended
  · obtain ⟨rfl, _⟩ := (Task.command command).exits_of_leads failed
    exact absurd rfl (other 0)

/-- The last status stays what it is. -/
def Bounds.steady : Bounds where
  change first second := second.status = first.status
  failure _ := True
  refl _ := rfl
  trans first second := second.trans first

theorem runStatements_background {statements : List Statement}
    (background : ∀ statement ∈ statements, statement.background = true) (status : Int) :
    (runStatements status statements).Within .steady := by
  induction statements generalizing status with
  | nil =>
      rw [runStatements]
      exact .done status
  | cons statement statements inductionHypothesis =>
      obtain ⟨command, own⟩ := statement
      obtain rfl : own = true := background _ List.mem_cons_self
      rw [runStatements, runStatement, if_pos rfl]
      have starts : (startJob command).Keeps Bounds.steady.conduct :=
        startJob_keeps (fun _ _ => trivial) (fun _ _ => trivial) fun _ _ => rfl
      refine (starts.within.bind fun _ => .done _).bind fun status => ?_
      exact inductionHypothesis
        (fun statement membership => background _ (List.mem_cons_of_mem _ membership)) _

/-- The last statement in the foreground runs between what is before it and the jobs behind it. -/
theorem runStatements_last {before later : List Statement} {command : Command} {status result : Int}
    (leads : (runStatements status (before ++ .mk command false :: later)).Leads shell events
      (.ok result)
      shell') :
    ∃ first second third reached behind previous own, events = first ++ (second ++ third) ∧
      (runStatements status before).Leads shell first (.ok previous) reached ∧
      (runCommand command).Leads reached second (.ok own) behind ∧
      (runStatements own later).Leads (behind.setStatus own) third (.ok result) shell' := by
  rw [runStatements_append] at leads
  rcases Routine.leads_bind.mp leads with
      ⟨first, rest, previous, reached, rfl, ran, leads⟩ | ⟨_, _, same⟩
  · rw [runStatements] at leads
    rcases Routine.leads_bind.mp leads with
        ⟨second, third, own, after, rfl, single, leads⟩ | ⟨_, _, same⟩
    · obtain ⟨behind, command, rfl⟩ := runStatement_leads_ok single
      exact ⟨first, second, third, reached, behind, previous, own, rfl, ran, command, leads⟩
    · cases same
  · cases same

/-- What is printed of a script before it is run. -/
def Script.Dumped (script : Script) : Bool → List Event → Prop
  | false, printed => printed = []
  | true, printed => printed = [⟨.write .errors (script.dump ++ "\n"), .ok ()⟩]

theorem runScript_leads_iff {dump : Bool} {script : Script} :
    (runScript dump script).Leads shell events outcome shell' ↔
      ∃ printed rest, events = printed ++ rest ∧ script.Dumped dump printed ∧
        script.run.Leads shell rest outcome shell' := by
  cases dump with
  | false =>
      constructor
      · intro leads
        exact ⟨[], events, rfl, rfl, leads⟩
      · rintro ⟨_, rest, rfl, rfl, leads⟩
        exact leads
  | true =>
      refine (Routine.Runs.tell _ _).leads_bind.trans ?_
      constructor
      · rintro ⟨printed, rest, _, rfl, dumped, ran⟩
        exact ⟨printed, rest, rfl, dumped, ran⟩
      · rintro ⟨printed, rest, rfl, dumped, ran⟩
        exact ⟨printed, rest, (), rfl, dumped, ran⟩

theorem runScript_leads {dump : Bool} {script : Script}
    (leads : (runScript dump script).Leads shell events outcome shell') :
    ∃ printed rest, events = printed ++ rest ∧ script.run.Leads shell rest outcome shell' := by
  obtain ⟨printed, rest, same, _, ran⟩ := runScript_leads_iff.mp leads
  exact ⟨printed, rest, same, ran⟩

theorem reportUnreadable_leads_iff {error : Error} :
    (reportUnreadable error).Leads shell events outcome shell' ↔
      events = [⟨.write .errors (shellName ++ ": " ++ error.message ++ "\n"), .ok ()⟩] ∧
        outcome = .ok Status.unreadable ∧ shell' = shell.setStatus Status.unreadable := by
  refine (Routine.Runs.tell _ _).leads_bind.trans ?_
  constructor
  · rintro ⟨_, _, _, rfl, rfl, later⟩
    rw [Routine.leads_modify_bind, Routine.leads_pure] at later
    obtain ⟨rfl, ended⟩ := later
    exact ⟨rfl, ended⟩
  · rintro ⟨rfl, ended⟩
    refine ⟨_, [], (), rfl, rfl, ?_⟩
    rw [Routine.leads_modify_bind, Routine.leads_pure]
    exact ⟨rfl, ended⟩

theorem reportUnreadable_leads {error : Error}
    (leads : (reportUnreadable error).Leads shell events outcome shell') :
    outcome = .ok Status.unreadable ∧ shell' = shell.setStatus Status.unreadable :=
  (reportUnreadable_leads_iff.mp leads).2

/-- A shell that was started and given some texts to run. -/
inductive Shell.Fed (options : Options) (environment : List (String × String)) : Shell → Prop where
  | start : Fed options environment (.start options environment)
  | input {dump : Bool} {text : String} {shell shell' : Shell} {events : List Event}
      {outcome : Except Fault Int} (fed : Fed options environment shell)
      (ran : (runInput dump text).Leads shell events outcome shell') :
        Fed options environment shell'

theorem runInput_recorded {dump : Bool} {text : String} (recorded : shell.Recorded)
    (leads : (runInput dump text).Leads shell events outcome shell') : shell'.Recorded := by
  unfold runInput at leads
  split at leads
  · next script parsed =>
    obtain ⟨_, rest, _, ran⟩ := runScript_leads leads
    have formed : script.task.wellFormed = true := Script.wellFormed_of_parseChars parsed
    exact (Task.keeps_of_leads script.task ran Conduct.recording_allows formed recorded).1 recorded
  · obtain ⟨_, rfl⟩ := reportUnreadable_leads leads
    exact shell.recorded_setStatus _

theorem Shell.Fed.recorded {options : Options} {environment : List (String × String)}
    (fed : Fed options environment shell) : shell.Recorded := by
  induction fed with
  | start => exact recorded_start options environment
  | input _ ran inductionHypothesis => exact runInput_recorded inductionHypothesis ran

/-- In a shell that was given any texts so far, and in all the processes that come of one more, `?`
is the last status. A script leaves the status of its last statement in the foreground, or the one
before if there is none; a text that is no script leaves its own, and nothing else. -/
theorem Shell.Fed.status_recorded {options : Options} {environment : List (String × String)}
    (fed : Fed options environment shell) (dump : Bool) (text : String) :
    shell.Recorded ∧
    (∀ script, Script.parse text = .ok script →
      (∀ task begun events next reached, script.task.Descends shell task begun →
        task.Reaches begun events next reached → reached.Recorded) ∧
      ∀ events result shell', (runInput dump text).Leads shell events (.ok result) shell' →
        ((∀ statement ∈ script, statement.background = true) → shell'.status = shell.status) ∧
        ∀ before command later, script = before ++ .mk command false :: later →
          (∀ statement ∈ later, statement.background = true) →
          ∃ printed first second third previous reached behind,
            events = printed ++ (first ++ (second ++ third)) ∧
            (Script.run before).Leads shell first (.ok previous) reached ∧
            (runCommand command).Leads reached second (.ok shell'.status) behind) ∧
    ∀ error, Script.parse text = .error error →
      ∀ events outcome shell', (runInput dump text).Leads shell events outcome shell' →
        outcome = .ok 2 ∧ shell' = { shell with status := 2, store := shell'.store } ∧
        shell'.store.get? "?" = some "2" ∧
        ∀ name, recordKey name ≠ "?" → shell'.store.get? name = shell.store.get? name := by
  refine ⟨fed.recorded, ?_, ?_⟩
  · intro script parsed
    constructor
    · intro task begun events next reached descends reaches
      have formed : script.task.wellFormed = true := Script.wellFormed_of_parseChars parsed
      exact Task.recorded_of_reaches formed fed.recorded descends reaches
    · intro events result shell' leads
      delta runInput at leads
      rw [parsed] at leads
      obtain ⟨printed, rest, rfl, ran⟩ := runScript_leads leads
      constructor
      · intro background
        exact (ran.within (runStatements_background background _)).1
      · rintro before command later rfl background
        obtain ⟨first, second, third, reached, behind, previous, own, rfl, ran, single, after⟩ :=
          runStatements_last ran
        have kept : shell'.status = own := (after.within (runStatements_background background _)).1
        rw [kept]
        exact ⟨printed, first, second, third, previous, reached, behind, rfl, ran, single⟩
  · intro error unreadable events outcome shell' leads
    delta runInput at leads
    rw [unreadable] at leads
    obtain ⟨rfl, rfl⟩ := reportUnreadable_leads leads
    refine ⟨rfl, rfl, shell.recorded_setStatus _, ?_⟩
    intro name other
    exact Store.get?_set_of_ne other shell.store _

/-- A text that fails is followed by one that reads its status, and the job at the end of that
leaves the status of the program before it. -/
theorem Shell.Fed.status_recorded_background :
    ∃ shell events shell', Fed {} [] shell ∧ shell.status = 1 ∧
      (runInput false "x=$?; ls; y=a &").Leads shell events (.ok 0) shell' ∧
      shell'.store.get? "x" = some "1" ∧ shell'.status = 3 ∧
      ∃ second reached behind,
        (runCommand (.pipeline [[.literal "ls"]])).Leads reached second (.ok 3) behind := by
  have failing : Script.parse "false" = .ok [.mk (.pipeline [[.literal "false"]]) false] := by
    with_unfolding_all rfl
  have parsed : Script.parse "x=$?; ls; y=a &" = .ok [.mk (.assignment "x" [.reference "?"]) false,
      .mk (.pipeline [[.literal "ls"]]) false, .mk (.assignment "y" [.literal "a"]) true] := by
    with_unfolding_all rfl
  have first : (runInput false "false").Leads (.start {} [])
      [⟨.fork (.program ["false"]), .ok 6⟩, ⟨.wait 6, .ok (.exited 6 1)⟩] (.ok 1)
      ((Shell.start {} []).setStatus 1) := by
    delta runInput
    rw [failing]
    exact ⟨[_], [_], .ok 6, rfl, .last rfl, [_], [], .ok (.exited 6 1), rfl, .last rfl, rfl, rfl⟩
  obtain ⟨events, shell', leads, assigned, own⟩ : ∃ events shell',
      (runInput false "x=$?; ls; y=a &").Leads ((Shell.start {} []).setStatus 1) events (.ok 0)
        shell' ∧ shell'.store.get? "x" = some "1" ∧ shell'.status = 3 := by
    delta runInput
    rw [parsed]
    refine ⟨[⟨.fork (.program ["ls"]), .ok 7⟩, ⟨.wait 7, .ok (.exited 7 3)⟩,
      ⟨.fork (.job _ _), .ok 8⟩, ⟨.write .output "Started background job: PID 8\n", .ok ()⟩],
      _, ⟨[_], [_, _, _], .ok 7, rfl, .last rfl, [_], [_, _], .ok (.exited 7 3), rfl, .last rfl,
        [_], [_], .ok 8, rfl, .last rfl, [_], [], .ok (), rfl, .last rfl, rfl, rfl⟩, ?_, ?_⟩
    · with_unfolding_all rfl
    · with_unfolding_all rfl
  obtain ⟨_, readable, _⟩ := Shell.Fed.status_recorded (.input .start first) false "x=$?; ls; y=a &"
  obtain ⟨_, _, second, _, _, reached, behind, _, _, ran⟩ :=
    ((readable _ parsed).2 _ _ _ leads).2 [_] (.pipeline [[.literal "ls"]]) [_] rfl
      (by simp [Statement.background])
  rw [own] at ran
  exact ⟨_, _, _, .input .start first, rfl, leads, assigned, own, second, reached, behind, ran⟩

end CommandShell
