import CommandShell.Proofs.Shell.Process

/-!
Where the calls of a process come from. A call with which a process starts another, becomes another
program or ends is made by one of the tasks that it comes to, and by no other work.
-/

namespace CommandShell

/-- A call that starts a process, or with which this one becomes another program or ends. -/
def Call.Turning : Call → Prop
  | .fork _ => True
  | .replace _ => True
  | .exit _ => True
  | _ => False

theorem Call.Plain.not_turning {call : Call} (plain : call.Plain) : ¬ call.Turning := by
  cases call with
  | fork | replace | exit => exact plain.elim
  | _ => exact id

theorem Call.Turning.ne_abort {call : Call} (turning : call.Turning) (reason : String) :
    call ≠ .abort reason := by
  rintro rfl
  exact turning

/-- Such a call is made by a task itself, in a state with the flags. -/
inductive Task.Makes (flags : Flags) : Task → Call → Prop where
  | job {command : Command} {given : Shell} (same : given.flags = flags) :
      Makes flags (.statement (.mk command true)) (.fork (.job command given))
  | iteration {binder : Word} {values : List Word} {body : List Statement} {given : Shell}
      (same : given.flags = flags) :
      Makes flags (.command (.loop true binder values body)) (.fork (.iteration body given))
  | stage {stages : Pipeline} {words : Program} {wiring : Wiring} {given : Shell}
      (several : 2 ≤ stages.length)
      (inside : words ∈ stages) (same : given.flags = flags) :
      Makes flags (.pipeline stages) (.fork (.stage words wiring given))
  | program {words : Program} {arguments : List String} :
      Makes flags (.program words) (.fork (.program arguments))
  | replace {words : Program} {arguments : List String} (inPlace : flags.inPlace = true) :
      Makes flags (.program words) (.replace arguments)
  | exit {words : Program} {code : Int} (inPlace : flags.inPlace = true) :
      Makes flags (.program words) (.exit code)

/-- Two states have the same flags. -/
def Shell.SameFlags (first second : Shell) : Prop := second.flags = first.flags

namespace Shell.SameFlags

variable {first second third : Shell} {flags : Flags}

theorem refl (shell : Shell) : SameFlags shell shell := rfl

theorem trans (same : SameFlags first second) (later : SameFlags second third) :
    SameFlags first third :=
  Eq.trans later same

theorem flags_eq (known : first.flags = flags) (same : SameFlags first second) :
    second.flags = flags :=
  Eq.trans same known

end Shell.SameFlags

/-- The calls of a task that does not go on to others. -/
def Conduct.making (flags : Flags) (task : Task) : Conduct where
  state shell := shell.flags = flags
  call asked := asked.Turning → task.Makes flags asked
  change := Shell.SameFlags
  failure _ := True
  refl := Shell.SameFlags.refl
  trans := Shell.SameFlags.trans
  state_of_change := Shell.SameFlags.flags_eq

namespace Conduct

variable (flags : Flags) {task : Task}

theorem making_plain (call : Call) (plain : call.Plain) : (making flags task).call call :=
  fun turning => absurd turning plain.not_turning

theorem making_waits (pid : Pid) : (making flags task).call (.wait pid) := False.elim

theorem making_startJob (command : Command) :
    (startJob command).Keeps (making flags (.statement (.mk command true))) :=
  startJob_keeps (making_plain flags) (fun _ same _ => .job same) fun _ _ => rfl

theorem making_runAtOnce (binder : Word) (values : List Word) (body : Script)
    (arguments : List String) :
    (runAtOnce binder.text body arguments).Keeps
      (making flags (.command (.loop true binder values body))) :=
  runAtOnce_keeps (making_plain flags) (making_waits flags) (fun _ same _ => .iteration same)
    fun _ _ _ => rfl

theorem making_joined {stages : Pipeline} (joined : stages.length ≠ 1) :
    (runPipeline stages).Keeps (making flags (.pipeline stages)) := by
  apply runPipeline_joined_keeps (making_plain flags) joined (making_waits flags)
  intro shell same words inside wiring _
  have several : 2 ≤ stages.length := by
    have := List.length_pos_of_mem inside
    omega
  exact .stage several inside same

theorem making_program_allows (words : Program) :
    (making flags (.program words)).Allows fun task => task = .program words where
  hereditary := by
    rintro _ _ part rfl
    cases part
  plain := making_plain flags
  waits := making_waits flags
  forks := by
    rintro _ rfl shell _ _ rfl _
    exact .program
  inPlace := by
    rintro shell rfl inPlace arguments code
    exact ⟨fun _ => .replace inPlace, fun _ => .exit inPlace⟩
  status _ _ := rfl
  jobs _ _ := rfl
  bindings := by
    rintro _ _ _ rfl binds
    exact binds.elim
  directory _ _ := rfl
  exit _ := trivial

end Conduct

/-- What makes no such calls. -/
def Conduct.staying : Conduct where
  state _ := True
  call asked := ¬ asked.Turning
  change _ _ := True
  failure _ := True
  refl _ := trivial
  trans _ _ := trivial
  state_of_change _ _ := trivial

namespace Routine

variable {α β : Type} {shell : Shell} {events : List Event} {asked : Call}

theorem asks_bind {routine : Routine α} {next : α → Routine β} :
    Work.Asks ((routine >>= next) shell) events asked ↔ Work.Asks (routine shell) events asked ∨
      ∃ first second value middle, events = first ++ second ∧
        routine.Leads shell first (.ok value) middle ∧
        Work.Asks (next value middle) second asked := by
  rw [bind_apply, Work.asks_bind]
  constructor
  · rintro (asks | ⟨first, second, ⟨outcome, middle⟩, rfl, leads, asks⟩)
    · exact Or.inl asks
    · cases outcome with
      | error cause => exact asks.elim
      | ok value => exact Or.inr ⟨first, second, value, middle, rfl, leads, asks⟩
  · rintro (asks | ⟨first, second, value, middle, rfl, leads, asks⟩)
    · exact Or.inl asks
    · exact Or.inr ⟨first, second, (.ok value, middle), rfl, leads, asks⟩

theorem asks_attempt {routine : Routine α} :
    Work.Asks (routine.attempt shell) events asked ↔ Work.Asks (routine shell) events asked := by
  rw [attempt, Work.asks_bind, or_iff_left]
  rintro ⟨_, _, _, _, _, asks⟩
  exact asks

end Routine

theorem asks_settleStatement {routine : Routine Int} {shell : Shell} {events : List Event}
    {asked : Call} (asks : Work.Asks (settleStatement routine shell) events asked)
    (turning : asked.Turning) :
    Work.Asks (routine shell) events asked := by
  rcases Routine.asks_bind.mp asks with asks | ⟨_, _, outcome, middle, _, _, asks⟩
  · exact Routine.asks_attempt.mp asks
  · have settles (status : Int) : (do
        Routine.modify fun shell => shell.setStatus status
        pure status : Routine Int).Keeps .staying :=
      (Routine.Keeps.modify fun _ => trivial).bind fun _ => .done status
    split at asks
    · exact absurd turning (asks.allowed (settles _ middle trivial) turning.ne_abort)
    · exact asks.elim
    · next cause _ _ =>
      have reports : (Routine.report cause.message).Keeps .staying :=
        complain_keeps (fun _ plain => plain.not_turning) _
      have settled := reports.bind fun _ => settles cause.number
      exact absurd turning (asks.allowed (settled middle trivial) turning.ne_abort)

namespace Task

variable {task next : Task} {shell shell' middle : Shell} {events first second : List Event}
  {asked : Call}

/-- On its way through a task, a process comes to one that makes the call. -/
def Arranges (task : Task) (shell : Shell) (events : List Event) (asked : Call) : Prop :=
  ∃ first second inner middle, events = first ++ second ∧ task.Reaches shell first inner middle ∧
    inner.Makes middle.flags asked

theorem Arranges.of_keeps {routine : Routine Int} (keeps : routine.Keeps (.making shell.flags task))
    (asks : Work.Asks (routine shell) events asked) (turning : asked.Turning) :
    task.Arranges shell events asked :=
  ⟨[], events, task, shell, rfl, .here, asks.allowed (keeps shell rfl) turning.ne_abort turning⟩

theorem Arranges.onward (enters : Enters task shell first next middle)
    (arranges : next.Arranges middle second asked) :
    task.Arranges shell (first ++ second) asked := by
  obtain ⟨before, behind, inner, reached, rfl, reaches, makes⟩ := arranges
  exact ⟨first ++ before, behind, inner, reached, by simp, .onward enters reaches, makes⟩

/-- Every call with which a process starts another, becomes another program or ends comes from a
task that it has come to. -/
theorem arranges_of_asks (task : Task) (asks : Work.Asks (task.run shell) events asked)
    (turning : asked.Turning) : task.Arranges shell events asked := by
  induction task using Task.induction generalizing shell events with
  | nil status =>
      rw [run, runStatements] at asks
      exact asks.elim
  | cons status statement statements inFirst inLater =>
      rw [run, runStatements] at asks
      rcases Routine.asks_bind.mp asks with asks | ⟨_, _, status, _, rfl, ran, asks⟩
      · exact (inFirst asks).onward .first
      · exact (inLater status asks).onward (.later ran)
  | background command =>
      rw [run, runStatement, if_pos rfl] at asks
      have keeps := (Conduct.making_startJob shell.flags command).bind fun _ => .done Status.success
      exact .of_keeps keeps asks turning
  | foreground command inner =>
      rw [run, runStatement] at asks
      exact (inner (asks_settleStatement asks turning)).onward .foreground
  | simple stages inner =>
      rw [run, runCommand] at asks
      exact (inner asks).onward .simple
  | assignment name value =>
      rw [run, runCommand] at asks
      exact asks.elim
  | conditional branches fallback inner =>
      rw [run, runCommand] at asks
      exact (inner asks).onward .conditional
  | parallel binder values body =>
      rw [run, runCommand] at asks
      have keeps := Conduct.making_runAtOnce shell.flags binder values body
        (Expansion.arguments shell.store values)
      exact .of_keeps keeps asks turning
  | sequential binder values body inner =>
      rw [run, runCommand] at asks
      exact (inner shell.store asks).onward .loop
  | nothing =>
      rw [run, runBranches, runFallback] at asks
      exact asks.elim
  | fallback body inner =>
      rw [run, runBranches, runFallback] at asks
      exact (inner asks).onward .fallback
  | branch test body branches fallback inTest inBody inOthers =>
      rw [run, runBranches] at asks
      rcases Routine.asks_bind.mp asks with asks | ⟨_, _, status, _, rfl, ran, asks⟩
      · exact (inTest asks).onward .test
      · by_cases succeeded : status = Status.success
        · subst succeeded
          exact (inBody asks).onward (.body ran)
        · rw [if_neg succeeded] at asks
          exact (inOthers asks).onward (.otherwise ran succeeded)
  | finished name body status => exact asks.elim
  | round name body status value values inBody inLater =>
      have asks : Work.Asks ((runStatements Status.success body >>= fun status =>
          runEach name (runStatements Status.success body) status values)
            (shell.setVariable name (some value)))
          events asked := asks
      rcases Routine.asks_bind.mp asks with asks | ⟨_, _, status, _, rfl, ran, asks⟩
      · exact (inBody asks).onward .round
      · exact (inLater status asks).onward (.laterRound ran)
  | single program inner => exact (inner asks).onward .single
  | joined stages joined => exact .of_keeps (Conduct.making_joined _ joined) asks turning
  | program program =>
      have keeps := (Conduct.making_program_allows shell.flags program).program rfl
      exact .of_keeps keeps asks turning

end Task

end CommandShell
