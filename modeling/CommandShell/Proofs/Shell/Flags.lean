import CommandShell.Proofs.Shell.OpenFiles
import CommandShell.Proofs.Shell.Origin

/-!
The flags of a process. They are set in a stage of a pipeline, once it is started and before it
turns to its only program; in all other processes none is ever set, so that no program takes the
place of a process that has more to do.
-/

namespace CommandShell

/-- Changes that leave the flags as they are. -/
def Bounds.sameFlags : Bounds where
  change := Shell.SameFlags
  failure _ := True
  refl := Shell.SameFlags.refl
  trans := Shell.SameFlags.trans

theorem Bounds.sameFlags_allows : Bounds.sameFlags.conduct.Allows fun _ => True where
  hereditary _ _ := trivial
  plain _ _ := trivial
  waits _ := trivial
  forks _ _ _ _ _ := trivial
  inPlace _ _ _ _ _ := ⟨trivial, trivial⟩
  status _ _ := rfl
  jobs _ _ := rfl
  bindings _ _ _ := rfl
  directory _ _ := rfl
  exit _ := trivial

theorem Child.prepare_flags {child : Child} {given ready : Shell} {events : List Event}
    (prepared : child.prepare.Leads given events (.ok ()) ready)
    (other : ∀ words wiring shell, child ≠ .stage words wiring shell) :
    ready.flags = given.flags := by
  cases child with
  | stage words wiring shell => exact absurd rfl (other words wiring shell)
  | program | iteration =>
      obtain ⟨_, _, rfl⟩ := Routine.leads_pure.mp prepared
      rfl
  | job command shell =>
      obtain ⟨reply, _, _, told⟩ := Routine.leads_ask_bind.mp prepared
      cases reply with
      | ok =>
          obtain ⟨_, _, rfl⟩ := Routine.leads_pure.mp told
          rfl
      | error errno => simp [Routine.leads_fail] at told

namespace Task

variable {task origin : Task} {shell shell' ready : Shell} {events : List Event}

theorem flags_of_leads {outcome : Except Fault Int}
    (leads : task.run.Leads shell events outcome shell') :
    shell'.flags = shell.flags :=
  (task.keeps_of_leads leads Bounds.sameFlags_allows trivial trivial).1

theorem Reaches.flags (reaches : origin.Reaches ready events task shell) :
    shell.flags = ready.flags :=
  reaches.change Bounds.sameFlags_allows trivial trivial

theorem Reaches.of_program {words : Program}
    (reaches : (Task.program words).Reaches ready events task shell) :
    events = [] ∧ task = .program words ∧ shell = ready := by
  cases reaches with
  | here => exact ⟨rfl, rfl, rfl⟩
  | onward enters => cases enters

/-- A process that has more to do than a program, and no flags. -/
structure Bare (origin : Task) (ready : Shell) : Prop where
  several : ∀ words, origin ≠ .program words
  flags : ready.flags = {}

/-- A process has come to a pipeline of several stages and starts one of them. Connected to its
pipes, the stage turns to its program with the flags set, and when it is through with that it
ends. -/
structure Stages (parent : Task) (before : Shell) (words : Program) (ready : Shell) : Prop where
  bare : parent.Bare before
  started : ∃ events more stages middle wiring given connected,
    parent.Reaches before events (.pipeline stages) middle ∧ 2 ≤ stages.length ∧ words ∈ stages ∧
    Work.Asks (parent.run before) (events ++ more) (.fork (.stage words wiring given)) ∧
      given.flags = {} ∧
    (Child.stage words wiring given).prepare.Leads given connected (.ok ()) ready ∧
    (Child.stage words wiring given).work =
      finish ((Child.stage words wiring given).prepare >>= fun _ => runProgram words) given
  flags : ready.flags = stageFlags

theorem Bare.fork {inner : Task} {given ready' : Shell} {child : Child} {prepared : List Event}
    (bare : origin.Bare ready) (asks : Work.Asks (origin.run ready) events (.fork child))
    (starts : child.start? = some (inner, given))
    (prepares : child.prepare.Leads given prepared (.ok ()) ready') :
    inner.Bare ready' ∨ ∃ words, inner = .program words ∧ origin.Stages ready words ready' := by
  obtain ⟨first, second, maker, middle, rfl, reaches, makes⟩ := origin.arranges_of_asks asks trivial
  have unflagged : middle.flags = {} := reaches.flags.trans bare.flags
  cases makes with
  | job same | iteration same =>
      obtain ⟨rfl, rfl⟩ := Prod.mk.inj (Option.some.inj starts)
      have kept := Child.prepare_flags prepares (by simp)
      exact Or.inl ⟨by simp, kept.trans (same.trans unflagged)⟩
  | @stage stages words wiring shell several inside same =>
      have works := Child.work_of_start? starts
      obtain ⟨rfl, rfl⟩ := Prod.mk.inj (Option.some.inj starts)
      obtain ⟨_, rfl⟩ := prepare_leads_ok.mp prepares
      refine Or.inr ⟨words, rfl, bare, ?_, rfl⟩
      exact ⟨first, second, stages, middle, wiring, shell, prepared, reaches, several, inside, asks,
        same.trans unflagged, prepares, works⟩
  | program => simp [Child.start?] at starts

theorem Descends.of_program {words : Program}
    (descends : (Task.program words).Descends shell task shell') :
    task = .program words ∧ shell' = shell := by
  cases descends with
  | self => exact ⟨rfl, rfl⟩
  | forked asks starts =>
      obtain ⟨_, _, _, _, _, reaches, makes⟩ := arranges_of_asks _ asks trivial
      obtain ⟨_, rfl, _⟩ := reaches.of_program
      cases makes
      simp [Child.start?] at starts

/-- All processes that come of one without flags are without flags, or stages that one of those has
started. -/
theorem Bare.descends {final : Task} (bare : task.Bare shell)
    (descends : task.Descends shell final shell') :
    final.Bare shell' ∨ ∃ words parent before, final = .program words ∧
      task.Descends shell parent before ∧
      parent.Stages before words shell' := by
  induction descends with
  | self => exact Or.inl bare
  | @forked task inner final shell given ready shell' child events prepared asks starts prepares
      later inductionHypothesis =>
      rcases bare.fork asks starts prepares with bare' | ⟨words, rfl, stages⟩
      · rcases inductionHypothesis bare' with found | ⟨words, parent, before, rfl, descends, stages⟩
        · exact Or.inl found
        · exact Or.inr ⟨words, parent, before, rfl, .forked asks starts prepares descends, stages⟩
      · obtain ⟨rfl, rfl⟩ := later.of_program
        exact Or.inr ⟨words, task, shell, rfl, .self, stages⟩

theorem Bare.not_replaced {arguments : List String} (bare : origin.Bare ready) :
    ¬ Work.Asks (origin.run ready) events (.replace arguments) := by
  intro asks
  obtain ⟨_, _, _, middle, _, reaches, makes⟩ := origin.arranges_of_asks asks trivial
  cases makes with
  | replace inPlace =>
      rw [reaches.flags, bare.flags] at inPlace
      contradiction

end Task

/-- A script is begun without flags. Each process that comes of it then is of one of two kinds. In
the first, all that it does is done without flags, each task leaves it so, and no program takes its
place. The second is a stage that one of the first kind starts for a pipeline of several stages: its
flags are set between its start and its only program. -/
theorem Script.flags_confined (script : Script) {shell : Shell} (bare : shell.flags = {})
    {origin : Task} {ready : Shell} (descends : script.task.Descends shell origin ready) :
    ((∀ words, origin ≠ .program words) ∧
      (∀ events task shell', origin.Reaches ready events task shell' → shell'.flags = {} ∧
        ∀ later outcome shell'', task.run.Leads shell' later outcome shell'' → shell''.flags = {}) ∧
      ∀ events arguments, ¬ Work.Asks (origin.run ready) events (.replace arguments)) ∨
    ∃ words parent before, origin = .program words ∧ script.task.Descends shell parent before ∧
      parent.Stages before words ready ∧
      ∀ events task shell', origin.Reaches ready events task shell' →
        events = [] ∧ task = .program words ∧ shell' = ready := by
  have begins : script.task.Bare shell := ⟨by simp [Script.task], bare⟩
  rcases begins.descends descends with bare' | ⟨words, parent, before, rfl, descends', stages⟩
  · refine Or.inl ⟨bare'.several, ?_, fun _ _ => bare'.not_replaced⟩
    intro events task shell' reaches
    have unflagged : shell'.flags = {} := reaches.flags.trans bare'.flags
    exact ⟨unflagged, fun _ _ _ leads => (Task.flags_of_leads leads).trans unflagged⟩
  · refine Or.inr ⟨words, parent, before, rfl, descends', stages, ?_⟩
    intro events task shell' reaches
    exact reaches.of_program

theorem Script.flags_confined_first :
    let shell := Shell.start {} []
    let words : Program := [.literal "a"]
    let script : Script := [.mk (.pipeline [words, [.literal "b"]]) false]
    shell.flags = {} ∧ ∃ ready parent before, script.task.Descends shell (.program words) ready ∧
      Task.Stages parent before words ready := by
  intro shell words script
  let pipe : Pipe := ⟨3, 4⟩
  -- The first stage is started behind the pipe to the second, and takes its end of that.
  have starts :
      Work.Asks (startStages none [] [words, [.literal "b"]] shell) [⟨.openPipe, .ok pipe⟩]
      (.fork (.stage words ⟨none, some pipe⟩ shell)) := by
    refine Routine.asks_bind.mpr
      (Or.inr ⟨[⟨.openPipe, .ok pipe⟩], [], .ok (some pipe), shell, rfl, ?_, ?_⟩)
    · exact Routine.leads_ask_bind.mpr ⟨.ok pipe, [], rfl, Routine.leads_pure.mpr ⟨rfl, rfl, rfl⟩⟩
    · exact Or.inl ⟨[], by simp, rfl, rfl⟩
  have asks : Work.Asks (script.task.run shell) [⟨.openPipe, .ok pipe⟩]
      (.fork (.stage words ⟨none, some pipe⟩ shell)) := by
    rw [Script.task, Task.run, runStatements, runStatement, runCommand]
    refine Routine.asks_bind.mpr
      (Or.inl (Routine.asks_bind.mpr (Or.inl (Routine.asks_attempt.mpr ?_))))
    exact Routine.asks_bind.mpr (Or.inl starts)
  have prepared : (Child.stage words ⟨none, some pipe⟩ shell).prepare.Leads shell
      (connecting ⟨none, some pipe⟩) (.ok ()) { shell with flags := stageFlags } :=
    prepare_leads_ok.mpr ⟨rfl, rfl⟩
  have descends : script.task.Descends shell (.program words) { shell with flags := stageFlags } :=
    .forked asks rfl prepared .self
  rcases Script.flags_confined script rfl descends with
      ⟨other, _⟩ | ⟨_, parent, before, same, _, stages, _⟩
  · exact absurd rfl (other words)
  · obtain rfl := Task.program.inj same
    exact ⟨rfl, _, parent, before, descends, stages⟩

end CommandShell
