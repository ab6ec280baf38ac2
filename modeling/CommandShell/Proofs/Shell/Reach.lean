import CommandShell.Proofs.Shell.Conduct
import CommandShell.Proofs.Shell.Trace

/-!
The way of a process through a script: from a task it enters those inside, one after the other, each
in the state that the ones before it have left. A task inside a task is reached after some events,
and all that the process does itself is reached so. What is done in other processes is not.
-/

namespace CommandShell

namespace Task

/-- From one task a process enters another, after some events. -/
inductive Enters : Task → Shell → List Event → Task → Shell → Prop where
  | first {status : Int} {single : Statement} {later : List Statement} {shell : Shell} :
      Enters (.statements status (single :: later)) shell [] (.statement single) shell
  | later {status status' : Int} {single : Statement} {later : List Statement}
      {shell shell' : Shell}
      {events : List Event} (ran : (runStatement single).Leads shell events (.ok status') shell') :
      Enters (.statements status (single :: later)) shell events (.statements status' later) shell'
  | foreground {inner : Command} {shell : Shell} :
      Enters (.statement (.mk inner false)) shell [] (.command inner) shell
  | simple {stages : Pipeline} {shell : Shell} :
      Enters (.command (.pipeline stages)) shell [] (.pipeline stages) shell
  | conditional {choices : List Branch} {fallback : Option (List Statement)} {shell : Shell} :
      Enters (.command (.conditional choices fallback)) shell [] (.branches choices fallback) shell
  | loop {binder : Word} {values : List Word} {body : List Statement} {shell : Shell} :
      Enters (.command (.loop false binder values body)) shell []
        (.rounds binder.text body Status.success (Expansion.arguments shell.store values)) shell
  | test {test : Pipeline} {body : List Statement} {choices : List Branch}
      {fallback : Option (List Statement)} {shell : Shell} :
      Enters (.branches (.mk test body :: choices) fallback) shell [] (.pipeline test) shell
  | body {test : Pipeline} {body : List Statement} {choices : List Branch}
      {fallback : Option (List Statement)} {shell shell' : Shell} {events : List Event}
      (ran : (runPipeline test).Leads shell events (.ok Status.success) shell') :
      Enters (.branches (.mk test body :: choices) fallback) shell events
        (.statements Status.success body) shell'
  | otherwise {test : Pipeline} {body : List Statement} {choices : List Branch}
      {fallback : Option (List Statement)} {shell shell' : Shell} {events : List Event}
        {status : Int} (ran : (runPipeline test).Leads shell events (.ok status) shell')
        (failed : status ≠ Status.success) :
      Enters (.branches (.mk test body :: choices) fallback) shell events
        (.branches choices fallback) shell'
  | fallback {body : List Statement} {shell : Shell} :
      Enters (.branches [] (some body)) shell [] (.statements Status.success body) shell
  | round {name value : String} {body : List Statement} {status : Int} {values : List String}
      {shell : Shell} :
      Enters (.rounds name body status (value :: values)) shell [] (.statements Status.success body)
        (shell.setVariable name (some value))
  | laterRound {name value : String} {body : List Statement} {status status' : Int}
      {values : List String} {shell shell' : Shell} {events : List Event}
      (ran : (runStatements Status.success body).Leads (shell.setVariable name (some value)) events
        (.ok status') shell') :
      Enters (.rounds name body status (value :: values)) shell events
        (.rounds name body status' values)
        shell'
  | single {words : Program} {shell : Shell} :
      Enters (.pipeline [words]) shell [] (.program words) shell

/-- On its way through a task a process comes to another, after some events. -/
inductive Reaches : Task → Shell → List Event → Task → Shell → Prop where
  | here {task : Task} {shell : Shell} : Reaches task shell [] task shell
  | onward {task next final : Task} {shell middle shell' : Shell} {first second : List Event}
      (enters : Enters task shell first next middle)
        (reaches : Reaches next middle second final shell') :
      Reaches task shell (first ++ second) final shell'

variable {task next : Task} {shell shell' : Shell} {events : List Event}

theorem Enters.part (enters : Enters task shell events next shell') : next.Part task := by
  cases enters with
  | first => exact .first
  | later => exact .later
  | foreground => exact .foreground
  | simple => exact .simple
  | conditional => exact .conditional
  | loop => exact .loop
  | test => exact .test
  | body => exact .body
  | otherwise => exact .otherwise
  | fallback => exact .fallback
  | round => exact .round
  | laterRound => exact .laterRound
  | single => exact .single

variable {admits : Task → Prop}

/-- A relation between the state before and behind some events that holds for whatever is put
together of tasks that are done, and of values that are given to variables. -/
structure Accrues (admits : Task → Prop) (related : Shell → List Event → Shell → Prop) : Prop where
  hereditary : ∀ {part whole : Task}, part.Part whole → admits whole → admits part
  refl : ∀ shell, related shell [] shell
  trans : ∀ {shell middle shell' first second}, related shell first middle →
    related middle second shell' →
    related shell (first ++ second) shell'
  ran : ∀ {task : Task} {shell events status shell'}, admits task →
    task.run.Leads shell events (.ok status) shell' → related shell events shell'
  bound : ∀ {task : Task} {name : String} {value : Option String}, admits task →
    task.Binds name value →
    ∀ shell, related shell [] (shell.setVariable name value)

variable {related : Shell → List Event → Shell → Prop}

theorem Enters.accrued (enters : Enters task shell events next shell')
    (accrues : Accrues admits related) (admitted : admits task) : related shell events shell' := by
  cases enters with
  | first | foreground | simple | conditional | loop | test | fallback | single =>
      exact accrues.refl shell
  | @later _ _ single _ _ _ _ ran =>
      have admitted' : admits (.statement single) := accrues.hereditary .first admitted
      exact accrues.ran admitted' ran
  | @body test _ _ _ _ _ _ ran | @otherwise test _ _ _ _ _ _ _ ran =>
      have admitted' : admits (.pipeline test) := accrues.hereditary .test admitted
      exact accrues.ran admitted' ran
  | round => exact accrues.bound admitted ⟨rfl, _, List.mem_cons_self, rfl⟩ shell
  | @laterRound _ _ body _ _ _ _ _ _ ran =>
      have admitted' : admits (.statements Status.success body) :=
        accrues.hereditary .round admitted
      have bound := accrues.bound admitted ⟨rfl, _, List.mem_cons_self, rfl⟩ shell
      exact accrues.trans bound (accrues.ran admitted' ran)

theorem Reaches.accrued (reaches : Reaches task shell events next shell')
    (accrues : Accrues admits related) (admitted : admits task) : related shell events shell' := by
  induction reaches with
  | here => exact accrues.refl _
  | onward enters _ inductionHypothesis =>
      refine accrues.trans (enters.accrued accrues admitted) ?_
      exact inductionHypothesis (accrues.hereditary enters.part admitted)

variable {conduct : Conduct}

theorem keeps_of_leads (task : Task) {outcome : Except Fault Int}
    (leads : task.run.Leads shell events outcome shell') (allows : conduct.Allows admits)
    (admitted : admits task) (inState : conduct.state shell) :
    conduct.change shell shell' ∧ ∀ cause, outcome = .error cause → conduct.failure cause := by
  have run : Work.Leads (task.run shell) events (outcome, shell') := leads
  exact run.of_always (allows.task task admitted shell inState).always

theorem accrues_change (allows : conduct.Allows admits) :
    Accrues admits fun first _ second => conduct.state first → conduct.change first second where
  hereditary := allows.hereditary
  refl shell _ := conduct.refl shell
  trans first second inState :=
    conduct.trans (first inState) (second (conduct.state_of_change inState (first inState)))
  ran admitted leads inState := (keeps_of_leads _ leads allows admitted inState).1
  bound admitted binds shell _ := allows.bindings admitted binds shell

theorem Reaches.change (reaches : Reaches task shell events next shell')
    (allows : conduct.Allows admits) (admitted : admits task) (inState : conduct.state shell) :
    conduct.change shell shell' :=
  reaches.accrued (accrues_change allows) admitted inState

end Task

end CommandShell
