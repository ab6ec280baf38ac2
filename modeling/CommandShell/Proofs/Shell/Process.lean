import CommandShell.Proofs.Shell.Reach
import CommandShell.Shell.Child

/-!
The processes that come of a script: the one that runs it, those that it starts, and all that these
start in turn. Each begins with a task of its own, in the state of the shell that it was given; what
a conduct says of the processes it lets start holds for the whole tree of them.
-/

namespace CommandShell

/-- Changes to nothing but the flags. -/
def Bounds.flagging : Bounds where
  change first second := ∃ flags, second = { first with flags := flags }
  failure _ := True
  refl shell := ⟨shell.flags, rfl⟩
  trans := by
    rintro first _ _ ⟨_, rfl⟩ ⟨flags, rfl⟩
    exact ⟨flags, rfl⟩

namespace Child

/-- The task of a forked process and the state it is given. A process that becomes another program
has none. -/
def start? : Child → Option (Task × Shell)
  | .program _ => none
  | .stage words _ shell => some (.program words, shell)
  | .iteration body shell => some (.statements Status.success body, shell)
  | .job command shell => some (.command command, shell)

/-- What a forked process does before it turns to its task. -/
def prepare : Child → Routine Unit
  | .stage _ wiring _ => do
    connect wiring
    Routine.modify fun shell => { shell with flags := stageFlags }
  | .job _ _ => do
    match ← Routine.ask .startSession with
    | .ok () => pure ()
    | .error errno => Routine.fail (.call errno)
  | _ => pure ()

theorem work_of_start? {child : Child} {task : Task} {shell : Shell}
    (starts : child.start? = some (task, shell)) :
    child.work = finish (child.prepare >>= fun _ => task.run) shell := by
  cases child with
  | program arguments => simp [start?] at starts
  | stage words wiring given =>
      obtain ⟨rfl, rfl⟩ := Prod.mk.inj (Option.some.inj starts)
      rw [prepare, Routine.bind_assoc]
      rfl
  | iteration body given =>
      obtain ⟨rfl, rfl⟩ := Prod.mk.inj (Option.some.inj starts)
      rfl
  | job command given =>
      obtain ⟨rfl, rfl⟩ := Prod.mk.inj (Option.some.inj starts)
      have same : ((Child.job command given).prepare >>= fun _ => runCommand command) =
          runJob command := by
        rw [prepare, Routine.bind_assoc, runJob]
        congr 1
        funext reply
        cases reply with
        | ok => rfl
        | error errno => rfl
      exact congrArg (finish · given) same.symm

theorem prepare_within_of {bounds : Bounds}
    (flags : ∀ shell flags, bounds.change shell { shell with flags })
    (fails : ∀ errno, bounds.failure (.call errno)) (child : Child) :
    child.prepare.Within bounds := by
  have rewires (source target : Descriptor) : (rewire source target).Within bounds := by
    refine (Routine.Within.ask _).bind fun reply => ?_
    split
    · exact .ask _
    · exact .fail (fails _)
  cases child with
  | program | iteration => exact .done ()
  | stage words wiring given =>
      refine Routine.Within.bind ?_ fun _ => .modify fun shell => flags shell _
      refine (closeEnd_keeps (fun _ _ => trivial) _).within.bind fun _ => ?_
      cases wiring.source <;> cases wiring.target
      · exact .done ()
      · exact rewires _ _
      · exact (rewires _ _).bind fun _ => .done ()
      · exact (rewires _ _).bind fun _ => rewires _ _
  | job command given =>
      refine (Routine.Within.ask _).bind fun reply => ?_
      split
      · exact .done ()
      · exact .fail (fails _)

theorem prepare_within (child : Child) : child.prepare.Within .flagging :=
  @prepare_within_of .flagging (fun _ flags => ⟨flags, rfl⟩) (fun _ => trivial) child

end Child

/-- A process that does one task comes to start, itself or through others, one that turns to
another. -/
inductive Task.Descends : Task → Shell → Task → Shell → Prop where
  | self {task : Task} {shell : Shell} : Descends task shell task shell
  | forked {task inner final : Task} {shell given ready shell' : Shell} {child : Child}
      {events events' : List Event} (asks : Work.Asks (task.run shell) events (.fork child))
      (starts : child.start? = some (inner, given))
      (prepared : child.prepare.Leads given events' (.ok ()) ready)
      (later : Descends inner ready final shell') : Descends task shell final shell'

namespace Task

variable {conduct : Conduct} {admits : Task → Prop} {task final : Task} {shell shell' : Shell}

/-- If every process that may be started begins as it should, all processes do. -/
theorem Descends.admitted (allows : conduct.Allows admits)
    (begins : ∀ {child : Child} {inner : Task} {given ready : Shell} {events : List Event},
      conduct.call (.fork child) → child.start? = some (inner, given) →
      child.prepare.Leads given events (.ok ()) ready → admits inner ∧ conduct.state ready)
    (descends : Descends task shell final shell') (admitted : admits task)
    (inState : conduct.state shell) :
    admits final ∧ conduct.state shell' := by
  induction descends with
  | self => exact ⟨admitted, inState⟩
  | forked asks starts prepared _ inductionHypothesis =>
      have allowed := asks.allowed (allows.task _ admitted _ inState) nofun
      obtain ⟨admitted', inState'⟩ := begins allowed starts prepared
      exact inductionHypothesis admitted' inState'

end Task

end CommandShell
