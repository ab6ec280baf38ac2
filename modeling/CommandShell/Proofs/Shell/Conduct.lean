import CommandShell.Proofs.Shell.Task
import CommandShell.Proofs.Shell.Trace

/-!
How a routine conducts itself, whatever replies its calls get: which calls it makes, how far it
changes the state of the shell, and how it may fail. All that the shell does for a script is gone
through here once; a conduct that allows the calls and the changes in it is kept by every task.
-/

namespace CommandShell

/-- A call by which the process gives up: the event before it is a text that could not be
written. -/
def Event.Defeats (event : Event) (call : Call) : Prop :=
  ∃ stream text failure, event = ⟨.write stream text, .error failure⟩ ∧
    call = .abort (Work.unprinted stream failure)

namespace Work

variable {α β : Type}

/-- Work that begins by giving up, for the reason that an event is. -/
def GivesUp (event : Event) : Work α → Prop
  | Action.done _ => False
  | Action.ask call _ _ => event.Defeats call

/-- Whether work makes only calls that are allowed, until it gives up if it has to, and all the
results it can have are of a kind. -/
def Only (allowed : Call → Prop) (holds : α → Prop) : Work α → Prop
  | Action.done result => holds result
  | Action.ask call _ next =>
    allowed call ∧ ∀ reply, GivesUp ⟨call, reply⟩ (next reply) ∨ Only allowed holds (next reply)

variable {allowed : Call → Prop} {work : Work α}

theorem GivesUp.bind {event : Event} (givesUp : GivesUp event work) (next : α → Work β) :
    GivesUp event (work.bind next) := by
  cases work with
  | done result => exact givesUp.elim
  | ask call again rest => exact givesUp

theorem GivesUp.always {event : Event} (givesUp : GivesUp event work) (holds : α → Prop) :
    work.Always holds := by
  cases work with
  | done result => exact givesUp.elim
  | ask call again rest =>
      obtain ⟨_, _, _, _, rfl⟩ := givesUp
      exact fun never => nomatch (show Empty from never)

theorem GivesUp.not_leads {event : Event} {events : List Event} {result : α}
    (givesUp : GivesUp event work) : ¬ Leads work events result := by
  cases work with
  | done result => exact givesUp.elim
  | ask call again rest =>
      obtain ⟨_, _, _, _, rfl⟩ := givesUp
      rintro ⟨_, _, never, _⟩
      exact nomatch (show Empty from never)

theorem GivesUp.asks {event : Event} {events : List Event} {asked : Call}
    (givesUp : GivesUp event work) (asks : Asks work events asked) :
    events = [] ∧ event.Defeats asked := by
  cases work with
  | done result => exact givesUp.elim
  | ask call again rest =>
      have defeats : event.Defeats call := givesUp
      obtain ⟨_, _, _, _, rfl⟩ := givesUp
      rcases asks with ⟨replies, _, rfl, rfl⟩ | ⟨_, _, never, _⟩
      · cases replies with
        | nil => exact ⟨rfl, defeats⟩
        | cons never => exact nomatch (show Empty from never)
      · exact nomatch (show Empty from never)

theorem only_bind {next : α → Work β} {holds : β → Prop}
    (only : Only allowed (fun result => Only allowed holds (next result)) work) :
    Only allowed holds (work.bind next) := by
  induction work with
  | done result => exact only
  | ask call again rest inductionHypothesis =>
      refine ⟨only.1, fun reply => ?_⟩
      exact (only.2 reply).imp (fun givesUp => givesUp.bind next) (inductionHypothesis reply)

theorem Only.imp {holds holds' : α → Prop} (only : Only allowed holds work)
    (weaker : ∀ result, holds result → holds' result) : Only allowed holds' work := by
  induction work with
  | done result => exact weaker result only
  | ask call again next inductionHypothesis =>
      exact ⟨only.1, fun reply => (only.2 reply).imp_right (inductionHypothesis reply)⟩

theorem Only.always {holds : α → Prop} (only : Only allowed holds work) : work.Always holds := by
  induction work with
  | done result => exact only
  | ask call again next inductionHypothesis =>
      intro reply
      rcases only.2 reply with givesUp | only
      · exact givesUp.always holds
      · exact inductionHypothesis reply only

theorem Asks.allowed_or_defeated {events : List Event} {asked : Call} {holds : α → Prop}
    (asks : Asks work events asked) (only : Only allowed holds work) :
    allowed asked ∨ ∃ before event, events = before ++ [event] ∧ event.Defeats asked := by
  induction work generalizing events with
  | done result => exact asks.elim
  | ask call again next inductionHypothesis =>
      rcases asks with ⟨_, _, _, rfl⟩ | ⟨first, second, reply, rfl, gets, later⟩
      · exact Or.inl only.1
      rcases only.2 reply with givesUp | only
      · obtain ⟨rfl, defeats⟩ := givesUp.asks later
        obtain ⟨before, rfl⟩ := gets.exists_last
        exact Or.inr ⟨before, _, List.append_nil _, defeats⟩
      · refine (inductionHypothesis reply later only).imp_right ?_
        rintro ⟨before, event, rfl, defeats⟩
        exact ⟨first ++ before, event, (List.append_assoc ..).symm, defeats⟩

theorem ask_only {call : Call} (permitted : allowed call) :
    Only allowed (fun _ => True) (ask call) :=
  ⟨permitted, fun _ => Or.inr trivial⟩

theorem tell_only {stream : Stream} {text : String} (permitted : allowed (.write stream text)) :
    Only allowed (fun _ => True) (tell stream text) := by
  refine ⟨permitted, fun reply => ?_⟩
  match reply with
  | .ok () => exact Or.inr trivial
  | .error failure => exact Or.inl ⟨stream, text, failure, rfl, rfl⟩

end Work

theorem Work.Asks.allowed {α : Type} {work : Work α} {events : List Event} {asked : Call}
    {allowed : Call → Prop} {holds : α → Prop} (asks : Work.Asks work events asked)
    (only : Work.Only allowed holds work) (stays : ∀ reason, asked ≠ .abort reason) :
    allowed asked := by
  rcases asks.allowed_or_defeated only with permitted | ⟨_, _, _, _, _, _, _, same⟩
  · exact permitted
  · exact absurd same (stays _)

/-- A call behind which the process goes on as it was. -/
def Call.Ongoing : Call → Prop
  | .replace _ => False
  | .exit _ => False
  | .abort _ => False
  | _ => True

/-- A call that has to do with no process: it starts none, waits for none and does not end this
one. -/
def Call.Plain : Call → Prop
  | .fork _ => False
  | .wait _ => False
  | .replace _ => False
  | .exit _ => False
  | .abort _ => False
  | _ => True

theorem Call.Plain.ongoing {call : Call} (plain : call.Plain) : call.Ongoing := by
  cases call with
  | fork | wait | replace | exit | abort => contradiction
  | _ => trivial

/-- The calls, the changes and the failures that a routine keeps to if it is begun in one of the
states. -/
structure Conduct where
  state : Shell → Prop
  call : Call → Prop
  change : Shell → Shell → Prop
  failure : Fault → Prop
  refl : ∀ shell, change shell shell
  trans : ∀ {first second third}, change first second → change second third → change first third
  state_of_change : ∀ {first second}, state first → change first second → state second

/-- Bounds, on work that is begun in any state and makes any calls. -/
def Bounds.conduct (bounds : Bounds) : Conduct where
  state _ := True
  call _ := True
  change := bounds.change
  failure := bounds.failure
  refl := bounds.refl
  trans := bounds.trans
  state_of_change _ _ := trivial

/-- The same calls and changes, and any failures. -/
def Conduct.lenient (conduct : Conduct) : Conduct := { conduct with failure := fun _ => True }

/-- A routine keeps to its conduct, whatever replies it gets. -/
def Routine.Keeps {α : Type} (conduct : Conduct) (routine : Routine α) : Prop :=
  ∀ shell, conduct.state shell → Work.Only conduct.call (fun outcome =>
    conduct.change shell outcome.2 ∧ ∀ cause, outcome.1 = .error cause → conduct.failure cause)
    (routine shell)

namespace Routine.Keeps

variable {conduct : Conduct} {α β : Type}

theorem within {bounds : Bounds} {routine : Routine α} (keeps : routine.Keeps bounds.conduct) :
    routine.Within bounds :=
  fun shell => (keeps shell trivial).always

theorem done (result : α) : (pure result : Routine α).Keeps conduct :=
  fun shell _ => ⟨conduct.refl shell, by simp⟩

theorem fail {cause : Fault} (allowed : conduct.failure cause) :
    (Routine.fail cause : Routine α).Keeps conduct :=
  fun shell _ => ⟨conduct.refl shell, by rintro _ ⟨⟩; exact allowed⟩

theorem get : Routine.get.Keeps conduct := fun shell _ => ⟨conduct.refl shell, by simp⟩

theorem modify {change : Shell → Shell} (allowed : ∀ shell, conduct.change shell (change shell)) :
    (Routine.modify change).Keeps conduct :=
  fun shell _ => ⟨allowed shell, by simp⟩

theorem lift {work : Work α} (only : Work.Only conduct.call (fun _ => True) work) :
    (Routine.lift work).Keeps conduct := by
  intro shell _
  refine Work.only_bind (only.imp fun result _ => ?_)
  exact ⟨conduct.refl shell, by simp⟩

theorem ask {call : Call} (allowed : conduct.call call) : (Routine.ask call).Keeps conduct :=
  lift (Work.ask_only allowed)

theorem tell {stream : Stream} {text : String} (allowed : conduct.call (.write stream text)) :
    (Routine.lift (Work.tell stream text)).Keeps conduct :=
  lift (Work.tell_only allowed)

theorem bind {routine : Routine α} {next : α → Routine β} (first : routine.Keeps conduct)
    (later : ∀ result, (next result).Keeps conduct) : (routine >>= next).Keeps conduct := by
  intro shell inState
  refine Work.only_bind ((first shell inState).imp ?_)
  rintro ⟨outcome, shell'⟩ ⟨changed, failed⟩
  cases outcome with
  | error cause => exact ⟨changed, fun cause' same => failed cause' (by simpa using same)⟩
  | ok result =>
      refine (later result shell' (conduct.state_of_change inState changed)).imp ?_
      rintro outcome ⟨changed', failed'⟩
      exact ⟨conduct.trans changed changed', failed'⟩

theorem get_bind {next : Shell → Routine α}
    (later : ∀ shell, conduct.state shell → (next shell).Keeps conduct) :
    (Routine.get >>= next).Keeps conduct :=
  fun shell inState => later shell inState shell inState

theorem attempt {routine : Routine α}
    (changes : ∀ shell, conduct.state shell →
      Work.Only conduct.call (fun outcome => conduct.change shell outcome.2) (routine shell)) :
    routine.attempt.Keeps conduct := by
  intro shell inState
  refine Work.only_bind ((changes shell inState).imp ?_)
  intro outcome changed
  exact ⟨changed, by simp⟩

end Routine.Keeps

open Routine (Keeps)

variable {conduct : Conduct}

/-! Waiting for processes and handling pipes changes nothing in the shell, and never fails. -/

section Processes

variable (plain : ∀ call : Call, call.Plain → conduct.call call)

include plain

theorem say_keeps (line : String) : (Routine.say line).Keeps conduct := .tell (plain _ trivial)

theorem complain_keeps (line : String) : (Routine.complain line).Keeps conduct :=
  .tell (plain _ trivial)

theorem becomeProgram_only {arguments : List String}
    (ends : ∀ arguments code, conduct.call (.replace arguments) ∧ conduct.call (.exit code)) :
    Work.Only conduct.call (fun _ => True) (becomeProgram arguments) := by
  cases arguments with
  | nil => exact Work.ask_only (ends [] _).2
  | cons name rest =>
      refine Work.only_bind ((Work.ask_only (ends _ 0).1).imp fun errno _ => ?_)
      refine Work.only_bind ((Work.tell_only (plain _ trivial)).imp fun _ _ => ?_)
      exact Work.ask_only (ends [] _).2

omit plain in
theorem waitFor_keeps (waits : ∀ pid, conduct.call (.wait pid)) (pid : Pid) :
    (Routine.waitFor pid).Keeps conduct :=
  .lift ⟨waits pid, fun _ => Or.inr trivial⟩

theorem statusOfWait_keeps (status : WaitStatus) : (Routine.statusOfWait status).Keeps conduct := by
  cases status with
  | signaled pid signal core => exact (say_keeps plain _).bind fun _ => .done _
  | _ => exact .done _

theorem waitChild_keeps (waits : ∀ pid, conduct.call (.wait pid)) (pid : Pid) :
    (Routine.waitChild pid).Keeps conduct := by
  refine (waitFor_keeps waits pid).bind fun reply => ?_
  split
  · exact statusOfWait_keeps plain _
  · exact (complain_keeps plain _).bind fun _ => .done _

theorem reapQuietlyEach_keeps (waits : ∀ pid, conduct.call (.wait pid)) (pids : List Pid) :
    (reapQuietlyEach pids).Keeps conduct := by
  induction pids with
  | nil => exact .done ()
  | cons pid pids inductionHypothesis =>
      refine Keeps.bind ?_ fun _ => inductionHypothesis
      refine (waitFor_keeps waits pid).bind fun reply => ?_
      split
      · exact .done ()
      · exact complain_keeps plain _

theorem reapEach_keeps (waits : ∀ pid, conduct.call (.wait pid)) (pids : List Pid) :
    (Routine.reapEach pids).Keeps conduct := by
  induction pids with
  | nil => exact .done ()
  | cons pid pids inductionHypothesis =>
      refine Keeps.bind ?_ fun _ => inductionHypothesis
      refine (Keeps.ask (waits pid)).bind fun reply => ?_
      split
      · exact say_keeps plain _
      · exact say_keeps plain _
      · exact .done ()
      · exact complain_keeps plain _

theorem tearDown_keeps (waits : ∀ pid, conduct.call (.wait pid))
    (tracks : ∀ shell jobs, conduct.change shell { shell with jobs := jobs }) :
    Routine.tearDown.Keeps conduct := by
  refine Keeps.get.bind fun shell => ?_
  split
  · refine Keeps.get.bind fun shell => ?_
    exact (Keeps.modify fun shell => tracks shell _).bind fun _ => reapEach_keeps plain waits _
  · exact .done ()

theorem waitEach_keeps (waits : ∀ pid, conduct.call (.wait pid)) (status : Int) (pids : List Pid) :
    (waitEach status pids).Keeps conduct := by
  induction pids generalizing status with
  | nil => exact .done status
  | cons pid pids inductionHypothesis =>
      exact (waitChild_keeps plain waits pid).bind inductionHypothesis

theorem closeEnd_keeps (descriptor : Option Descriptor) : (closeEnd descriptor).Keeps conduct := by
  cases descriptor with
  | none => exact .done ()
  | some descriptor => exact .ask (plain _ trivial)

theorem closePipe_keeps (pipe : Option Pipe) : (closePipe pipe).Keeps conduct := by
  cases pipe with
  | none => exact .done ()
  | some pipe => exact (Keeps.ask (plain _ (by trivial))).bind fun _ => .ask (plain _ trivial)

theorem openPipe_keeps (last : Bool) : (openPipe last).Keeps conduct := by
  unfold openPipe
  split
  · exact .done _
  · refine (Keeps.ask (plain _ (by trivial))).bind fun reply => ?_
    split
    · exact .done _
    · exact .done _

theorem startStages_keeps {programs : List Program}
    (forks : ∀ shell, conduct.state shell → ∀ words ∈ programs, ∀ wiring,
      conduct.call (.fork (.stage words wiring shell)))
    (source : Option Descriptor) (pids : List Pid) :
    (startStages source pids programs).Keeps conduct := by
  induction programs generalizing source pids with
  | nil => exact (closeEnd_keeps plain source).bind fun _ => .done _
  | cons program programs inductionHypothesis =>
      refine (openPipe_keeps plain _).bind fun opened => ?_
      split
      · exact (complain_keeps plain _).bind fun _ =>
          (closeEnd_keeps plain source).bind fun _ => .done _
      · refine Keeps.get_bind fun shell inState => ?_
        refine (Keeps.ask (forks shell inState program List.mem_cons_self _)).bind fun reply => ?_
        have later := inductionHypothesis fun shell inState words membership =>
          forks shell inState words (List.mem_cons_of_mem _ membership)
        split
        · exact (complain_keeps plain _).bind fun _ => (closePipe_keeps plain _).bind fun _ =>
            (closeEnd_keeps plain source).bind fun _ => .done _
        · exact (closeEnd_keeps plain _).bind fun _ => (closeEnd_keeps plain source).bind fun _ =>
            later _ _

/-- A pipeline of several stages changes nothing and never fails: what its stages do is done in
other processes. -/
theorem runPipeline_joined_keeps {stages : Pipeline} (joined : stages.length ≠ 1)
    (waits : ∀ pid, conduct.call (.wait pid))
    (forks : ∀ shell, conduct.state shell → ∀ words ∈ stages, ∀ wiring,
      conduct.call (.fork (.stage words wiring shell))) : (runPipeline stages).Keeps conduct := by
  unfold runPipeline
  split
  · simp at joined
  · refine (startStages_keeps plain forks none []).bind fun started => ?_
    split
    · exact .done _
    · exact (reapQuietlyEach_keeps plain waits _).bind fun _ =>
        (waitChild_keeps plain waits _).bind fun _ => .done _

theorem startJob_keeps {command : Command}
    (forks : ∀ shell, conduct.state shell → conduct.call (.fork (.job command shell)))
    (tracks : ∀ shell jobs, conduct.change shell { shell with jobs := jobs }) :
    (startJob command).Keeps conduct := by
  refine Keeps.get_bind fun shell inState => (Keeps.ask (forks shell inState)).bind fun reply => ?_
  split
  · exact (Keeps.modify fun shell => tracks shell _).bind fun _ => say_keeps plain _
  · exact complain_keeps plain _

theorem forkEach_keeps {name : String} {body : Script} {values : List String}
    (forks : ∀ shell, conduct.state shell → conduct.call (.fork (.iteration body shell)))
    (binds : ∀ value ∈ values, ∀ shell, conduct.change shell (shell.setVariable name (some value)))
    (pids : List Pid) : (forkEach name body pids values).Keeps conduct := by
  induction values generalizing pids with
  | nil => exact .done _
  | cons value values inductionHypothesis =>
      refine (Keeps.modify (binds value List.mem_cons_self)).bind fun _ => ?_
      refine Keeps.get_bind fun shell inState =>
        (Keeps.ask (forks shell inState)).bind fun reply => ?_
      split
      · exact inductionHypothesis
          (fun value membership => binds value (List.mem_cons_of_mem _ membership)) _
      · exact (complain_keeps plain _).bind fun _ => .done _

theorem runAtOnce_keeps {name : String} {body : Script} {values : List String}
    (waits : ∀ pid, conduct.call (.wait pid))
    (forks : ∀ shell, conduct.state shell → conduct.call (.fork (.iteration body shell)))
    (binds : ∀ value ∈ values, ∀ shell,
      conduct.change shell (shell.setVariable name (some value))) :
    (runAtOnce name body values).Keeps conduct :=
  (forkEach_keeps plain forks binds []).bind fun _ =>
    (waitEach_keeps plain waits _ _).bind fun _ => .done _

end Processes

/-! What the shell does itself. -/

section Builtins

variable (plain : ∀ call : Call, call.Plain → conduct.call call)

include plain

theorem printEach_keeps (fails : ∀ failure, conduct.failure (.stream failure))
    (lines : List String) :
    (Builtin.printEach lines).Keeps conduct := by
  induction lines with
  | nil => exact .done ()
  | cons line lines inductionHypothesis =>
      refine Keeps.bind ?_ fun _ => inductionHypothesis
      refine (Keeps.ask (plain _ (by trivial))).bind fun reply => ?_
      split
      · exact .done ()
      · exact .fail (fails _)

theorem changeDirectory_keeps
    (fails : ∀ cause, (∀ code, cause ≠ .exit code) → conduct.failure cause)
    (moves : ∀ shell value, conduct.change shell (shell.setVariable "PWD" value))
    (arguments : List String) :
    (Builtin.changeDirectory arguments).Keeps conduct := by
  refine Keeps.get.bind fun shell => ?_
  refine Keeps.bind ?_ fun path => (Keeps.ask (plain _ (by trivial))).bind fun reply => ?_
  · unfold Builtin.cdTarget
    split
    · exact .done _
    · split
      · exact .done _
      · exact .fail (fails _ (by simp))
  · split
    · exact .fail (fails _ (by simp))
    · refine (Keeps.ask (plain _ (by trivial))).bind fun place => ?_
      split
      · exact .fail (fails _ (by simp))
      · exact .modify fun shell => moves shell _

theorem perform_keeps (fails : ∀ cause, (∀ code, cause ≠ .exit code) → conduct.failure cause)
    (moves : ∀ shell value, conduct.change shell (shell.setVariable "PWD" value))
    (builtin : Builtin) (arguments : List String)
    (exits : builtin = .exit → conduct.failure (.exit 0)) :
    (builtin.perform arguments).Keeps conduct := by
  cases builtin with
  | exit => exact .fail (exits rfl)
  | cd => exact changeDirectory_keeps plain fails moves arguments
  | jobs => exact Keeps.get.bind fun shell => printEach_keeps plain (fun _ => fails _ (by simp)) _
  | help => exact printEach_keeps plain (fun _ => fails _ (by simp)) _

theorem builtin_keeps (moves : ∀ shell value, conduct.change shell (shell.setVariable "PWD" value))
    (exits : ∀ code, conduct.failure (.exit code)) (arguments : List String) :
    (Builtin.run arguments).Keeps conduct := by
  -- The failures of a command become statuses, so that any of them may happen inside.
  refine Keeps.bind (.attempt fun shell inState => ?_) fun outcome => ?_
  · suffices performs :
        Routine.Keeps conduct.lenient _ from (performs shell inState).imp fun _ kept => kept.1
    split
    · exact @perform_keeps conduct.lenient plain (fun _ _ => trivial) moves _ _ fun _ => trivial
    · exact .fail trivial
  · split
    · exact .done _
    · exact .fail (exits _)
    · exact (complain_keeps plain _).bind fun _ => .done _

end Builtins

/-- A conduct leaves room for what tasks do, as long as they are admitted. -/
structure Conduct.Allows (conduct : Conduct) (admits : Task → Prop) : Prop where
  hereditary : ∀ {part whole : Task}, part.Part whole → admits whole → admits part
  plain : ∀ call : Call, call.Plain → conduct.call call
  waits : ∀ pid, conduct.call (.wait pid)
  forks : ∀ {task : Task}, admits task → ∀ shell, conduct.state shell →
    ∀ child, task.Forks shell child → conduct.call (.fork child)
  /-- Where programs take the place of the process, it may end. -/
  inPlace : ∀ shell, conduct.state shell → shell.flags.inPlace = true →
    ∀ arguments code, conduct.call (.replace arguments) ∧ conduct.call (.exit code)
  status : ∀ shell status, conduct.change shell (shell.setStatus status)
  jobs : ∀ shell jobs, conduct.change shell { shell with jobs := jobs }
  bindings : ∀ {task : Task} {name : String} {value : Option String}, admits task →
    task.Binds name value →
    ∀ shell, conduct.change shell (shell.setVariable name value)
  directory : ∀ shell value, conduct.change shell (shell.setVariable "PWD" value)
  exit : ∀ code, conduct.failure (.exit code)

namespace Conduct.Allows

variable {admits : Task → Prop} (allows : conduct.Allows admits)

include allows

theorem program {words : Program} (admitted : admits (.program words)) :
    (runProgram words).Keeps conduct := by
  refine Keeps.get_bind fun shell inState => ?_
  have forks : conduct.call (.fork (.program (Expansion.arguments shell.store words))) :=
    allows.forks admitted shell inState _ rfl
  revert forks
  cases Expansion.arguments shell.store words with
  | nil => exact fun _ => .done _
  | cons name rest =>
      intro forks
      dsimp only
      split
      · exact builtin_keeps allows.plain allows.directory allows.exit _
      · split
        · next replaced =>
            have ends := allows.inPlace shell inState replaced
            exact (Keeps.lift (becomeProgram_only allows.plain ends)).bind fun never =>
              nomatch never
        · refine (Keeps.ask forks).bind fun reply => ?_
          split
          · exact waitChild_keeps allows.plain allows.waits _
          · exact (complain_keeps allows.plain _).bind fun _ => .done _

theorem joined {stages : Pipeline} (joined : stages.length ≠ 1)
    (admitted : admits (.pipeline stages)) :
    (runPipeline stages).Keeps conduct := by
  refine runPipeline_joined_keeps allows.plain joined allows.waits ?_
  intro shell inState words membership wiring
  exact allows.forks admitted shell inState _ ⟨words, membership, wiring, rfl⟩

theorem settle {routine : Routine Int} (keeps : routine.Keeps conduct) :
    (settleStatement routine).Keeps conduct := by
  have settles (status : Int) : (do
      Routine.modify fun shell => shell.setStatus status
      pure status : Routine Int).Keeps conduct :=
    (Keeps.modify fun shell => allows.status shell status).bind fun _ => .done status
  refine (Keeps.attempt fun shell inState => (keeps shell inState).imp fun _ kept => kept.1).bind
    fun outcome => ?_
  split
  · exact settles _
  · exact .fail (allows.exit _)
  · exact (complain_keeps allows.plain _).bind fun _ => settles _

/-- To keep to such a conduct is a discipline. -/
def discipline : Discipline admits where
  holds routine := routine.Keeps conduct
  hereditary := allows.hereditary
  done := Keeps.done
  bind := Keeps.bind
  get := Keeps.get
  settle := allows.settle
  set admitted binds := Keeps.modify fun shell => allows.bindings admitted (binds shell) shell
  job admitted :=
    startJob_keeps allows.plain (fun shell inState => allows.forks admitted shell inState _ rfl)
      allows.jobs
  atOnce store admitted :=
    runAtOnce_keeps allows.plain allows.waits
      (fun shell inState => allows.forks admitted shell inState _ rfl)
      fun value membership => allows.bindings admitted ⟨rfl, store, value, membership, rfl⟩
  joined := allows.joined
  program := allows.program

/-- All tasks that are admitted keep to a conduct that allows what they do. -/
theorem task (task : Task) (admitted : admits task) : task.run.Keeps conduct :=
  allows.discipline.task task admitted

end Conduct.Allows

theorem Bounds.exits_allows : Bounds.exits.conduct.Allows fun _ => True where
  hereditary _ _ := trivial
  plain _ _ := trivial
  waits _ := trivial
  forks _ _ _ _ _ := trivial
  inPlace _ _ _ _ _ := ⟨trivial, trivial⟩
  status _ _ := trivial
  jobs _ _ := trivial
  bindings _ _ _ := trivial
  directory _ _ := trivial
  exit code := ⟨code, rfl⟩

theorem runScript_exits (dump : Bool) (script : Script) :
    (runScript dump script).Within .exits := by
  have runs : script.run.Within .exits := (Bounds.exits_allows.task script.task trivial).within
  unfold runScript
  split
  · exact (Routine.Within.complain _).bind fun _ => runs
  · exact runs

end CommandShell
