import CommandShell.Proofs.Shell.Reach

/-!
The range of a status. It is the code that a process ended with, the number of a failure, or one of
a few constants; if the operating system gives codes and numbers as it should, all of them lie
between `-1` and 255.
-/

namespace CommandShell

namespace Action

variable {Call : Type} {Reply : Call → Type} {α β : Type}
  {expected : (call : Call) → Reply call → Prop}

/-- Whether all the results that work can have, as long as replies are as expected, are of a
kind. -/
def Under (expected : (call : Call) → Reply call → Prop) (holds : α → Prop) :
    Action Call Reply α → Prop
  | .done result => holds result
  | .ask call _ next => ∀ reply, expected call reply → (next reply).Under expected holds

theorem under_bind {action : Action Call Reply α} {next : α → Action Call Reply β}
    {holds : β → Prop} :
    (action.bind next).Under expected holds ↔
      action.Under expected fun result => (next result).Under expected holds := by
  induction action with
  | done result => rfl
  | ask call again rest inductionHypothesis => simp only [ask_bind, Under, inductionHypothesis]

theorem Under.imp {action : Action Call Reply α} {holds holds' : α → Prop}
    (under : action.Under expected holds) (weaker : ∀ result, holds result → holds' result) :
    action.Under expected holds' := by
  induction action with
  | done result => exact weaker result under
  | ask call again next inductionHypothesis =>
      exact fun reply regular => inductionHypothesis reply (under reply regular)

theorem Always.under {action : Action Call Reply α} {holds : α → Prop}
    (always : action.Always holds) :
    action.Under expected holds := by
  induction action with
  | done result => exact always
  | ask call again next inductionHypothesis =>
      exact fun reply _ => inductionHypothesis reply (always reply)

end Action

/-- A number that the operating system has for an error. -/
def Errno.Regular (errno : Errno) : Prop := 1 ≤ errno.number ∧ errno.number ≤ 255

def StreamFailure.Regular : StreamFailure → Prop
  | .system errno => errno.Regular
  | .custom _ => True

/-- Processes end with codes, and calls fail with numbers, that an operating system has. -/
def Event.Regular : Event → Prop
  | ⟨.wait _, .ok (.exited _ code)⟩ => 0 ≤ code ∧ code ≤ 255
  | ⟨.wait _, .error errno⟩ => errno.Regular
  | ⟨.fork _, .error errno⟩ => errno.Regular
  | ⟨.openPipe, .error errno⟩ => errno.Regular
  | ⟨.duplicate _ _, .error errno⟩ => errno.Regular
  | ⟨.startSession, .error errno⟩ => errno.Regular
  | ⟨.replace _, errno⟩ => errno.Regular
  | ⟨.changeDirectory _, .error errno⟩ => errno.Regular
  | ⟨.write _ _, .error failure⟩ => failure.Regular
  | ⟨.currentDirectory, .error failure⟩ => failure.Regular
  | ⟨.readFile _, .error failure⟩ => failure.Regular
  | ⟨.readInput, .error failure⟩ => failure.Regular
  | _ => True

theorem Work.Leads.of_under {α : Type} {work : Work α} {expected : Event → Prop} {holds : α → Prop}
    {events : List Event} {result : α} (leads : Work.Leads work events result)
    (under : work.Under (fun call reply => expected ⟨call, reply⟩) holds)
    (regular : ∀ event ∈ events, expected event) : holds result := by
  induction work generalizing events with
  | done value =>
      obtain ⟨_, rfl⟩ := leads
      exact under
  | ask call again next inductionHypothesis =>
      obtain ⟨first, second, reply, rfl, gets, leads⟩ := leads
      refine inductionHypothesis reply leads (under reply (regular _ ?_)) ?_
      · exact List.mem_append_left second gets.mem
      · intro event membership
        exact regular event (List.mem_append_right first membership)

/-- The numbers that a status can be. -/
def Status.InRange (status : Int) : Prop := -1 ≤ status ∧ status ≤ 255

instance (status : Int) : Decidable (Status.InRange status) := inferInstanceAs (Decidable (_ ∧ _))

theorem Status.inRange_success : InRange success := by decide

/-- A result of a kind, or a failure whose number can be a status. -/
def Sound {α : Type} (result : α → Prop) : Except Fault α → Prop
  | .ok value => result value
  | .error cause => Status.InRange cause.number

/-- As long as replies are regular, all that a routine comes to is sound. -/
def Routine.Yields {α : Type} (routine : Routine α) (result : α → Prop) : Prop :=
  ∀ shell, (routine shell).Under (fun call reply => Event.Regular ⟨call, reply⟩) fun outcome =>
    Sound result outcome.1

namespace Routine.Yields

variable {α β : Type} {result : α → Prop} {routine : Routine α}

theorem done {value : α} (holds : result value) : (pure value : Routine α).Yields result :=
  fun _ => holds

theorem fail {cause : Fault} (inRange : Status.InRange cause.number) :
    (Routine.fail cause : Routine α).Yields result := fun _ => inRange

theorem bind {next : α → Routine β} {result' : β → Prop} (yields : routine.Yields result)
    (later : ∀ value, result value → (next value).Yields result') :
    (routine >>= next).Yields result' := by
  intro shell
  refine Action.under_bind.mpr ((yields shell).imp ?_)
  rintro ⟨outcome, shell'⟩ sound
  cases outcome with
  | error cause => exact sound
  | ok value => exact later value sound shell'

theorem get_bind {next : Shell → Routine α} (later : ∀ shell, (next shell).Yields result) :
    (Routine.get >>= next).Yields result :=
  fun shell => later shell shell

theorem modify_bind {change : Shell → Shell} {next : Unit → Routine α}
    (later : (next ()).Yields result) :
    (Routine.modify change >>= next).Yields result :=
  fun shell => later (change shell)

theorem attempt (yields : routine.Yields result) : routine.attempt.Yields (Sound result) := by
  intro shell
  exact Action.under_bind.mpr ((yields shell).imp fun _ sound => sound)

theorem ask (call : Call) : (Routine.ask call).Yields fun reply => Event.Regular ⟨call, reply⟩ :=
  fun _ _ regular => regular

theorem of_keeps (keeps : routine.Keeps (Bounds.failing fun _ => False).conduct) :
    routine.Yields fun _ => True := by
  intro shell
  refine (keeps.within shell).under.imp ?_
  rintro ⟨outcome, shell'⟩ ⟨_, failed⟩
  cases outcome with
  | ok value => trivial
  | error cause => exact absurd rfl (failed cause)

end Routine.Yields

open Routine (Yields)

/-! Statuses that come of processes. -/

theorem waitFor_yields (pid : Pid) :
    (Routine.waitFor pid).Yields fun reply => Event.Regular ⟨.wait pid, reply⟩ :=
  fun _ _ regular => regular

theorem complain_yields (line : String) : (Routine.complain line).Yields fun _ => True :=
  .of_keeps (complain_keeps (fun _ _ => trivial) line)

theorem waitChild_yields (pid : Pid) : (Routine.waitChild pid).Yields Status.InRange := by
  refine (waitFor_yields pid).bind fun reply regular => ?_
  split
  · next status =>
    cases status with
    | exited pid code =>
        have range : 0 ≤ code ∧ code ≤ 255 := regular
        exact .done ⟨Int.le_trans (by decide) range.1, range.2⟩
    | signaled pid signal core =>
        have tells : (Routine.say ("Child " ++ toString pid ++ " terminated by signal " ++
            toString signal)).Yields fun _ => True := .of_keeps (say_keeps (fun _ _ => trivial) _)
        exact tells.bind fun _ _ => .done (by decide)
    | _ => exact .done (by decide)
  · exact (complain_yields _).bind fun _ _ => .done (by decide)

theorem waitEach_yields {status : Int} (inRange : Status.InRange status) (pids : List Pid) :
    (waitEach status pids).Yields Status.InRange := by
  induction pids generalizing status with
  | nil => exact .done inRange
  | cons pid pids inductionHypothesis =>
      exact (waitChild_yields pid).bind fun status inRange => inductionHypothesis inRange

theorem runAtOnce_yields (name : String) (body : Script) (values : List String) :
    (runAtOnce name body values).Yields Status.InRange := by
  have starts : (forkEach name body [] values).Yields fun _ => True :=
    .of_keeps (forkEach_keeps (fun _ _ => trivial) (fun _ _ => trivial) (fun _ _ _ => trivial) [])
  refine starts.bind fun started _ => (waitEach_yields (by decide) _).bind fun status inRange => ?_
  split
  · exact .done inRange
  · exact .done (by decide)

theorem runPipeline_joined_yields {stages : Pipeline} (joined : stages.length ≠ 1) :
    (runPipeline stages).Yields Status.InRange := by
  unfold runPipeline
  split
  · simp at joined
  · have starts : (startStages none [] stages).Yields fun _ => True :=
      .of_keeps (startStages_keeps (fun _ _ => trivial) (fun _ _ _ _ _ => trivial) none [])
    refine starts.bind fun started _ => ?_
    split
    · exact .done (by decide)
    · next last others _ =>
      have reaps : (reapQuietlyEach others.reverse).Yields fun _ => True :=
        .of_keeps (reapQuietlyEach_keeps (fun _ _ => trivial) (fun _ => trivial) _)
      refine reaps.bind fun _ _ => (waitChild_yields last).bind fun status inRange => ?_
      split
      · exact .done inRange
      · exact .done (by decide)

/-! Statuses that come of failures. -/

theorem Errno.Regular.inRange {errno : Errno} (regular : errno.Regular) :
    Status.InRange errno.number :=
  ⟨Int.le_trans (by decide) regular.1, regular.2⟩

theorem StreamFailure.Regular.inRange {failure : StreamFailure} (regular : failure.Regular) :
    Status.InRange failure.number := by
  cases failure with
  | system errno => exact Errno.Regular.inRange regular
  | custom text =>
      have number : Status.InRange Errno.inputOutput.number := by decide
      exact number

theorem printEach_yields (lines : List String) :
    (Builtin.printEach lines).Yields fun _ => True := by
  induction lines with
  | nil => exact .done trivial
  | cons line lines inductionHypothesis =>
      have prints : (Routine.print line).Yields fun _ => True := by
        refine (Yields.ask _).bind fun reply regular => ?_
        split
        · exact .done trivial
        · exact .fail (StreamFailure.Regular.inRange regular)
      exact prints.bind fun _ _ => inductionHypothesis

theorem changeDirectory_yields (arguments : List String) :
    (Builtin.changeDirectory arguments).Yields fun _ => True := by
  refine Yields.get_bind fun shell => ?_
  have aims : (Routine.ofExcept (Builtin.cdTarget arguments shell.store)).Yields fun _ => True := by
    unfold Builtin.cdTarget
    split
    · exact .done trivial
    · split
      · exact .done trivial
      · exact .fail (by decide)
  refine aims.bind fun path _ => (Yields.ask _).bind fun reply regular => ?_
  split
  · exact .fail (Errno.Regular.inRange regular)
  · refine (Yields.ask _).bind fun place regular => ?_
    split
    · exact .fail (StreamFailure.Regular.inRange regular)
    · exact fun _ => trivial

theorem perform_yields (builtin : Builtin) (arguments : List String) :
    (builtin.perform arguments).Yields fun _ => True := by
  cases builtin with
  | exit => exact .fail (by decide)
  | cd => exact changeDirectory_yields arguments
  | jobs => exact .get_bind fun shell => printEach_yields _
  | help => exact printEach_yields _

theorem settle_yields {name : String} {routine : Routine Unit}
    (yields : routine.Yields fun _ => True) :
    (Builtin.settle name routine).Yields Status.InRange := by
  refine yields.attempt.bind fun outcome sound => ?_
  split
  · exact .done (by decide)
  · exact .fail sound
  · exact (complain_yields _).bind fun _ _ => .done sound

theorem builtin_yields (arguments : List String) :
    (Builtin.run arguments).Yields Status.InRange := by
  refine settle_yields ?_
  split
  · exact perform_yields _ arguments
  · have number : Status.InRange Errno.invalidArgument.number := by decide
    exact .fail number

theorem runProgram_yields (program : Program) : (runProgram program).Yields Status.InRange := by
  refine Yields.get_bind fun shell => ?_
  cases Expansion.arguments shell.store program with
  | nil => exact .done (by decide)
  | cons name rest =>
      dsimp only
      split
      · exact builtin_yields _
      · split
        · have never : (Routine.lift (becomeProgram (name :: rest))).Yields fun _ => True :=
            .of_keeps
              (.lift (becomeProgram_only (fun _ _ => trivial) fun _ _ => ⟨trivial, trivial⟩))
          exact never.bind fun value _ => nomatch value
        · refine (Yields.ask _).bind fun reply _ => ?_
          split
          · exact waitChild_yields _
          · exact (complain_yields _).bind fun _ _ => .done (by decide)

theorem settleStatement_yields {routine : Routine Int} (yields : routine.Yields Status.InRange) :
    (settleStatement routine).Yields Status.InRange := by
  refine yields.attempt.bind fun outcome sound => ?_
  split
  · exact .modify_bind (.done sound)
  · exact .fail sound
  · exact (complain_yields _).bind fun _ _ => .modify_bind (.done sound)

/-! Tasks. -/

/-- The status that a task has to begin with is one. -/
def Task.InRange : Task → Prop
  | .statements status _ => Status.InRange status
  | .rounds _ _ status _ => Status.InRange status
  | _ => True

theorem Task.yields (task : Task) (inRange : task.InRange) : task.run.Yields Status.InRange := by
  induction task using Task.induction with
  | nil status =>
      rw [run, runStatements]
      exact .done inRange
  | cons status statement statements first later =>
      rw [run, runStatements]
      exact (first trivial).bind fun status inRange => later status inRange
  | background command =>
      rw [run, runStatement, if_pos rfl]
      have starts : (startJob command).Yields fun _ => True :=
        .of_keeps (startJob_keeps (fun _ _ => trivial) (fun _ _ => trivial) fun _ _ => trivial)
      exact starts.bind fun _ _ => .done (by decide)
  | foreground command inner =>
      rw [run, runStatement]
      exact settleStatement_yields (inner trivial)
  | simple stages inner | conditional _ _ inner =>
      rw [run, runCommand]
      exact inner trivial
  | assignment name value =>
      rw [run, runCommand]
      exact .modify_bind (.done (by decide))
  | parallel binder values body =>
      rw [run, runCommand]
      exact .get_bind fun shell => runAtOnce_yields _ _ _
  | sequential binder values body inner =>
      rw [run, runCommand]
      exact .get_bind fun shell => inner shell.store Status.inRange_success
  | nothing =>
      rw [run, runBranches, runFallback]
      exact .done (by decide)
  | fallback body inner =>
      rw [run, runBranches, runFallback]
      exact inner Status.inRange_success
  | branch test body branches fallback inTest inBody later =>
      rw [run, runBranches]
      refine (inTest trivial).bind fun status _ => ?_
      split
      · exact inBody Status.inRange_success
      · exact later trivial
  | finished name body status => exact .done inRange
  | round name body status value values inBody later =>
      exact .modify_bind ((inBody Status.inRange_success).bind fun status inRange =>
        later status inRange)
  | single program inner => exact inner trivial
  | joined stages joined => exact runPipeline_joined_yields joined
  | program program => exact runProgram_yields program

theorem Task.inRange_of_leads {task : Task} {shell shell' : Shell} {events : List Event}
    {status : Int} (leads : task.run.Leads shell events (.ok status) shell')
    (inRange : task.InRange) (regular : ∀ event ∈ events, event.Regular) :
    Status.InRange status := by
  have run : Work.Leads (task.run shell) events (.ok status, shell') := leads
  exact run.of_under (task.yields inRange shell) regular

end CommandShell
