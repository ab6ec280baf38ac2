import CommandShell.Proofs.Shell.Conduct
import CommandShell.Proofs.Shell.Trace
import Mathlib.Data.Finset.Basic

/-!
An account of the children of a process: which processes it has started and not waited for yet, told
from the calls it makes and the replies it gets. The replies are taken to be those of an operating
system that knows the children: it never gives the number of one to a new process, and a wait for
one tells how it ended or is interrupted.
-/

namespace CommandShell

/-- The process has ended, so that it cannot be waited for again. -/
def WaitStatus.ended : WaitStatus → Bool
  | .exited _ _ => true
  | .signaled _ _ _ => true
  | _ => false

namespace Event

/-- The children behind an event. -/
def after (children : Finset Pid) : Event → Finset Pid
  | ⟨.fork _, .ok pid⟩ => insert pid children
  | ⟨.wait pid, .ok status⟩ => if status.ended then children.erase pid else children
  | _ => children

/-- The reply is one that an operating system gives. -/
def Lawful (children : Finset Pid) : Event → Prop
  | ⟨.fork _, .ok pid⟩ => pid ∉ children
  | ⟨.wait pid, reply⟩ =>
    pid ∈ children → reply = .error .interrupted ∨ ∃ status, reply = .ok status ∧
      status.ended = true
  | _ => True

/-- A wait is for one of the children. -/
def Careful (children : Finset Pid) : Event → Prop
  | ⟨.wait pid, _⟩ => pid ∈ children
  | _ => True

/-- The start of a job. -/
def tracked? : Event → Option Pid
  | ⟨.fork (.job _ _), .ok pid⟩ => some pid
  | _ => none

/-- The start of a process that is no job. -/
def started? : Event → Option Pid
  | ⟨.fork (.job _ _), _⟩ => none
  | ⟨.fork _, .ok pid⟩ => some pid
  | _ => none

/-- A wait that tells how a process ended. -/
def reaped? : Event → Option Pid
  | ⟨.wait pid, .ok status⟩ => if status.ended then some pid else none
  | _ => none

end Event

/-- The children behind some events. -/
def childrenAfter (children : Finset Pid) (events : List Event) : Finset Pid :=
  events.foldl Event.after children

/-- Each event is as it should be for the children that there are before it. -/
def Along (holds : Finset Pid → Event → Prop) : Finset Pid → List Event → Prop
  | _, [] => True
  | children, event :: events => holds children event ∧ Along holds (event.after children) events

theorem childrenAfter_append (children : Finset Pid) (first second : List Event) :
    childrenAfter children (first ++ second) =
      childrenAfter (childrenAfter children first) second :=
  List.foldl_append

theorem along_append {holds : Finset Pid → Event → Prop} {children : Finset Pid}
    {first second : List Event} :
    Along holds children (first ++ second) ↔
      Along holds children first ∧ Along holds (childrenAfter children first) second := by
  induction first generalizing children with
  | nil => simp [Along, childrenAfter]
  | cons event first inductionHypothesis =>
      simp only [List.cons_append, Along, inductionHypothesis, childrenAfter, List.foldl_cons,
        and_assoc]

/-- The processes that were started for what is done in the foreground, those that were kept as
jobs, and those that were waited for, in order. -/
structure Tally where
  started : List Pid := []
  tracked : List Pid := []
  reaped : List Pid := []

instance : Append Tally where
  append first second :=
    ⟨first.started ++ second.started, first.tracked ++ second.tracked,
      first.reaped ++ second.reaped⟩

@[simp]
theorem Tally.mk_append (started tracked reaped started' tracked' reaped' : List Pid) :
    Tally.mk started tracked reaped ++ Tally.mk started' tracked' reaped' =
      ⟨started ++ started', tracked ++ tracked', reaped ++ reaped'⟩ := rfl

@[simp]
theorem Tally.append_empty (tally : Tally) : tally ++ {} = tally := by
  obtain ⟨started, tracked, reaped⟩ := tally
  simp

/-- Only children are waited for on the way, and these are the children and the tally in the end. -/
structure Tallies (children : Finset Pid) (events : List Event) (children' : Finset Pid)
    (tally : Tally) :
    Prop where
  careful : Along Event.Careful children events
  after : childrenAfter children events = children'
  started : events.filterMap Event.started? = tally.started
  tracked : events.filterMap Event.tracked? = tally.tracked
  reaped : events.filterMap Event.reaped? = tally.reaped

namespace Tallies

variable {children children' children'' : Finset Pid} {first second : List Event}
  {tally tally' : Tally}

theorem nil (children : Finset Pid) : Tallies children [] children {} :=
  ⟨trivial, rfl, rfl, rfl, rfl⟩

theorem append (tallies : Tallies children first children' tally)
    (later : Tallies children' second children'' tally') :
    Tallies children (first ++ second) children'' (tally ++ tally') where
  careful := along_append.mpr ⟨tallies.careful, tallies.after ▸ later.careful⟩
  after := by rw [childrenAfter_append, tallies.after, later.after]
  started := by rw [List.filterMap_append, tallies.started, later.started]; rfl
  tracked := by rw [List.filterMap_append, tallies.tracked, later.tracked]; rfl
  reaped := by rw [List.filterMap_append, tallies.reaped, later.reaped]; rfl

theorem plain {event : Event} (plain : event.call.Plain) :
    Tallies children [event] children {} := by
  obtain ⟨call, reply⟩ := event
  cases call with
  | fork | wait | replace | exit => contradiction
  | _ => exact ⟨⟨trivial, trivial⟩, rfl, rfl, rfl, rfl⟩

theorem plains {events : List Event} (plains : ∀ event ∈ events, event.call.Plain) :
    Tallies children events children {} := by
  induction events with
  | nil => exact nil children
  | cons event events inductionHypothesis =>
      have first : Tallies children [event] children {} := plain (plains event List.mem_cons_self)
      have later :=
        inductionHypothesis fun event membership => plains event (List.mem_cons_of_mem _ membership)
      exact first.append later

end Tallies

/-! What routines come to, if the replies are lawful. -/

theorem Call.Gets.call_eq {call : Call} {again : call.Reply → Bool} {events : List Event}
    {reply : call.Reply} (gets : call.Gets again events reply) :
    ∀ event ∈ events, event.call = call := by
  induction gets with
  | last => simp
  | more _ _ inductionHypothesis =>
      intro event membership
      rcases List.mem_cons.mp membership with rfl | later
      · rfl
      · exact inductionHypothesis event later

theorem Work.Leads.allowed {α : Type} {work : Work α} {events : List Event} {result : α}
    {allowed : Call → Prop} {holds : α → Prop} (leads : Work.Leads work events result)
    (only : Work.Only allowed holds work) : ∀ event ∈ events, allowed event.call := by
  induction work generalizing events with
  | done value =>
      obtain ⟨rfl, _⟩ := leads
      simp
  | ask call again next inductionHypothesis =>
      obtain ⟨first, second, reply, rfl, gets, later⟩ := leads
      intro event membership
      rcases List.mem_append.mp membership with before | behind
      · rw [gets.call_eq event before]
        exact only.1
      · rcases only.2 reply with givesUp | only
        · exact absurd later givesUp.not_leads
        · exact inductionHypothesis reply later only event behind

/-- Calls that have to do with no process, and no change to the jobs. -/
def Conduct.idle (failure : Fault → Prop) : Conduct where
  state _ := True
  call := Call.Plain
  change first second := second.jobs = first.jobs
  failure := failure
  refl _ := rfl
  trans first second := second.trans first
  state_of_change _ _ := trivial

namespace Routine

variable {α β : Type}

/-- A routine never fails, and comes to a result of a kind. The law is what is known of the replies
it gets. -/
def Comes (law : Finset Pid → Event → Prop) (children : Finset Pid) (shell : Shell)
    (routine : Routine α) (post : α → Shell → Finset Pid → Tally → Prop) : Prop :=
  ∀ events outcome shell', routine.Leads shell events outcome shell' → Along law children events →
    ∃ value children' tally, outcome = .ok value ∧ Tallies children events children' tally ∧
      post value shell' children' tally

namespace Comes

variable {law : Finset Pid → Event → Prop} {children : Finset Pid} {shell : Shell}

theorem done {value : α} {post : α → Shell → Finset Pid → Tally → Prop}
    (holds : post value shell children {}) :
    (pure value : Routine α).Comes law children shell post := by
  intro events outcome shell' leads _
  obtain ⟨rfl, rfl, rfl⟩ := leads_pure.mp leads
  exact ⟨value, children, {}, rfl, .nil children, holds⟩

theorem imp {routine : Routine α} {post post' : α → Shell → Finset Pid → Tally → Prop}
    (comes : routine.Comes law children shell post)
    (weaker : ∀ value shell' children' tally, post value shell' children' tally →
      post' value shell' children' tally) : routine.Comes law children shell post' := by
  intro events outcome shell' leads lawful
  obtain ⟨value, children', tally, same, tallies, holds⟩ := comes events outcome shell' leads lawful
  exact ⟨value, children', tally, same, tallies, weaker value shell' children' tally holds⟩

theorem bind {routine : Routine α} {next : α → Routine β}
    {post : β → Shell → Finset Pid → Tally → Prop}
    (comes : routine.Comes law children shell fun value middle children' tally =>
      (next value).Comes law children' middle fun result shell' children'' tally' =>
        post result shell' children'' (tally ++ tally')) :
    (routine >>= next).Comes law children shell post := by
  intro events outcome shell' leads lawful
  rcases leads_bind.mp leads with
      ⟨first, second, value, middle, rfl, ran, later⟩ | ⟨cause, failed, _⟩
  · obtain ⟨lawful, lawful'⟩ := along_append.mp lawful
    obtain ⟨value', children', tally, same, tallies, rest⟩ := comes first _ middle ran lawful
    obtain rfl := Except.ok.inj same
    obtain rfl := tallies.after
    obtain ⟨result, children'', tally', rfl, tallies', holds⟩ :=
      rest second outcome shell' later lawful'
    exact ⟨result, children'', tally ++ tally', rfl, tallies.append tallies', holds⟩
  · obtain ⟨_, _, _, same, _⟩ := comes events _ shell' failed lawful
    cases same

theorem ask {call : Call} {post : call.Reply → Shell → Finset Pid → Tally → Prop}
    (holds : ∀ reply, law children ⟨call, reply⟩ →
      ∃ children' tally, Tallies children [⟨call, reply⟩] children' tally ∧
        post reply shell children' tally) :
    (Routine.ask call).Comes law children shell post := by
  intro events outcome shell' leads lawful
  obtain ⟨reply, rfl, rfl, rfl⟩ := leads_ask.mp leads
  obtain ⟨children', tally, tallies, holds⟩ := holds reply lawful.1
  exact ⟨reply, children', tally, rfl, tallies, holds⟩

theorem idle {routine : Routine α} {post : α → Shell → Finset Pid → Tally → Prop}
    (keeps : routine.Keeps (.idle fun _ => False))
    (holds : ∀ value shell', shell'.jobs = shell.jobs → post value shell' children {}) :
    routine.Comes law children shell post := by
  intro events outcome shell' leads _
  have run : Work.Leads (routine shell) events (outcome, shell') := leads
  have kept := run.of_always (keeps shell trivial).always
  cases outcome with
  | ok value =>
      exact ⟨value, children, {}, rfl, .plains (run.allowed (keeps shell trivial)),
        holds value shell' kept.1⟩
  | error cause => exact (kept.2 cause rfl).elim

end Comes

end Routine

end CommandShell
