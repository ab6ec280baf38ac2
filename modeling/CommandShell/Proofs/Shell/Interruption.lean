import CommandShell.Proofs.Shell.Runs
import CommandShell.Proofs.Shell.Settled
import Mathlib.Data.Finset.Lattice.Lemmas

/-!
Waits that are interrupted. Each child has a fate: so many waits for it are interrupted, and the
next one tells how it ended. Who waits for a process in the foreground waits again, until it has
ended. The jobs are waited for only once each when the shell ends, so that one whose first wait is
interrupted is lost: nothing is said of how it ended, and it is left behind as a child.
-/

namespace CommandShell

/-- The way in which a process ends. -/
inductive Fate.Ending where
  | exited (code : Int)
  | signaled (signal : Int) (core : Bool)
  deriving DecidableEq, Repr

namespace Fate.Ending

def status (pid : Pid) : Ending → WaitStatus
  | exited code => .exited pid code
  | signaled signal core => .signaled pid signal core

/-- The line that says how a job ended. -/
def line (pid : Pid) : Ending → String
  | exited code => "Child " ++ toString pid ++ " exited with status " ++ toString code ++ "\n"
  | signaled signal _ =>
      "Child " ++ toString pid ++ " terminated by signal " ++ toString signal ++ "\n"

theorem ended_status (pid : Pid) (ending : Fate.Ending) : (ending.status pid).ended = true := by
  cases ending <;> rfl

end Fate.Ending

/-- What the waits for a process are answered with. -/
structure Fate where
  interruptions : Nat
  ending : Fate.Ending
  deriving DecidableEq, Repr

namespace Fate

variable {pid : Pid} {fate : Fate} {reply : Except Errno WaitStatus}

def replies (pid : Pid) (fate : Fate) : List (Except Errno WaitStatus) :=
  List.replicate fate.interruptions (.error .interrupted) ++ [.ok (fate.ending.status pid)]

def firstReply (pid : Pid) (fate : Fate) : Except Errno WaitStatus :=
  if fate.interruptions = 0 then .ok (fate.ending.status pid) else .error .interrupted

theorem singleton_prefix_replies : [reply] <+: fate.replies pid ↔ reply = fate.firstReply pid := by
  rw [replies, firstReply]
  cases fate.interruptions with
  | zero => simp
  | succ count => simp [List.replicate_succ]

theorem mem_replies (membership : reply ∈ fate.replies pid) :
    reply = .error .interrupted ∨ reply = .ok (fate.ending.status pid) := by
  rw [replies, List.mem_append, List.mem_singleton] at membership
  exact membership.imp_left List.eq_of_mem_replicate

end Fate

namespace Event

def ofWait (pid : Pid) (reply : Except Errno WaitStatus) : Event := ⟨.wait pid, reply⟩

/-- The reply to a wait for the process. -/
def replyFor? (pid : Pid) : Event → Option (Except Errno WaitStatus)
  | ⟨.wait other, reply⟩ => if other = pid then some reply else none
  | _ => none

@[simp]
theorem replyFor?_ofWait (pid other : Pid) (reply : Except Errno WaitStatus) :
    (ofWait pid reply).replyFor? other = if pid = other then some reply else none := rfl

theorem waited?_of_replyFor? {pid : Pid} {event : Event} {reply : Except Errno WaitStatus}
    (answered : event.replyFor? pid = some reply) : event.waited? = some pid := by
  obtain ⟨call, other⟩ := event
  cases call with
  | wait process =>
      obtain ⟨rfl, -⟩ := (Option.ite_none_right_eq_some).mp answered
      rfl
  | _ => contradiction

@[simp]
theorem waited?_ofWait (pid : Pid) (reply : Except Errno WaitStatus) :
    (ofWait pid reply).waited? = some pid := rfl

def written? : Event → Option (Stream × String)
  | ⟨.write stream text, _⟩ => some (stream, text)
  | _ => none

@[simp]
theorem written?_ofWait (pid : Pid) (reply : Except Errno WaitStatus) :
    (ofWait pid reply).written? = none := rfl

end Event

/-- The waits for children are answered as their fates say. -/
def Follows (fates : Pid → Fate) (children : Finset Pid) (events : List Event) : Prop :=
  ∀ pid ∈ children, events.filterMap (Event.replyFor? pid) <+: (fates pid).replies pid

/-- There is a run in which the waits are answered so, and each of them comes to a result of a
kind. -/
def Routine.Finishes {α : Type} (fates : Pid → Fate) (children : Finset Pid) (shell : Shell)
    (routine : Routine α) (post : α → Shell → List Event → Prop) : Prop :=
  (∃ events outcome shell', routine.Leads shell events outcome shell' ∧
    Follows fates children events) ∧
    ∀ events outcome shell', routine.Leads shell events outcome shell' →
      Follows fates children events →
      ∃ value, outcome = .ok value ∧ post value shell' events

variable {fates : Pid → Fate} {children : Finset Pid} {shell : Shell} {pid : Pid}

namespace Routine

variable {α : Type} {routine : Routine α}

theorem Finishes.imp {post post' : α → Shell → List Event → Prop}
    (finishes : routine.Finishes fates children shell post)
    (weaker : ∀ value shell' events, post value shell' events → post' value shell' events) :
    routine.Finishes fates children shell post' := by
  refine ⟨finishes.1, fun events outcome shell' leads follows => ?_⟩
  obtain ⟨value, same, holds⟩ := finishes.2 events outcome shell' leads follows
  exact ⟨value, same, weaker value shell' events holds⟩

theorem Runs.finishes {course : List Event → α → Prop} {post : α → Shell → List Event → Prop}
    (runs : routine.Runs shell course)
    (some : ∃ events value, course events value ∧ Follows fates children events)
    (all : ∀ events value, course events value → Follows fates children events →
      post value shell events) :
    routine.Finishes fates children shell post := by
  constructor
  · obtain ⟨events, value, own, follows⟩ := some
    exact ⟨events, .ok value, shell, (runs events _ shell).mpr ⟨value, own, rfl, rfl⟩, follows⟩
  · intro events outcome shell' leads follows
    obtain ⟨value, own, rfl, rfl⟩ := (runs events outcome shell').mp leads
    exact ⟨value, rfl, all events value own follows⟩

end Routine

/-! What is written between the waits has nothing to do with them. -/

namespace Notes

variable {notice : Option (Stream × String)} {events : List Event}

theorem exists_events (notice : Option (Stream × String)) : ∃ events, Notes notice events := by
  match notice with
  | none => exact ⟨[], rfl⟩
  | some (stream, text) => exact ⟨[⟨.write stream text, .ok ()⟩], rfl⟩

theorem written (notes : Notes notice events) :
    events.filterMap Event.written? = notice.toList := by
  match notice, notes with
  | none, notes =>
      obtain rfl : events = [] := notes
      rfl
  | some (stream, text), notes =>
      obtain rfl : events = [⟨.write stream text, .ok ()⟩] := notes
      rfl

theorem eq_write (notes : Notes notice events) {event : Event} (membership : event ∈ events) :
    ∃ stream text, event = ⟨.write stream text, .ok ()⟩ := by
  match notice, notes with
  | none, notes =>
      obtain rfl : events = [] := notes
      exact absurd membership List.not_mem_nil
  | some (stream, text), notes =>
      obtain rfl : events = [⟨.write stream text, .ok ()⟩] := notes
      exact ⟨stream, text, List.mem_singleton.mp membership⟩

theorem plain (notes : Notes notice events) : ∀ event ∈ events, event.call.Plain := by
  intro event membership
  obtain ⟨_, _, rfl⟩ := notes.eq_write membership
  exact trivial

theorem replyFor? (notes : Notes notice events) (pid : Pid) :
    events.filterMap (Event.replyFor? pid) = [] := by
  refine List.filterMap_eq_nil_iff.mpr fun event membership => ?_
  obtain ⟨_, _, rfl⟩ := notes.eq_write membership
  rfl

theorem waited? (notes : Notes notice events) : events.filterMap Event.waited? = [] := by
  refine List.filterMap_eq_nil_iff.mpr fun event membership => ?_
  obtain ⟨_, _, rfl⟩ := notes.eq_write membership
  rfl

end Notes

/-! Waiting until a process has ended. -/

section Waits

variable {notice : Except Errno WaitStatus → Option (Stream × String)} {events : List Event}
  {reply : Except Errno WaitStatus}

theorem Follows.mem_replies (follows : Follows fates children events) (own : pid ∈ children)
    (membership : ⟨.wait pid, reply⟩ ∈ events) : reply ∈ (fates pid).replies pid :=
  (follows pid own).subset (List.mem_filterMap.mpr ⟨_, membership, if_pos rfl⟩)

theorem along_of_forall {holds : Finset Pid → Event → Prop}
    (all : ∀ event ∈ events, ∀ children, holds children event) : Along holds children events := by
  induction events generalizing children with
  | nil => exact trivial
  | cons event events inductionHypothesis =>
      exact ⟨all event List.mem_cons_self children,
        inductionHypothesis fun other membership =>
          all other (List.mem_cons_of_mem event membership)⟩

theorem Waits.ends (waits : Waits notice pid events reply) (own : pid ∈ children)
    (follows : Follows fates children events) :
    reply = .ok ((fates pid).ending.status pid) ∧ events.filterMap Event.written? =
      (notice reply).toList ∧
      Tallies children events (children.erase pid) { reaped := [pid] } := by
  obtain ⟨first, second, rfl, gets, notes⟩ := waits
  have answered {other : Except Errno WaitStatus} (membership : ⟨.wait pid, other⟩ ∈ first) :=
    Fate.mem_replies (follows.mem_replies own (List.mem_append_left second membership))
  have lawful : Along Event.Lawful children first := by
    refine along_of_forall fun event membership children => ?_
    obtain ⟨call, other⟩ := event
    obtain rfl : call = .wait pid := gets.call_eq _ membership
    exact fun _ => (answered membership).imp_right fun same =>
      ⟨_, same, Fate.Ending.ended_status pid _⟩
  have quiet : first.filterMap Event.written? = [] := by
    refine List.filterMap_eq_nil_iff.mpr fun event membership => ?_
    obtain ⟨call, other⟩ := event
    obtain rfl : call = .wait pid := gets.call_eq _ membership
    rfl
  refine ⟨?_, ?_, ?_⟩
  -- A reply that is taken is no interruption, and of the replies that a fate has only the last one
  -- is none.
  · rcases answered gets.mem with rfl | same
    · exact absurd gets.settled (by decide)
    · exact same
  · rw [List.filterMap_append, quiet, notes.written, List.nil_append]
  · exact (gets.tallies_wait own lawful).2.append (.plains notes.plain)

theorem gets_replies (pid : Pid) (fate : Fate) :
    (Call.wait pid).Gets Routine.wasInterrupted ((fate.replies pid).map (Event.ofWait pid))
      (Except.ok (fate.ending.status pid)) := by
  obtain ⟨count, ending⟩ := fate
  induction count with
  | zero => exact .last rfl
  | succ count inductionHypothesis => exact .more rfl inductionHypothesis

theorem filterMap_replyFor? (pid other : Pid) (replies : List (Except Errno WaitStatus)) :
    (replies.map (Event.ofWait pid)).filterMap (Event.replyFor? other) =
      if pid = other then replies else [] := by
  rw [List.filterMap_map]
  split
  · next same =>
      subst same
      simp [Function.comp_def]
  · next different => simp [different]

theorem exists_waits (fates : Pid → Fate) (children : Finset Pid)
    (notice : Except Errno WaitStatus → Option (Stream × String)) (pid : Pid) :
    ∃ events, Waits notice pid events (.ok ((fates pid).ending.status pid)) ∧
      Follows fates children events := by
  obtain ⟨notes, noted⟩ := Notes.exists_events (notice (.ok ((fates pid).ending.status pid)))
  refine ⟨_, ⟨_, notes, rfl, gets_replies pid (fates pid), noted⟩, fun other _ => ?_⟩
  rw [List.filterMap_append, noted.replyFor?, List.append_nil, filterMap_replyFor?]
  split
  · next same => exact same ▸ List.prefix_rfl
  · exact List.nil_prefix

end Waits

/-! The jobs are waited for once each. -/

/-- What is written about the reply to the wait for a job. -/
def noticeOfJob : Except Errno WaitStatus → Option (Stream × String)
  | .ok (.exited pid code) =>
    some (.output, "Child " ++ toString pid ++ " exited with status " ++ toString code ++ "\n")
  | reply => noticeOfWait reply

theorem noticeOfJob_firstReply (pid : Pid) (fate : Fate) :
    noticeOfJob (fate.firstReply pid) =
      some (if fate.interruptions = 0 then (.output, fate.ending.line pid)
        else (.errors, "waitpid: EINTR: Interrupted system call\n")) := by
  rw [Fate.firstReply]
  split
  · cases fate.ending <;> rfl
  · rfl

/-- The events of single waits for jobs in order, and of what is written about each reply. -/
inductive ReapsEach : List Pid → List Event → List (Except Errno WaitStatus) → Prop where
  | nil : ReapsEach [] [] []
  | cons {pid : Pid} {pids : List Pid} {first second : List Event} {reply : Except Errno WaitStatus}
      {replies : List (Except Errno WaitStatus)} (notes : Notes (noticeOfJob reply) first)
      (later : ReapsEach pids second replies) :
      ReapsEach (pid :: pids) (.ofWait pid reply :: (first ++ second)) (reply :: replies)

theorem reapJob_runs (pid : Pid) :
    (Routine.reapJob pid).Runs shell fun events _ =>
      ∃ reply notes, events = .ofWait pid reply :: notes ∧ Notes (noticeOfJob reply) notes := by
  refine ((Routine.Runs.ask (.wait pid)).bind
    (fun reply events _ => Notes (noticeOfJob reply) events)
    fun reply => ?_).congr ?_
  · rcases reply with errno | status
    · exact .tell _ _
    · cases status with
      | exited => exact .tell _ _
      | signaled => exact .tell _ _
      | _ =>
          refine (Routine.Runs.done ()).congr fun events _ => ?_
          simp [noticeOfJob, noticeOfWait, Notes]
  · intro events _
    constructor
    · rintro ⟨_, notes, reply, rfl, rfl, noted⟩
      exact ⟨reply, notes, rfl, noted⟩
    · rintro ⟨reply, notes, rfl, noted⟩
      exact ⟨_, notes, reply, rfl, rfl, noted⟩

theorem reapEach_runs (pids : List Pid) :
    (Routine.reapEach pids).Runs shell fun events _ => ∃ replies,
      ReapsEach pids events replies := by
  induction pids with
  | nil =>
      refine (Routine.Runs.done ()).congr ?_
      intro events _
      constructor
      · rintro ⟨rfl, _⟩
        exact ⟨[], .nil⟩
      · rintro ⟨_, ⟨⟩⟩
        exact ⟨rfl, rfl⟩
  | cons pid pids inductionHypothesis =>
      refine ((reapJob_runs pid).bind _ fun _ => inductionHypothesis).congr ?_
      intro events _
      constructor
      · rintro ⟨_, second, _, rfl, ⟨reply, notes, rfl, noted⟩, replies, later⟩
        exact ⟨reply :: replies, .cons noted later⟩
      · rintro ⟨_, reapsEach⟩
        cases reapsEach with
        | cons noted later => exact ⟨_, _, (), rfl, ⟨_, _, rfl, noted⟩, _, later⟩

theorem reapAll_leads {events : List Event} {outcome : Except Fault Unit} {shell' : Shell} :
    Routine.reapAll.Leads shell events outcome shell' ↔
      (∃ replies, ReapsEach shell.jobs.pids events replies) ∧ outcome = .ok () ∧
        shell' = { shell with jobs := .empty } := by
  rw [Routine.reapAll_eq, Routine.leads_get_bind]
  refine Routine.leads_modify_bind.trans
    ((reapEach_runs shell.jobs.pids events outcome shell').trans ?_)
  constructor
  · rintro ⟨_, reaps, rfl, rfl⟩
    exact ⟨reaps, rfl, rfl⟩
  · rintro ⟨reaps, rfl, rfl⟩
    exact ⟨(), reaps, rfl, rfl⟩

theorem exists_reapsEach (pids : List Pid) (answer : Pid → Except Errno WaitStatus) :
    ∃ events, ReapsEach pids events (pids.map answer) := by
  induction pids with
  | nil => exact ⟨[], .nil⟩
  | cons pid pids inductionHypothesis =>
      obtain ⟨second, later⟩ := inductionHypothesis
      obtain ⟨first, notes⟩ := Notes.exists_events (noticeOfJob (answer pid))
      exact ⟨_, .cons notes later⟩

theorem filterMap_replyFor?_eq_nil {events : List Event}
    (unasked : pid ∉ events.filterMap Event.waited?) :
    events.filterMap (Event.replyFor? pid) = [] := by
  refine List.filterMap_eq_nil_iff.mpr fun event membership =>
    Option.eq_none_iff_forall_ne_some.mpr ?_
  intro reply answered
  exact unasked (List.mem_filterMap.mpr ⟨event, membership, Event.waited?_of_replyFor? answered⟩)

theorem follows_wait_iff {notice : Option (Stream × String)} {reply : Except Errno WaitStatus}
    {first second : List Event} (own : pid ∈ children) (notes : Notes notice first)
    (once : pid ∉ second.filterMap Event.waited?) :
    Follows fates children (.ofWait pid reply :: (first ++ second)) ↔
      reply = (fates pid).firstReply pid ∧ Follows fates children second := by
  have quiet := filterMap_replyFor?_eq_nil once
  have replies (other : Pid) :
      (Event.ofWait pid reply :: (first ++ second)).filterMap (Event.replyFor? other) =
        (if pid = other then [reply] else []) ++ second.filterMap (Event.replyFor? other) := by
    rw [← filterMap_replyFor? pid other [reply], List.map_singleton, ← List.singleton_append,
      List.filterMap_append, List.filterMap_append, notes.replyFor?, List.nil_append]
  constructor
  · intro follows
    refine ⟨?_, fun other membership => ?_⟩
    · have first := follows pid own
      rw [replies, if_pos rfl, quiet, List.append_nil] at first
      exact Fate.singleton_prefix_replies.mp first
    · by_cases same : pid = other
      · rw [← same, quiet]
        exact List.nil_prefix
      · have others := follows other membership
        rwa [replies, if_neg same, List.nil_append] at others
  · rintro ⟨rfl, follows⟩ other membership
    rw [replies]
    split
    · next same =>
        subst same
        rw [quiet, List.append_nil]
        exact Fate.singleton_prefix_replies.mpr rfl
    · exact follows other membership

/-- The processes whose first wait is not interrupted. -/
def unhindered (fates : Pid → Fate) (pids : List Pid) : List Pid :=
  pids.filter fun pid => (fates pid).interruptions = 0

/-- The wait ends the process as a child unless it is interrupted. -/
theorem tallies_firstReply (own : pid ∈ children) :
    Tallies children [.ofWait pid ((fates pid).firstReply pid)]
      (children \ (unhindered fates [pid]).toFinset) { reaped := unhindered fates [pid] } := by
  rw [Fate.firstReply]
  split
  · next prompt =>
      have ends :
          Tallies children [.ofWait pid (.ok ((fates pid).ending.status pid))] (children.erase pid)
          { reaped := [pid] } := .wait own (Fate.Ending.ended_status pid _)
      simpa [unhindered, prompt, Finset.sdiff_singleton_eq_erase] using ends
  · next interrupted =>
      have stays : Tallies children [.ofWait pid (.error .interrupted)] children {} :=
        ⟨⟨own, trivial⟩, rfl, rfl, rfl, rfl⟩
      simpa [unhindered, interrupted] using stays

namespace ReapsEach

variable {pids : List Pid} {events : List Event} {replies : List (Except Errno WaitStatus)}

theorem waited (reaps : ReapsEach pids events replies) : events.filterMap Event.waited? = pids := by
  induction reaps with
  | nil => rfl
  | cons notes later inductionHypothesis => simp [notes.waited?, inductionHypothesis]

theorem written (reaps : ReapsEach pids events replies) :
    events.filterMap Event.written? = replies.filterMap noticeOfJob := by
  induction reaps with
  | nil => rfl
  | cons notes later inductionHypothesis =>
      rw [List.filterMap_cons_none (Event.written?_ofWait ..), List.filterMap_append, notes.written,
        inductionHypothesis, List.filterMap_cons]
      split <;> simp [*]

theorem follows_iff (reaps : ReapsEach pids events replies) (distinct : pids.Nodup)
    (own : ∀ pid ∈ pids, pid ∈ children) :
    Follows fates children events ↔ replies = pids.map fun pid => (fates pid).firstReply pid := by
  induction reaps with
  | nil => simp [Follows]
  | cons notes later inductionHypothesis =>
      obtain ⟨new, rest⟩ := List.nodup_cons.mp distinct
      rw [follows_wait_iff (own _ List.mem_cons_self) notes (later.waited ▸ new),
        inductionHypothesis rest fun pid membership => own pid (List.mem_cons_of_mem _ membership),
        List.map_cons, List.cons.injEq]

theorem tallies (reaps : ReapsEach pids events (pids.map fun pid => (fates pid).firstReply pid))
    (distinct : pids.Nodup) (own : ∀ pid ∈ pids, pid ∈ children) :
    Tallies children events (children \ (unhindered fates pids).toFinset)
      { reaped := unhindered fates pids } := by
  induction pids generalizing children events with
  | nil =>
      cases reaps
      simpa [unhindered] using Tallies.nil children
  | cons pid pids inductionHypothesis =>
      cases reaps with
      | cons notes later =>
          have left : ∀ other ∈ pids, other ∈ children \ (unhindered fates [pid]).toFinset :=
            fun other membership => by
              have behind := mem_behind_wait distinct own other membership
              rw [unhindered, List.toFinset_filter]
              exact Finset.sdiff_subset_sdiff subset_rfl (Finset.filter_subset _ _) behind
          have whole := (tallies_firstReply (own pid List.mem_cons_self)).append
            ((Tallies.plains notes.plain).append (inductionHypothesis later distinct.of_cons left))
          have split : unhindered fates (pid :: pids) = unhindered fates [pid] ++
              unhindered fates pids :=
            List.filter_append [pid] pids
          rw [split, List.toFinset_append, ← Finset.sup_eq_union, ← sdiff_sdiff_left]
          exact whole

end ReapsEach

/-- The waits for children are interrupted any number of times. When the shell ends, each job is
waited for once, and the line about it says how it ended only if that wait was not interrupted. Else
the job is lost: it is not in the table any more, and it is still a child. To wait for it as for a
process in the foreground, or quietly, would have gone on until it ended. -/
theorem reapAll_interrupted {shell : Shell} (ordered : shell.jobs.Ordered) {children : Finset Pid}
    (own : ∀ pid ∈ shell.jobs.pids, pid ∈ children) (fates : Pid → Fate) :
    (Routine.reapAll.Finishes fates children shell fun _ shell' events =>
      shell' = { shell with jobs := .empty } ∧
      events.filterMap Event.waited? = shell.jobs.pids ∧
      events.filterMap Event.written? = shell.jobs.pids.map (fun pid =>
        if (fates pid).interruptions = 0 then (.output, (fates pid).ending.line pid)
        else (.errors, "waitpid: EINTR: Interrupted system call\n")) ∧
      ∀ pid, pid ∈ childrenAfter children events ↔
        pid ∈ children ∧ (pid ∈ shell.jobs.pids → (fates pid).interruptions ≠ 0)) ∧
    ∀ pid ∈ shell.jobs.pids,
      ((Routine.waitChild pid).Finishes fates children shell fun status shell' events =>
        shell' = shell ∧ status = statusOfReply (.ok ((fates pid).ending.status pid)) ∧
        events.filterMap Event.written? =
          (noticeOfWait (.ok ((fates pid).ending.status pid))).toList ∧
        childrenAfter children events = children.erase pid) ∧
      (Routine.reapQuietly pid).Finishes fates children shell fun _ shell' events =>
        shell' = shell ∧ events.filterMap Event.written? = [] ∧
        childrenAfter children events = children.erase pid := by
  refine ⟨⟨?_, ?_⟩, fun pid membership => ⟨?_, ?_⟩⟩
  · obtain ⟨events, reaps⟩ := exists_reapsEach shell.jobs.pids fun pid => (fates pid).firstReply pid
    exact ⟨events, .ok (), _, reapAll_leads.mpr ⟨⟨_, reaps⟩, rfl, rfl⟩,
      (reaps.follows_iff ordered.nodup own).mpr rfl⟩
  · intro events outcome shell' leads follows
    obtain ⟨⟨replies, reaps⟩, rfl, rfl⟩ := reapAll_leads.mp leads
    obtain rfl := (reaps.follows_iff ordered.nodup own).mp follows
    refine ⟨(), rfl, rfl, reaps.waited, ?_, fun pid => ?_⟩
    · rw [reaps.written, List.filterMap_map]
      simp [noticeOfJob_firstReply]
    · rw [(reaps.tallies ordered.nodup own).after]
      simp [unhindered]
  · refine (Routine.waitChild_runs pid).finishes ?_ ?_
    · obtain ⟨events, waits, follows⟩ := exists_waits fates children noticeOfWait pid
      exact ⟨events, _, ⟨_, waits, rfl⟩, follows⟩
    · rintro events _ ⟨reply, waits, rfl⟩ follows
      obtain ⟨rfl, written, tallies⟩ := waits.ends (own pid membership) follows
      exact ⟨rfl, rfl, written, tallies.after⟩
  · refine (Routine.reapQuietly_runs pid).finishes ?_ ?_
    · obtain ⟨events, waits, follows⟩ := exists_waits fates children noticeOfReaping pid
      exact ⟨events, (), ⟨_, waits⟩, follows⟩
    · rintro events _ ⟨reply, waits⟩ follows
      obtain ⟨rfl, written, tallies⟩ := waits.ends (own pid membership) follows
      exact ⟨rfl, written, tallies.after⟩

/-- One job is interrupted twice and lost, and the other one is reported. -/
theorem reapAll_interrupted_twice :
    let shell : Shell := { Shell.start {} [] with jobs := ⟨[7, 9]⟩ }
    let fates : Pid → Fate := fun pid => if pid = 7 then ⟨2, .exited 0⟩ else ⟨0, .signaled 15 false⟩
    shell.jobs.Ordered ∧
    (Routine.reapAll.Finishes fates {7, 9} shell fun _ shell' events =>
      shell'.jobs = .empty ∧
      events.filterMap Event.written? = [(.errors, "waitpid: EINTR: Interrupted system call\n"),
        (.output, "Child 9 terminated by signal 15\n")] ∧
      childrenAfter {7, 9} events = {7}) ∧
    (Routine.reapQuietly 7).Finishes fates {7, 9} shell fun _ _ events =>
      childrenAfter {7, 9} events = {9} := by
  intro shell fates
  have ordered : shell.jobs.Ordered := by simp [shell, Jobs.Ordered]
  have own : ∀ pid ∈ shell.jobs.pids, pid ∈ ({7, 9} : Finset Pid) := by decide
  obtain ⟨reaped, waited⟩ := reapAll_interrupted ordered own fates
  refine ⟨ordered, reaped.imp ?_, (waited 7 (by decide)).2.imp ?_⟩
  · rintro _ shell' events ⟨rfl, -, written, left⟩
    refine ⟨rfl, written, Finset.ext fun pid => (left pid).trans ?_⟩
    by_cases lost : pid = 7 <;> simp [shell, fates, lost]
  · rintro _ shell' events ⟨-, -, left⟩
    rw [left]
    decide

/-- It is not so that the jobs are reported and waited for whatever interrupts the waits. -/
theorem reapAll_interrupted_lost :
    let shell : Shell := { Shell.start {} [] with jobs := ⟨[7]⟩ }
    let fates : Pid → Fate := fun _ => ⟨1, .exited 0⟩
    ¬ Routine.reapAll.Finishes fates {7} shell fun _ _ events =>
      events.filterMap Event.written? = [(.output, "Child 7 exited with status 0\n")] ∧
      7 ∉ childrenAfter {7} events := by
  intro shell fates finishes
  have noted : Notes (noticeOfJob (.error .interrupted))
      [⟨.write .errors "waitpid: EINTR: Interrupted system call\n", .ok ()⟩] := rfl
  have reaps : ReapsEach [7] _ [.error .interrupted] := .cons noted .nil
  have follows : Follows fates {7} _ :=
    (reaps.follows_iff (List.nodup_singleton 7) (by simp)).mpr rfl
  obtain ⟨_, -, -, waited⟩ :=
    finishes.2 _ (.ok ()) _ (reapAll_leads.mpr ⟨⟨_, reaps⟩, rfl, rfl⟩) follows
  exact waited (Finset.mem_singleton_self 7)

end CommandShell
