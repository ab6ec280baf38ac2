import CommandShell.Proofs.Shell.Trace

/-!
Runs of routines that neither fail nor change the state of the shell. Among them are the waits for
processes, one after the other: the order in which the processes end is not seen, since each wait is
for one of them, and what comes of it depends on nothing but the reply to that wait.
-/

namespace CommandShell

namespace Routine

variable {α β : Type}

/-- Begun in a state, the routine never fails and leaves the state as it is, and its runs are those
of a course. -/
def Runs (routine : Routine α) (shell : Shell) (course : List Event → α → Prop) : Prop :=
  ∀ events outcome shell', routine.Leads shell events outcome shell' ↔
    ∃ value, course events value ∧ outcome = .ok value ∧ shell' = shell

namespace Runs

variable {routine : Routine α} {shell : Shell} {course : List Event → α → Prop}

theorem done (value : α) :
    (pure value : Routine α).Runs shell fun events result => events = [] ∧ result = value := by
  intro events outcome shell'
  rw [leads_pure]
  constructor
  · rintro ⟨rfl, rfl, rfl⟩
    exact ⟨value, ⟨rfl, rfl⟩, rfl, rfl⟩
  · rintro ⟨_, ⟨rfl, rfl⟩, rfl, rfl⟩
    exact ⟨rfl, rfl, rfl⟩

theorem ask (call : Call) :
    (Routine.ask call).Runs shell fun events reply => events = [⟨call, reply⟩] := by
  intro events outcome shell'
  exact leads_ask

theorem write (stream : Stream) (text : String) :
    (lift (Work.write stream text)).Runs shell fun events _ =>
      ∃ reply, events = [⟨.write stream text, reply⟩] := by
  intro events outcome shell'
  rw [leads_write]
  constructor
  · rintro ⟨written, rfl, rfl⟩
    exact ⟨(), written, rfl, rfl⟩
  · rintro ⟨_, written, rfl, rfl⟩
    exact ⟨written, rfl, rfl⟩

theorem tell (stream : Stream) (text : String) :
    (lift (Work.tell stream text)).Runs shell fun events _ =>
      events = [⟨.write stream text, .ok ()⟩] := by
  intro events outcome shell'
  rw [leads_tell]
  constructor
  · rintro ⟨rfl, rfl, rfl⟩
    exact ⟨(), rfl, rfl, rfl⟩
  · rintro ⟨_, rfl, rfl, rfl⟩
    exact ⟨rfl, rfl, rfl⟩

theorem leads_bind {next : α → Routine β} {events : List Event} {outcome : Except Fault β}
    {shell' : Shell} (runs : routine.Runs shell course) :
    (routine >>= next).Leads shell events outcome shell' ↔
      ∃ first rest value, events = first ++ rest ∧ course first value ∧
        (next value).Leads shell rest outcome shell' := by
  rw [Routine.leads_bind]
  constructor
  · rintro (⟨first, rest, value, middle, rfl, ran, later⟩ | ⟨cause, failed, rfl⟩)
    · obtain ⟨_, own, same, rfl⟩ := (runs first _ middle).mp ran
      obtain rfl := Except.ok.inj same
      exact ⟨first, rest, value, rfl, own, later⟩
    · obtain ⟨_, _, impossible, _⟩ := (runs events _ shell').mp failed
      cases impossible
  · rintro ⟨first, rest, value, rfl, own, later⟩
    exact Or.inl ⟨first, rest, value, shell, rfl, (runs first _ shell).mpr ⟨value, own, rfl, rfl⟩,
      later⟩

theorem bind {next : α → Routine β} (runs : routine.Runs shell course)
    (course' : α → List Event → β → Prop)
    (later : ∀ value, (next value).Runs shell (course' value)) :
    (routine >>= next).Runs shell fun events result => ∃ first rest value, events = first ++ rest ∧
      course first value ∧ course' value rest result := by
  intro events outcome shell'
  rw [runs.leads_bind]
  constructor
  · rintro ⟨first, rest, value, rfl, own, ran⟩
    obtain ⟨result, own', rfl, rfl⟩ := (later value rest outcome shell').mp ran
    exact ⟨result, ⟨first, rest, value, rfl, own, own'⟩, rfl, rfl⟩
  · rintro ⟨result, ⟨first, rest, value, rfl, own, own'⟩, rfl, rfl⟩
    exact ⟨first, rest, value, rfl, own, (later value rest _ shell').mpr ⟨result, own', rfl, rfl⟩⟩

theorem congr {course' : List Event → α → Prop} (runs : routine.Runs shell course)
    (same : ∀ events value, course events value ↔ course' events value) :
    routine.Runs shell course' := by
  intro events outcome shell'
  simp only [runs events outcome shell', same]

end Runs

end Routine

/-- The status that the reply to a wait stands for. -/
def statusOfReply : Except Errno WaitStatus → Int
  | .ok (.exited _ code) => code
  | _ => Status.failure

/-- What is written about the reply to a wait. -/
def noticeOfWait : Except Errno WaitStatus → Option (Stream × String)
  | .ok (.signaled pid signal _) =>
    some (.output, "Child " ++ toString pid ++ " terminated by signal " ++ toString signal ++ "\n")
  | .error errno => some (.errors, "waitpid: " ++ errno.report ++ "\n")
  | _ => none

/-- What is written about the reply to a wait if the end of the process does not matter. -/
def noticeOfReaping : Except Errno WaitStatus → Option (Stream × String)
  | .error errno => some (.errors, "waitpid: " ++ errno.report ++ "\n")
  | _ => none

/-- The events in which a text is written, if there is one. -/
def Notes : Option (Stream × String) → List Event → Prop
  | none, events => events = []
  | some (stream, text), events => events = [⟨.write stream text, .ok ()⟩]

/-- The events in which a process cannot be had, and this is said. -/
def forkFails (child : Child) (errno : Errno) : List Event :=
  [⟨.fork child, .error errno⟩, ⟨.write .errors ("fork: " ++ errno.report ++ "\n"), .ok ()⟩]

/-- The events of a wait, up to the reply that is not an interruption, and of what is written about
it. -/
def Waits (notice : Except Errno WaitStatus → Option (Stream × String)) (pid : Pid)
    (events : List Event) (reply : Except Errno WaitStatus) : Prop :=
  ∃ first second, events = first ++ second ∧
    (Call.wait pid).Gets Routine.wasInterrupted first reply ∧
    Notes (notice reply) second

/-- The events of waits for processes in order. -/
inductive WaitsEach (notice : Except Errno WaitStatus → Option (Stream × String)) :
    List Pid → List Event → List (Except Errno WaitStatus) → Prop where
  | nil : WaitsEach notice [] [] []
  | cons {pid : Pid} {pids : List Pid} {first second : List Event} {reply : Except Errno WaitStatus}
      {replies : List (Except Errno WaitStatus)} (waits : Waits notice pid first reply)
      (later : WaitsEach notice pids second replies) :
      WaitsEach notice (pid :: pids) (first ++ second) (reply :: replies)

namespace Routine

variable {shell : Shell}

theorem waitFor_runs (pid : Pid) :
    (waitFor pid).Runs shell fun events reply =>
      (Call.wait pid).Gets wasInterrupted events reply := by
  intro events outcome shell'
  refine leads_lift.trans ?_
  constructor
  · rintro ⟨reply, ⟨first, second, reply', rfl, gets, rfl, rfl⟩, rfl, rfl⟩
    exact ⟨reply', by simpa using gets, rfl, rfl⟩
  · rintro ⟨reply, gets, rfl, rfl⟩
    exact ⟨reply, ⟨events, [], reply, by simp, gets, rfl, rfl⟩, rfl, rfl⟩

theorem silent_runs {α : Type} (value : α) :
    (pure value : Routine α).Runs shell fun events result => Notes none events ∧ result = value :=
  .done value

theorem telling_runs {α : Type} (stream : Stream) (text : String) (value : α) :
    (lift (Work.tell stream text) >>= fun _ => pure value).Runs shell
      fun events result => Notes (some (stream, text)) events ∧ result = value := by
  refine ((Runs.tell stream text).bind _ fun _ => .done value).congr ?_
  intro events result
  constructor
  · rintro ⟨_, _, _, rfl, rfl, rfl, rfl⟩
    exact ⟨rfl, rfl⟩
  · rintro ⟨rfl, rfl⟩
    exact ⟨[⟨.write stream text, .ok ()⟩], [], (), rfl, rfl, rfl, rfl⟩

theorem waitChild_runs (pid : Pid) :
    (waitChild pid).Runs shell fun events status =>
      ∃ reply, Waits noticeOfWait pid events reply ∧ status = statusOfReply reply := by
  refine ((waitFor_runs pid).bind (fun reply events status =>
    Notes (noticeOfWait reply) events ∧ status = statusOfReply reply) fun reply => ?_).congr ?_
  · rcases reply with errno | status
    · exact telling_runs _ _ _
    · cases status with
      | signaled pid signal core => exact telling_runs _ _ _
      | _ => exact silent_runs _
  · intro events status
    constructor
    · rintro ⟨first, second, reply, rfl, gets, notes, rfl⟩
      exact ⟨reply, ⟨first, second, rfl, gets, notes⟩, rfl⟩
    · rintro ⟨reply, ⟨first, second, rfl, gets, notes⟩, rfl⟩
      exact ⟨first, second, reply, rfl, gets, notes, rfl⟩

theorem reapQuietly_runs (pid : Pid) :
    (reapQuietly pid).Runs shell fun events _ => ∃ reply,
      Waits noticeOfReaping pid events reply := by
  refine ((waitFor_runs pid).bind (fun reply events _ => Notes (noticeOfReaping reply) events)
    fun reply => ?_).congr ?_
  · rcases reply with errno | status
    · exact .tell _ _
    · exact (Runs.done ()).congr fun events _ => by simp [noticeOfReaping, Notes]
  · intro events _
    constructor
    · rintro ⟨first, second, reply, rfl, gets, notes⟩
      exact ⟨reply, first, second, rfl, gets, notes⟩
    · rintro ⟨reply, first, second, rfl, gets, notes⟩
      exact ⟨first, second, reply, rfl, gets, notes⟩

end Routine

/-- The status of the last of some waits, or the given one if there is none. -/
def lastStatus (status : Int) (replies : List (Except Errno WaitStatus)) : Int :=
  (replies.getLast?.map statusOfReply).getD status

theorem lastStatus_cons (status : Int) (reply : Except Errno WaitStatus)
    (replies : List (Except Errno WaitStatus)) :
    lastStatus status (reply :: replies) = lastStatus (statusOfReply reply) replies := by
  cases replies with
  | nil => rfl
  | cons next replies => simp [lastStatus, List.getLast?_cons]

theorem waitEach_runs {shell : Shell} (status : Int) (pids : List Pid) :
    (waitEach status pids).Runs shell fun events result =>
      ∃ replies, WaitsEach noticeOfWait pids events replies ∧
        result = lastStatus status replies := by
  induction pids generalizing status with
  | nil =>
      refine (Routine.Runs.done status).congr ?_
      intro events result
      constructor
      · rintro ⟨rfl, rfl⟩
        exact ⟨[], .nil, rfl⟩
      · rintro ⟨_, ⟨⟩, rfl⟩
        exact ⟨rfl, rfl⟩
  | cons pid pids inductionHypothesis =>
      refine ((Routine.waitChild_runs pid).bind _ inductionHypothesis).congr ?_
      intro events result
      constructor
      · rintro ⟨first, second, _, rfl, ⟨reply, waits, rfl⟩, replies, later, rfl⟩
        exact ⟨reply :: replies, .cons waits later, (lastStatus_cons ..).symm⟩
      · rintro ⟨_, waitsEach, rfl⟩
        cases waitsEach with
        | cons waits later => exact ⟨_, _, _, rfl, ⟨_, waits, rfl⟩, _, later, lastStatus_cons ..⟩

theorem reapQuietlyEach_runs {shell : Shell} (pids : List Pid) :
    (reapQuietlyEach pids).Runs shell fun events _ =>
      ∃ replies, WaitsEach noticeOfReaping pids events replies := by
  induction pids with
  | nil =>
      refine (Routine.Runs.done ()).congr ?_
      intro events _
      constructor
      · rintro ⟨rfl, _⟩
        exact ⟨[], .nil⟩
      · rintro ⟨_, ⟨⟩⟩
        exact ⟨rfl, rfl⟩
  | cons pid pids inductionHypothesis =>
      refine ((Routine.reapQuietly_runs pid).bind _ fun _ => inductionHypothesis).congr ?_
      intro events _
      constructor
      · rintro ⟨first, second, _, rfl, ⟨reply, waits⟩, replies, later⟩
        exact ⟨reply :: replies, .cons waits later⟩
      · rintro ⟨_, waitsEach⟩
        cases waitsEach with
        | cons waits later => exact ⟨_, _, (), rfl, ⟨_, waits⟩, _, later⟩

end CommandShell
