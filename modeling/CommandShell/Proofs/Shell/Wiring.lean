import CommandShell.Proofs.Shell.Children
import CommandShell.Proofs.Shell.OpenFiles

/-!
How the stages of a pipeline are connected, if pipes and processes can be had, and what is left of
the pipeline if one of them cannot.
-/

namespace CommandShell

namespace Event

/-- A pipe or a process is asked for. -/
def Starts (event : Event) : Prop :=
  match event.call with
  | .openPipe | .fork _ => True
  | _ => False

/-- A pipe or a process cannot be had. -/
def Fails : Event → Prop
  | ⟨.openPipe, .error _⟩ | ⟨.fork _, .error _⟩ => True
  | _ => False

/-- A wait, or what is written about one. -/
def Waiting (event : Event) : Prop :=
  match event.call with
  | .wait _ | .write _ _ => True
  | _ => False

theorem Waiting.not_starts {event : Event} (waiting : event.Waiting) : ¬ event.Starts := by
  obtain ⟨call, reply⟩ := event
  cases call with
  | wait | write => exact id
  | _ => exact waiting.elim

theorem Waiting.after_eq {event : Event} (waiting : event.Waiting) (files : OpenFiles) :
    files.after event = files := by
  obtain ⟨call, reply⟩ := event
  cases call with
  | wait | write => rfl
  | _ => exact waiting.elim

theorem Fails.starts {event : Event} (fails : event.Fails) : event.Starts := by
  unfold Fails at fails
  split at fails
  · trivial
  · trivial
  · contradiction

theorem Fails.started? {event : Event} (fails : event.Fails) : event.started? = none := by
  unfold Fails at fails
  split at fails
  · rfl
  · next child _ => cases child <;> rfl
  · contradiction

theorem started?_of_not_starts {event : Event} (idle : ¬ event.Starts) : event.started? = none := by
  obtain ⟨call, reply⟩ := event
  cases call with
  | fork child => exact absurd trivial idle
  | _ => rfl

end Event

/-- The processes that were forked, in order. -/
def forked (events : List Event) : List Pid := events.filterMap Event.started?

theorem forked_append (first second : List Event) :
    forked (first ++ second) = forked first ++ forked second :=
  List.filterMap_append

theorem forked_of_not_starts {events : List Event} (idle : ∀ event ∈ events, ¬ event.Starts) :
    forked events = [] := by
  rw [forked, List.filterMap_eq_nil_iff]
  intro event membership
  exact Event.started?_of_not_starts (idle event membership)

theorem forked_of_fails {before after : List Event} {event : Event} (fails : event.Fails)
    (nothing : ∀ later ∈ after, ¬ later.Starts) :
    forked (before ++ event :: after) = forked before := by
  have none : forked (event :: after) = [] := by
    rw [forked, List.filterMap_cons_none fails.started?]
    exact forked_of_not_starts nothing
  rw [forked_append, none, List.append_nil]

theorem not_starts_of_mem_closings {descriptors : List Descriptor} :
    ∀ event ∈ closings descriptors, ¬ event.Starts := by
  intro event membership
  obtain ⟨descriptor, _, rfl⟩ := List.mem_map.mp membership
  exact id

theorem forked_closings (descriptors : List Descriptor) : forked (closings descriptors) = [] :=
  forked_of_not_starts not_starts_of_mem_closings

/-- The events in which the stages are started, beginning with one that reads from the given end;
the processes they are; and whether these are all. -/
inductive Launch (shell : Shell) :
    Option Descriptor → List Program → List Event → List Pid → Bool → Prop where
  | noPipe {source : Option Descriptor} {program following : Program} {programs : List Program}
      {errno : Errno} :
      Launch shell source (program :: following :: programs)
        (⟨.openPipe, .error errno⟩ :: ⟨.write .errors ("pipe: " ++ errno.report ++ "\n"), .ok ()⟩ ::
          closings source.toList) [] false
  | noProcess {source : Option Descriptor} {program following : Program} {programs : List Program}
      {pipe : Pipe} {errno : Errno} :
      Launch shell source (program :: following :: programs)
        (⟨.openPipe, .ok pipe⟩ :: forkFails (.stage program ⟨source, some pipe⟩ shell) errno ++
          closings (pipe.readEnd :: pipe.writeEnd :: source.toList)) [] false
  | noLast {source : Option Descriptor} {program : Program} {errno : Errno} :
      Launch shell source [program]
        (forkFails (.stage program ⟨source, none⟩ shell) errno ++ closings source.toList) [] false
  | last {source : Option Descriptor} {program : Program} {pid : Pid} :
      Launch shell source [program]
        (⟨.fork (.stage program ⟨source, none⟩ shell), .ok pid⟩ :: closings source.toList) [pid]
          true
  | next {source : Option Descriptor} {program following : Program} {programs : List Program}
      {pipe : Pipe} {pid : Pid} {rest : List Event} {pids : List Pid} {complete : Bool}
      (later : Launch shell (some pipe.readEnd) (following :: programs) rest pids complete) :
      Launch shell source (program :: following :: programs)
        (⟨.openPipe, .ok pipe⟩ :: ⟨.fork (.stage program ⟨source, some pipe⟩ shell), .ok pid⟩ ::
          closings (pipe.writeEnd :: source.toList) ++ rest) (pid :: pids) complete

section Runs

variable {shell : Shell}

theorem openPipe_runs_last :
    (openPipe true).Runs shell fun events reply => events = [] ∧ reply = .ok none :=
  .done (Except.ok none)

theorem openPipe_runs :
    (openPipe false).Runs shell fun events reply =>
      ∃ got : Except Errno Pipe, events = [⟨.openPipe, got⟩] ∧ reply = got.map some := by
  refine ((Routine.Runs.ask .openPipe).bind (fun got events reply =>
    events = [] ∧ reply = Except.map some got) fun got => ?_).congr ?_
  · rcases got with errno | pipe
    · exact .done (Except.error errno)
    · exact .done (Except.ok (some pipe))
  · intro events reply
    constructor
    · rintro ⟨_, _, got, rfl, rfl, rfl, rfl⟩
      exact ⟨got, rfl, rfl⟩
    · rintro ⟨got, rfl, rfl⟩
      exact ⟨_, [], got, rfl, rfl, rfl, rfl⟩

theorem closePipe_runs (pipe : Pipe) :
    (closePipe (some pipe)).Runs shell fun events _ =>
      events = closings [pipe.readEnd, pipe.writeEnd] := by
  refine ((Routine.Runs.ask (.close pipe.readEnd)).bind _ fun _ =>
    .ask (.close pipe.writeEnd)).congr ?_
  intro events _
  constructor
  · rintro ⟨_, _, _, rfl, rfl, rfl⟩
    rfl
  · rintro rfl
    exact ⟨[_], [_], (), rfl, rfl, rfl⟩

theorem closeEnd_pure_runs {α : Type} (descriptor : Option Descriptor) (value : α) :
    (closeEnd descriptor >>= fun _ => pure value).Runs shell fun events result =>
      events = closings descriptor.toList ∧ result = value := by
  refine ((closeEnd_runs descriptor).bind _ fun _ => .done value).congr ?_
  intro events result
  constructor
  · rintro ⟨_, _, _, rfl, rfl, rfl, rfl⟩
    exact ⟨by simp, rfl⟩
  · rintro ⟨rfl, rfl⟩
    exact ⟨_, [], (), by simp, rfl, rfl, rfl⟩

end Runs

theorem startStages_leads {source : Option Descriptor} {pids : List Pid} {program : Program}
    {programs : List Program} {shell shell' : Shell} {events : List Event}
    {outcome : Except Fault Started}
    (leads : (startStages source pids (program :: programs)).Leads shell events outcome shell') :
    ∃ new complete, Launch shell source (program :: programs) events new complete ∧
      outcome = .ok ⟨new.reverse ++ pids, complete⟩ ∧ shell' = shell := by
  induction programs generalizing source pids program events with
  | nil =>
      obtain ⟨_, _, _, rfl, ⟨rfl, rfl⟩, asks⟩ := openPipe_runs_last.leads_bind.mp leads
      obtain ⟨reply, rest, rfl, later⟩ := Routine.leads_ask_bind.mp asks
      rcases reply with errno | pid
      · obtain ⟨_, _, _, rfl, rfl, closes⟩ := (Routine.Runs.tell _ _).leads_bind.mp later
        obtain ⟨_, ⟨rfl, rfl⟩, rfl, rfl⟩ := (closeEnd_pure_runs _ _ _ _ _).mp closes
        exact ⟨[], false, .noLast, rfl, rfl⟩
      · obtain ⟨_, _, _, rfl, rfl, closes⟩ := (closeEnd_runs _).leads_bind.mp later
        obtain ⟨_, _, _, rfl, rfl, ends⟩ := (closeEnd_runs _).leads_bind.mp closes
        obtain ⟨_, ⟨rfl, rfl⟩, rfl, rfl⟩ := (closeEnd_pure_runs _ _ _ _ _).mp ends
        exact ⟨[pid], true, by simpa [closings] using .last, rfl, rfl⟩
  | cons next programs inductionHypothesis =>
      obtain ⟨_, _, _, rfl, ⟨got, rfl, rfl⟩, goes⟩ := openPipe_runs.leads_bind.mp leads
      rcases got with errno | pipe
      · obtain ⟨_, _, _, rfl, rfl, closes⟩ := (Routine.Runs.tell _ _).leads_bind.mp goes
        obtain ⟨_, ⟨rfl, rfl⟩, rfl, rfl⟩ := (closeEnd_pure_runs _ _ _ _ _).mp closes
        exact ⟨[], false, .noPipe, rfl, rfl⟩
      · obtain ⟨reply, rest, rfl, later⟩ := Routine.leads_ask_bind.mp goes
        rcases reply with errno | pid
        · obtain ⟨_, _, _, rfl, rfl, closes⟩ := (Routine.Runs.tell _ _).leads_bind.mp later
          obtain ⟨_, _, _, rfl, rfl, ends⟩ := (closePipe_runs _).leads_bind.mp closes
          obtain ⟨_, ⟨rfl, rfl⟩, rfl, rfl⟩ := (closeEnd_pure_runs _ _ _ _ _).mp ends
          exact ⟨[], false, .noProcess, rfl, rfl⟩
        · obtain ⟨_, _, _, rfl, rfl, closes⟩ := (closeEnd_runs _).leads_bind.mp later
          obtain ⟨_, _, _, rfl, rfl, others⟩ := (closeEnd_runs _).leads_bind.mp closes
          obtain ⟨new, complete, launch, rfl, rfl⟩ := inductionHypothesis others
          exact ⟨pid :: new, complete, .next launch, by simp, rfl⟩

/-- A process that is forked is the next stage, its own pipe is the latest, and it has open what it
should once it has taken its ends. -/
def Stands (shell : Shell) (held : Descriptor → Option Holding) (count index : Nat)
    (programs : List Program) (files : OpenFiles) (before : List Event) : Event → Prop
  | ⟨.fork child, _⟩ =>
    ∃ program wiring, programs[(forked before).length]? = some program ∧
      child = .stage program wiring shell ∧
      (files.behind before).made = min (index + (forked before).length + 1) (count - 1) ∧
      (files.behind (before ++ connecting wiring)).held =
        wired held count (index + (forked before).length)
  | _ => True

theorem stands_of_not_starts {shell : Shell} {held : Descriptor → Option Holding}
    {count index : Nat} {programs : List Program} {files : OpenFiles} {before : List Event}
    {event : Event} (idle : ¬ event.Starts) :
    Stands shell held count index programs files before event := by
  obtain ⟨call, reply⟩ := event
  cases call with
  | fork child => exact absurd trivial idle
  | _ => trivial

theorem Stands.shift {shell : Shell} {held : Descriptor → Option Holding} {count index : Nat}
    {program : Program} {programs : List Program} {files : OpenFiles} {first before : List Event}
    {event : Event} (one : (forked first).length = 1)
    (stands : Stands shell held count (index + 1) programs (files.behind first) before event) :
    Stands shell held count index (program :: programs) files (first ++ before) event := by
  obtain ⟨call, reply⟩ := event
  cases call with
  | fork child =>
      obtain ⟨program, wiring, found, rfl, made, taken⟩ := stands
      have more : (forked (first ++ before)).length = 1 + (forked before).length := by
        rw [forked_append, List.length_append, one]
      refine ⟨program, wiring, ?_, rfl, ?_, ?_⟩
      · rw [more, Nat.add_comm, List.getElem?_cons_succ]
        exact found
      · rw [OpenFiles.behind_append, made, more, ← Nat.add_assoc]
      · rw [List.append_assoc, OpenFiles.behind_append, taken, more, ← Nat.add_assoc]
  | _ => trivial

namespace Launch

variable {shell : Shell} {source : Option Descriptor} {programs : List Program}
  {events : List Event} {pids : List Pid} {complete : Bool}

theorem forked_eq (launch : Launch shell source programs events pids complete) :
    forked events = pids := by
  induction launch with
  | noPipe | noProcess | noLast => exact forked_closings _
  | last => exact congrArg (List.cons _) (forked_closings _)
  | next later inductionHypothesis =>
      rw [forked_append, inductionHypothesis]
      exact congrArg (List.cons _ <| · ++ _) (forked_closings _)

theorem length_le (launch : Launch shell source programs events pids complete) :
    pids.length ≤ programs.length := by
  induction launch with
  | noPipe | noProcess | noLast => exact Nat.zero_le _
  | last => exact Nat.le_refl 1
  | next later inductionHypothesis => exact Nat.succ_le_succ inductionHypothesis

theorem complete_iff_length (launch : Launch shell source programs events pids complete) :
    complete = true ↔ pids.length = programs.length := by
  induction launch with
  | noPipe | noProcess | noLast | last => simp
  | next later inductionHypothesis => simpa using inductionHypothesis

theorem split (launch : Launch shell source programs events pids complete) :
    (complete = true ∧ ∀ event ∈ events, ¬ event.Fails) ∨
      complete = false ∧ ∃ before event after, events = before ++ event :: after ∧ event.Fails ∧
        (∀ earlier ∈ before, ¬ earlier.Fails) ∧ ∀ later ∈ after, ¬ later.Starts := by
  have closed {descriptors : List Descriptor} : ∀ event ∈ closings descriptors, ¬ event.Fails :=
    fun event membership fails => not_starts_of_mem_closings event membership fails.starts
  have said {text : String} {descriptors : List Descriptor} :
      ∀ event ∈ ⟨.write .errors text, .ok ()⟩ :: closings descriptors, ¬ event.Starts :=
    List.forall_mem_cons.mpr ⟨id, not_starts_of_mem_closings⟩
  induction launch with
  | noPipe => exact Or.inr ⟨rfl, [], _, _, rfl, trivial, by simp, said⟩
  | noProcess =>
      exact Or.inr ⟨rfl, [_], _, _, rfl, trivial, List.forall_mem_cons.mpr ⟨id, by simp⟩, said⟩
  | noLast => exact Or.inr ⟨rfl, [], _, _, rfl, trivial, by simp, said⟩
  | last => exact Or.inl ⟨rfl, List.forall_mem_cons.mpr ⟨id, closed⟩⟩
  | @next source program _ _ pipe pid _ _ _ later inductionHypothesis =>
      have smooth : ∀ event ∈ ⟨.openPipe, .ok pipe⟩ ::
          ⟨.fork (.stage program ⟨source, some pipe⟩ shell), .ok pid⟩ ::
          closings (pipe.writeEnd :: source.toList), ¬ event.Fails :=
        List.forall_mem_cons.mpr ⟨id, List.forall_mem_cons.mpr ⟨id, closed⟩⟩
      rcases inductionHypothesis with
          ⟨rfl, others⟩ | ⟨rfl, before, event, after, rfl, fails, others, idle⟩
      · exact Or.inl ⟨rfl, List.forall_mem_append.mpr ⟨smooth, others⟩⟩
      · exact Or.inr ⟨rfl, _ ++ before, event, after, (List.append_assoc ..).symm, fails,
          List.forall_mem_append.mpr ⟨smooth, others⟩, idle⟩

theorem not_wait (launch : Launch shell source programs events pids complete) :
    ∀ event ∈ events, ∀ pid, event.call ≠ .wait pid := by
  have closed {descriptors : List Descriptor} :
      ∀ event ∈ closings descriptors, ∀ pid, event.call ≠ .wait pid := by
    intro event membership
    obtain ⟨descriptor, _, rfl⟩ := List.mem_map.mp membership
    exact fun pid => Call.noConfusion
  induction launch with
  | noPipe | noProcess | noLast | last => simpa [forkFails] using closed
  | next later inductionHypothesis =>
      refine List.forall_mem_append.mpr ⟨?_, inductionHypothesis⟩
      simpa using closed

variable {held : Descriptor → Option Holding} {index count : Nat} {files : OpenFiles}

/-- Every stage is connected to the pipes before and behind it, and no end of a pipe is left to the
shell. -/
theorem wires (launch : Launch shell source programs events pids complete)
    (poised : Poised held source index files)
    (lawful : Throughout (fun before event => (files.behind before).Lawful event) events)
    (total : index + programs.length = count) :
    Throughout (Stands shell held count index programs files) events ∧
    (files.behind events).held = held := by
  have closing {index : Nat} {programs : List Program} {files : OpenFiles} (first : List Event)
      (descriptors : List Descriptor) :
      Throughout (fun before => Stands shell held count index programs files (first ++ before))
        (closings descriptors) :=
    throughout_of_forall fun before event membership =>
      stands_of_not_starts (not_starts_of_mem_closings event membership)
  -- A stage that is not the last one has a pipe of its own.
  have counted {index : Nat} {program following : Program} {programs : List Program}
      (total : index + (program :: following :: programs).length = count) :
      index + 1 ≠ count ∧ ∀ {made : Nat}, made = index →
        made + 1 = min (index + 0 + 1) (count - 1) := by
    simp only [List.length_cons] at total
    refine ⟨by omega, ?_⟩
    intro made same
    omega
  induction launch generalizing index files with
  | noPipe =>
      exact ⟨throughout_cons.mpr ⟨trivial, throughout_cons.mpr ⟨trivial, closing [_, _] _⟩⟩,
        poised.closed⟩
  | @noProcess source program _ _ pipe =>
      have free : files.Lawful ⟨.openPipe, .ok pipe⟩ := (throughout_cons.mp lawful).1
      obtain ⟨inner, made⟩ := counted total
      refine ⟨throughout_cons.mpr
        ⟨trivial, throughout_cons.mpr ⟨?_, throughout_cons.mpr ⟨trivial, ?_⟩⟩⟩, ?_⟩
      · exact ⟨program, ⟨source, some pipe⟩, rfl, rfl, made poised.made,
          poised.connected free inner⟩
      · exact closing [_, _, _] _
      · exact poised.closed_opened free
  | @noLast source program =>
      obtain rfl : index + 1 = count := total
      refine ⟨throughout_cons.mpr ⟨?_, throughout_cons.mpr ⟨trivial, closing [_, _] _⟩⟩,
        poised.closed⟩
      exact ⟨program, ⟨source, none⟩, rfl, rfl,
        poised.made.trans (Nat.min_eq_right (Nat.le_succ _)).symm, poised.connected_last⟩
  | @last source program =>
      obtain rfl : index + 1 = count := total
      refine ⟨throughout_cons.mpr ⟨?_, closing [_] _⟩, poised.closed⟩
      exact ⟨program, ⟨source, none⟩, rfl, rfl,
        poised.made.trans (Nat.min_eq_right (Nat.le_succ _)).symm, poised.connected_last⟩
  | @next source program following programs pipe pid _ _ _ later inductionHypothesis =>
      obtain ⟨inner, made⟩ := counted total
      obtain ⟨here, behind⟩ := throughout_append.mp lawful
      have free : files.Lawful ⟨.openPipe, .ok pipe⟩ := (throughout_cons.mp here).1
      simp only [OpenFiles.behind_append] at behind
      -- A process that is forked takes nothing from the files of the shell.
      have kept :
          Poised held (some pipe.readEnd) (index + 1) (files.behind (⟨.openPipe, .ok pipe⟩ ::
          ⟨.fork (.stage program ⟨source, some pipe⟩ shell), .ok pid⟩ ::
          closings (pipe.writeEnd :: source.toList))) := poised.next free
      have remaining : index + 1 + (following :: programs).length = count :=
        (Nat.add_right_comm ..).trans total
      obtain ⟨others, ends⟩ := inductionHypothesis kept behind remaining
      refine ⟨throughout_append.mpr ⟨?_, others.imp ?_⟩, ?_⟩
      · refine throughout_cons.mpr ⟨trivial, throughout_cons.mpr ⟨?_, closing [_, _] _⟩⟩
        exact ⟨program, ⟨source, some pipe⟩, rfl, rfl, made poised.made,
          poised.connected free inner⟩
      · intro before event _ stands
        refine stands.shift ?_
        exact congrArg (List.length <| pid :: ·) (forked_closings _)
      · rw [OpenFiles.behind_append]
        exact ends

end Launch

theorem Waits.waiting {notice : Except Errno WaitStatus → Option (Stream × String)} {pid : Pid}
    {events : List Event} {reply : Except Errno WaitStatus}
    (waits : Waits notice pid events reply) :
    ∀ event ∈ events, event.Waiting := by
  obtain ⟨first, second, rfl, gets, notes⟩ := waits
  refine List.forall_mem_append.mpr ⟨?_, ?_⟩
  · intro event membership
    rw [Event.Waiting, gets.call_eq event membership]
    trivial
  · unfold Notes at notes
    split at notes
    · simp [notes]
    · subst notes
      exact List.forall_mem_singleton.mpr trivial

theorem WaitsEach.waiting {notice : Except Errno WaitStatus → Option (Stream × String)}
    {pids : List Pid} {events : List Event} {replies : List (Except Errno WaitStatus)}
    (waits : WaitsEach notice pids events replies) : ∀ event ∈ events, event.Waiting := by
  induction waits with
  | nil => simp
  | cons here later inductionHypothesis =>
      exact List.forall_mem_append.mpr ⟨here.waiting, inductionHypothesis⟩

theorem OpenFiles.behind_of_waiting {events : List Event}
    (waiting : ∀ event ∈ events, event.Waiting) (files : OpenFiles) :
    files.behind events = files := by
  induction events with
  | nil => rfl
  | cons event events inductionHypothesis =>
      obtain ⟨here, later⟩ := List.forall_mem_cons.mp waiting
      rw [OpenFiles.behind_cons, here.after_eq, inductionHypothesis later]

/-- Once the stages have been started, all of them are waited for, and the last one decides. -/
theorem runPipeline_leads {program following : Program} {programs : List Program}
    {shell shell' : Shell} {events : List Event} {outcome : Except Fault Int}
    (leads : (runPipeline (program :: following :: programs)).Leads shell events outcome shell') :
    ∃ starting waiting pids complete, events = starting ++ waiting ∧ shell' = shell ∧
      Launch shell none (program :: following :: programs) starting pids complete ∧
      ((pids = [] ∧ waiting = [] ∧ outcome = .ok Status.failure) ∨
        ∃ others last reaping ending replies reply, pids = others ++ [last] ∧
          waiting = reaping ++ ending ∧
          WaitsEach noticeOfReaping others reaping replies ∧ Waits noticeOfWait last ending reply ∧
          outcome = .ok (if complete then statusOfReply reply else Status.failure)) := by
  rcases Routine.leads_bind.mp leads with ⟨starting, waiting, started, middle, rfl, starts, later⟩ |
    ⟨cause, failed, _⟩
  · obtain ⟨pids, complete, launch, same, rfl⟩ := startStages_leads starts
    obtain rfl := Except.ok.inj same
    rw [List.append_nil] at later
    rcases pids.eq_nil_or_concat with rfl | ⟨others, last, rfl⟩
    · obtain ⟨rfl, rfl, rfl⟩ := Routine.leads_pure.mp later
      exact ⟨starting, [], [], complete, rfl, rfl, launch, Or.inl ⟨rfl, rfl, rfl⟩⟩
    · simp only [List.concat_eq_append, List.reverse_append, List.reverse_singleton,
        List.singleton_append, List.reverse_reverse] at later
      obtain ⟨reaping, _, _, rfl, ⟨replies, reaps⟩, waits⟩ :=
        (reapQuietlyEach_runs _).leads_bind.mp later
      obtain ⟨ending, _, _, rfl, ⟨reply, waited, rfl⟩, ends⟩ :=
        (Routine.waitChild_runs _).leads_bind.mp waits
      obtain ⟨rfl, rfl, rfl⟩ := Routine.leads_pure.mp ends
      refine ⟨starting, _, others ++ [last], complete, rfl, rfl, by simpa using launch, Or.inr ?_⟩
      exact ⟨others, last, reaping, ending, replies, reply, rfl, by simp, reaps, waited, rfl⟩
  · obtain ⟨_, _, _, impossible, _⟩ := startStages_leads failed
    cases impossible

theorem Launch.exists_of_wait {shell : Shell} {source : Option Descriptor} {programs : List Program}
    {starting waiting before after : List Event} {pids : List Pid} {complete : Bool} {pid : Pid}
    {reply : Except Errno WaitStatus} (launch : Launch shell source programs starting pids complete)
    (same : starting ++ waiting = before ++ ⟨.wait pid, reply⟩ :: after) :
    ∃ quiet, before = starting ++ quiet ∧ waiting = quiet ++ ⟨.wait pid, reply⟩ :: after := by
  rcases List.append_eq_append_iff.mp same with ⟨quiet, rfl, rest⟩ | ⟨inside, rfl, rest⟩
  · exact ⟨quiet, rfl, rest⟩
  · cases inside with
    | nil => exact ⟨[], by simp, by simpa using rest.symm⟩
    | cons event inside =>
        obtain ⟨rfl, _⟩ := List.cons.inj rest
        exact absurd rfl (launch.not_wait ⟨.wait pid, reply⟩ (by simp) pid)

/-- A pipeline of several stages, whatever pipes and processes can be had. The processes that are
forked are its stages in order, each of them with a pipe made for it unless it is the last one. Once
prepared, a stage is connected to the one before and the one behind, and has no other end of a pipe
open. Either they are all of the stages, or the next one lacks a pipe or a process, and nothing more
is asked for. The shell waits with no end of a pipe open, and takes the status of the last stage, or
says that the pipeline failed. -/
theorem runPipeline_wiring {stages : Pipeline} (several : 2 ≤ stages.length) {shell shell' : Shell}
    {events : List Event} {outcome : Except Fault Int} (isOpen : Descriptor → Bool)
    (leads : (runPipeline stages).Leads shell events outcome shell')
    (lawful : Throughout (fun before event => ((OpenFiles.start isOpen).behind before).Lawful event)
      events) :
    let files := OpenFiles.start isOpen
    (∀ before child reply after, events = before ++ ⟨.fork child, reply⟩ :: after →
      ∃ program wiring own, stages[(forked before).length]? = some program ∧
        child = .stage program wiring shell ∧
        child.work = finish (child.prepare >>= fun _ => runProgram program) shell ∧
        (∀ events ready, child.prepare.Leads shell events (.ok ()) ready ↔
          events = own ∧ ready = { shell with flags := stageFlags }) ∧
        (files.behind before).made = min ((forked before).length + 1) (stages.length - 1) ∧
        (files.behind (before ++ own)).held =
          wired files.held stages.length (forked before).length) ∧
    ((∀ event ∈ events, ¬ event.Fails) ∧ (forked events).length = stages.length ∨
      ∃ before event after, events = before ++ event :: after ∧ event.Fails ∧
        (∀ earlier ∈ before, ¬ earlier.Fails) ∧ (∀ later ∈ after, ¬ later.Starts) ∧
        forked before = forked events ∧ (forked events).length < stages.length) ∧
    (∀ before pid reply after, events = before ++ ⟨.wait pid, reply⟩ :: after →
      forked before = forked events ∧ (files.behind before).held = files.held) ∧
    shell' = shell ∧
    (forked events = [] ∧ outcome = .ok Status.failure ∨
      ∃ others last starting reaping ending replies reply, forked events = others ++ [last] ∧
        events = starting ++ reaping ++ ending ∧ WaitsEach noticeOfReaping others reaping replies ∧
        Waits noticeOfWait last ending reply ∧
        outcome = .ok
          (if (forked events).length = stages.length then statusOfReply reply
            else Status.failure)) := by
  intro files
  obtain ⟨program, following, programs, rfl⟩ :
      ∃ program following programs, stages = program :: following :: programs := by
    match stages, several with
    | program :: following :: programs, _ => exact ⟨program, following, programs, rfl⟩
  obtain ⟨starting, waiting, pids, complete, rfl, rfl, launch, ends⟩ := runPipeline_leads leads
  have quiet : ∀ event ∈ waiting, event.Waiting := by
    rcases ends with ⟨_, rfl, _⟩ | ⟨_, _, _, _, _, _, _, rfl, reaps, waits, _⟩
    · simp
    · exact List.forall_mem_append.mpr ⟨reaps.waiting, waits.waiting⟩
  have idle : ∀ event ∈ waiting, ¬ event.Starts := fun event membership =>
      (quiet event membership).not_starts
  have all : forked (starting ++ waiting) = pids := by
    rw [forked_append, forked_of_not_starts idle, launch.forked_eq, List.append_nil]
  obtain ⟨stands, closed⟩ :=
    launch.wires (.start isOpen) (throughout_append.mp lawful).1 (Nat.zero_add _)
  rw [all]
  refine ⟨?_, ?_, ?_, rfl, ?_⟩
  · intro before child reply after same
    have whole : Throughout _ (starting ++ waiting) :=
      throughout_append.mpr ⟨stands, throughout_of_forall
      fun before event membership => stands_of_not_starts (idle event membership)⟩
    obtain ⟨stage, wiring, found, rfl, made, taken⟩ := whole before _ after same
    rw [Nat.zero_add] at made taken
    exact ⟨stage, wiring, connecting wiring, found, rfl,
      @Child.work_of_start? _ (.program stage) _ rfl, fun events ready => prepare_leads_ok, made,
      taken⟩
  · rcases launch.split with
        ⟨rfl, smooth⟩ | ⟨rfl, before, event, after, rfl, fails, smooth, nothing⟩
    · left
      refine ⟨List.forall_mem_append.mpr ⟨smooth, fun event membership fails => ?_⟩, ?_⟩
      · exact idle event membership fails.starts
      · exact launch.complete_iff_length.mp rfl
    · right
      have short : pids.length ≠ (program :: following :: programs).length := by
        intro same
        have impossible := launch.complete_iff_length.mpr same
        contradiction
      refine ⟨before, event, after ++ waiting, by simp, fails, smooth, ?_, ?_, ?_⟩
      · exact List.forall_mem_append.mpr ⟨nothing, idle⟩
      · rw [← launch.forked_eq, forked_of_fails fails nothing]
      · exact Nat.lt_of_le_of_ne launch.length_le short
  · intro before pid reply after same
    obtain ⟨early, rfl, rfl⟩ := launch.exists_of_wait same
    have calm := (List.forall_mem_append.mp quiet).1
    constructor
    · rw [forked_append, forked_of_not_starts fun event membership =>
        (calm event membership).not_starts, launch.forked_eq, List.append_nil]
    · rw [OpenFiles.behind_append, OpenFiles.behind_of_waiting calm, closed]
  · rcases ends with ⟨rfl, _, rfl⟩ |
      ⟨others, last, reaping, ending, replies, reply, rfl, rfl, reaps, waits, rfl⟩
    · exact Or.inl ⟨rfl, rfl⟩
    · refine Or.inr ⟨others, last, starting, reaping, ending, replies, reply,
        rfl, by simp, reaps, waits, ?_⟩
      simp only [launch.complete_iff_length]

/-- There is no process for the second of three stages: the first one is waited for, and no end of a
pipe is open then. -/
theorem runPipeline_wiring_cut :
    ∃ events, (runPipeline [[.literal "ls"], [.literal "sort"], [.literal "wc"]]).Leads
      (.start {} []) events (.ok Status.failure) (.start {} []) ∧
      Throughout (fun before event => ((OpenFiles.start (· < 3)).behind before).Lawful event)
        events ∧
      events.length = 11 ∧ forked events = [7] ∧
      ∀ before pid reply after, events = before ++ ⟨.wait pid, reply⟩ :: after →
        forked before = [7] ∧
          ((OpenFiles.start (· < 3)).behind before).held = (OpenFiles.start (· < 3)).held := by
  have leads :
      (runPipeline [[.literal "ls"], [.literal "sort"], [.literal "wc"]]).Leads (.start {} [])
      [⟨.openPipe, .ok ⟨3, 4⟩⟩,
        ⟨.fork (.stage [.literal "ls"] ⟨none, some ⟨3, 4⟩⟩ (.start {} [])), .ok 7⟩,
        ⟨.close 4, ()⟩, ⟨.openPipe, .ok ⟨4, 5⟩⟩,
        ⟨.fork (.stage [.literal "sort"] ⟨some 3, some ⟨4, 5⟩⟩ (.start {} [])), .error .tryAgain⟩,
        ⟨.write .errors ("fork: " ++ Errno.tryAgain.report ++ "\n"), .ok ()⟩, ⟨.close 4, ()⟩,
        ⟨.close 5, ()⟩, ⟨.close 3, ()⟩, ⟨.wait 7, .error .interrupted⟩,
        ⟨.wait 7, .ok (.exited 7 0)⟩]
      (.ok Status.failure) (.start {} []) :=
    ⟨[_], _, .ok ⟨3, 4⟩, rfl, .last rfl, [_], _, .ok 7, rfl, .last rfl, [_], _, (), rfl, .last rfl,
      [_], _, .ok ⟨4, 5⟩, rfl, .last rfl, [_], _, .error .tryAgain, rfl, .last rfl,
      [_], _, .ok (), rfl, .last rfl, [_], _, (), rfl, .last rfl, [_], _, (), rfl, .last rfl,
      [_], _, (), rfl, .last rfl, [_, _], _, .ok (.exited 7 0), rfl, .more rfl (.last rfl), rfl,
      rfl⟩
  have free (files : OpenFiles) (pipe : Pipe) (reading : Free files.held pipe.readEnd)
      (writing : Free files.held pipe.writeEnd) (different : pipe.readEnd ≠ pipe.writeEnd) :
      files.Lawful ⟨.openPipe, .ok pipe⟩ := ⟨reading, writing, different⟩
  refine ⟨_, leads, ?lawful, rfl, rfl, (runPipeline_wiring (by decide) (· < 3) leads ?lawful).2.2.1⟩
  simp only [throughout_cons, throughout_nil, and_true]
  refine ⟨free _ _ ⟨rfl, by decide, by decide⟩ ⟨rfl, by decide, by decide⟩ (by decide), trivial,
    trivial, free _ _ ⟨rfl, by decide, by decide⟩ ⟨rfl, by decide, by decide⟩ (by decide), ?_⟩
  exact ⟨trivial, trivial, trivial, trivial, trivial, trivial, trivial⟩

end CommandShell
