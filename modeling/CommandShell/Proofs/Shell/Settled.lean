import CommandShell.Proofs.Jobs
import CommandShell.Proofs.Shell.Reach
import CommandShell.Proofs.Shell.Reaping

/-!
No child is lost. Between two statements the children of a process are its jobs and no others,
whatever the statements are and however the operating system behaves; and when the shell ends it
waits for all of them.
-/

namespace CommandShell

/-- The jobs of a shell, as children of its process. -/
def Shell.children (shell : Shell) : Finset Pid := shell.jobs.pids.toFinset

/-- Between the two states all is settled: only children were waited for, the children are the jobs,
all processes that are no jobs were waited for in the order in which they were started, and the jobs
are those from before and those that were started. -/
structure Settled (shell : Shell) (events : List Event) (shell' : Shell) : Prop where
  careful : Along Event.Careful shell.children events
  children : childrenAfter shell.children events = shell'.children
  reaped : events.filterMap Event.reaped? = events.filterMap Event.started?
  jobs : shell'.jobs.pids.Perm (shell.jobs.pids ++ events.filterMap Event.tracked?)
  ordered : shell'.jobs.Ordered

theorem Settled.append {shell middle shell' : Shell} {first second : List Event}
    (settled : Settled shell first middle) (later : Settled middle second shell') :
    Settled shell (first ++ second) shell' where
  careful := along_append.mpr ⟨settled.careful, settled.children ▸ later.careful⟩
  children := by rw [childrenAfter_append, settled.children, later.children]
  reaped := by rw [List.filterMap_append, List.filterMap_append, settled.reaped, later.reaped]
  jobs := by
    rw [List.filterMap_append, ← List.append_assoc]
    exact later.jobs.trans (settled.jobs.append_right _)
  ordered := later.ordered

theorem settled_of_tallies {shell shell' : Shell} {events : List Event} {pids : List Pid}
    (tallies : Tallies shell.children events shell.children { started := pids, reaped := pids })
    (same : shell'.jobs = shell.jobs) (ordered : shell.jobs.Ordered) :
    Settled shell events shell' where
  careful := tallies.careful
  children := by rw [tallies.after, Shell.children, Shell.children, same]
  reaped := tallies.reaped.trans tallies.started.symm
  jobs := by rw [tallies.tracked, same, List.append_nil]
  ordered := same ▸ ordered

/-- A routine leaves nothing open, if it is begun so. -/
def Routine.Tidy {α : Type} (routine : Routine α) : Prop :=
  ∀ ⦃shell events outcome shell'⦄, routine.Leads shell events outcome shell' → shell.jobs.Ordered →
    Along Event.Lawful shell.children events → Settled shell events shell'

namespace Routine

variable {α β : Type}

theorem Keeps.tidy {routine : Routine α} (keeps : routine.Keeps (.idle fun _ => True)) :
    routine.Tidy := by
  intro shell events outcome shell' leads ordered _
  have run : Work.Leads (routine shell) events (outcome, shell') := leads
  have kept := run.of_always (keeps shell trivial).always
  exact settled_of_tallies (.plains (run.allowed (keeps shell trivial))) kept.1 ordered

theorem Comes.tidy {routine : Routine α}
    (comes : ∀ shell : Shell, routine.Comes Event.Lawful shell.children shell fun _ =>
      Evens shell.children shell) : routine.Tidy := by
  intro shell events outcome shell' leads ordered lawful
  obtain ⟨_, _, tally, _, tallies, same, rfl, pids, rfl⟩ :=
    comes shell events outcome shell' leads lawful
  exact settled_of_tallies tallies same ordered

theorem Tidy.bind {routine : Routine α} {next : α → Routine β} (tidy : routine.Tidy)
    (later : ∀ value, (next value).Tidy) : (routine >>= next).Tidy := by
  intro shell events outcome shell' leads ordered lawful
  rcases leads_bind.mp leads with ⟨first, second, value, middle, rfl, ran, rest⟩ | ⟨_, failed, _⟩
  · obtain ⟨lawful, lawful'⟩ := along_append.mp lawful
    have settled := tidy ran ordered lawful
    rw [settled.children] at lawful'
    exact settled.append (later value rest settled.ordered lawful')
  · exact tidy failed ordered lawful

theorem Tidy.attempt {routine : Routine α} (tidy : routine.Tidy) : routine.attempt.Tidy := by
  intro shell events outcome shell' leads ordered lawful
  obtain ⟨inner, ran, _⟩ := leads_attempt.mp leads
  exact tidy ran ordered lawful

end Routine

open Routine (Keeps Comes Tidy)

theorem settleStatement_tidy {routine : Routine Int} (tidy : routine.Tidy) :
    (settleStatement routine).Tidy := by
  have settles (status : Int) : (do
      Routine.modify fun shell => shell.setStatus status
      pure status : Routine Int).Keeps (.idle fun _ => True) :=
    (Keeps.modify fun _ => rfl).bind fun _ => .done status
  refine tidy.attempt.bind fun outcome => ?_
  split
  · exact (settles _).tidy
  · exact (Keeps.fail trivial).tidy
  · exact ((complain_keeps plain_idle _).bind fun _ => settles _).tidy

theorem runProgram_tidy (words : Program) : (runProgram words).Tidy := by
  intro shell events outcome shell' leads ordered lawful
  rw [runProgram, Routine.leads_get_bind] at leads
  cases arguments : Expansion.arguments shell.store words with
  | nil =>
      rw [arguments] at leads
      exact (Keeps.done Status.success).tidy leads ordered lawful
  | cons name rest =>
      rw [arguments] at leads
      dsimp only at leads
      split at leads
      · have keeps : (Builtin.run (name :: rest)).Keeps (.idle fun _ => True) :=
          builtin_keeps (fun _ plain => plain) (fun _ _ => rfl) (fun _ => trivial) _
        exact keeps.tidy leads ordered lawful
      · split at leads
        · rcases Routine.leads_bind.mp leads with ⟨_, _, never, _⟩ | ⟨_, lifted, _⟩
          · exact nomatch never
          · obtain ⟨never, _⟩ := Routine.leads_lift.mp lifted
            exact nomatch never
        · refine Comes.tidy (fun shell => ?_) leads ordered lawful
          refine .bind (.fork (by simp) (fun errno => ?_) fun pid fresh => ?_)
          · refine .bind (.idle (complain_keeps plain_idle _) fun _ middle same => ?_)
            exact .done (evens_nothing same)
          · refine (waitChild_comes (Finset.mem_insert_self pid _)).imp ?_
            rintro _ shell' _ _ ⟨same, rfl, rfl⟩
            exact ⟨same, by simp [Finset.insert_sdiff_of_mem, fresh], [pid], rfl⟩

theorem startJob_leads {command : Command} {shell shell' : Shell} {events : List Event}
    {outcome : Except Fault Unit} (leads : (startJob command).Leads shell events outcome shell') :
    (∃ pid text, events = [⟨.fork (.job command shell), .ok pid⟩, ⟨.write .output text, .ok ()⟩] ∧
      shell' = { shell with jobs := (shell.jobs.insert pid).2 }) ∨
    ∃ errno text,
      events = [⟨.fork (.job command shell), .error errno⟩, ⟨.write .errors text, .ok ()⟩] ∧
      shell' = shell := by
  rw [startJob, Routine.leads_get_bind] at leads
  rcases Routine.leads_bind.mp leads with
      ⟨first, second, reply, middle, rfl, asked, later⟩ | ⟨_, asked, _⟩
  · obtain ⟨_, rfl, same, rfl⟩ := Routine.leads_ask.mp asked
    obtain rfl := Except.ok.inj same
    match reply, later with
    | .ok pid, later =>
        obtain ⟨rfl, _, rfl⟩ := Routine.leads_tell.mp (Routine.leads_modify_bind.mp later)
        exact Or.inl ⟨pid, _, rfl, rfl⟩
    | .error errno, later =>
        obtain ⟨rfl, _, rfl⟩ := Routine.leads_tell.mp later
        exact Or.inr ⟨errno, _, rfl, rfl⟩
  · obtain ⟨_, _, impossible, _⟩ := Routine.leads_ask.mp asked
    cases impossible

theorem startJob_tidy (command : Command) : (startJob command).Tidy := by
  intro shell events outcome shell' leads ordered lawful
  rcases startJob_leads leads with ⟨pid, text, rfl, rfl⟩ | ⟨errno, text, rfl, rfl⟩
  · have fresh : pid ∉ shell.jobs.pids := fun own => lawful.1 (List.mem_toFinset.mpr own)
    have tallies : Tallies shell.children
        [⟨.fork (.job command shell), .ok pid⟩, ⟨.write .output text, .ok ()⟩]
        (insert pid shell.children) { tracked := [pid] } :=
      ⟨⟨trivial, trivial, trivial⟩, rfl, rfl, rfl, rfl⟩
    refine ⟨tallies.careful, ?_, tallies.reaped.trans tallies.started.symm, ?_, ordered.insert pid⟩
    · rw [tallies.after]
      ext other
      simp [Shell.children, Jobs.insert, Jobs.mem_insertPid]
    · rw [tallies.tracked]
      exact (Jobs.perm_insertPid fresh).trans (List.perm_append_singleton pid _).symm
  · exact settled_of_tallies ⟨⟨trivial, trivial, trivial⟩, rfl, rfl, rfl, rfl⟩ rfl ordered

/-- All tasks are tidy. -/
def tidiness : Discipline fun _ => True where
  holds routine := routine.Tidy
  hereditary _ _ := trivial
  done result := (Keeps.done result).tidy
  bind := Tidy.bind
  get := Keeps.get.tidy
  settle := settleStatement_tidy
  set _ _ := (Keeps.modify fun _ => rfl).tidy
  job _ := startJob_tidy _
  atOnce _ _ := Comes.tidy fun _ => runAtOnce_comes _ _ _
  joined joined _ := Comes.tidy fun _ => runPipeline_joined_comes joined
  program _ := runProgram_tidy _

/-- So is the way to a task. -/
theorem accrues_settled : Task.Accrues (fun _ => True) fun shell events shell' =>
    shell.jobs.Ordered → Along Event.Lawful shell.children events →
    Settled shell events shell' where
  hereditary _ _ := trivial
  refl shell ordered _ := settled_of_tallies (.nil _) rfl ordered
  trans first second ordered lawful := by
    obtain ⟨lawful, lawful'⟩ := along_append.mp lawful
    have settled := first ordered lawful
    rw [settled.children] at lawful'
    exact settled.append (second settled.ordered lawful')
  ran _ leads := tidiness.task _ trivial leads
  bound _ _ shell ordered _ := settled_of_tallies (.nil _) rfl ordered

/-! The end of the shell. -/

namespace Event

/-- The reply is lawful, and no wait is interrupted. -/
def Prompt (children : Finset Pid) (event : Event) : Prop :=
  event.Lawful children ∧ ∀ pid, event ≠ ⟨.wait pid, .error .interrupted⟩

def waited? : Event → Option Pid
  | ⟨.wait pid, _⟩ => some pid
  | _ => none

theorem waited?_eq_reaped? {children : Finset Pid} {event : Event} (prompt : event.Prompt children)
    (careful : event.Careful children) : event.waited? = event.reaped? := by
  obtain ⟨call, reply⟩ := event
  cases call with
  | wait pid =>
      rcases prompt.1 careful with rfl | ⟨status, rfl, ended⟩
      · exact absurd rfl (prompt.2 pid)
      · simp [waited?, reaped?, ended]
  | _ => rfl

end Event

theorem filterMap_waited? {children : Finset Pid} {events : List Event}
    (prompt : Along Event.Prompt children events) (careful : Along Event.Careful children events) :
    events.filterMap Event.waited? = events.filterMap Event.reaped? := by
  induction events generalizing children with
  | nil => rfl
  | cons event events inductionHypothesis =>
      rw [List.filterMap_cons, List.filterMap_cons, Event.waited?_eq_reaped? prompt.1 careful.1,
        inductionHypothesis prompt.2 careful.2]

theorem reapJob_comes {children : Finset Pid} {shell : Shell} {pid : Pid} (own : pid ∈ children) :
    (Routine.reapJob pid).Comes Event.Prompt children shell fun _ =>
      Reaps children shell [pid] := by
  refine .bind (.ask fun reply prompt => ?_)
  rcases prompt.1 own with rfl | ⟨status, rfl, ended⟩
  · exact absurd rfl (prompt.2 pid)
  · refine ⟨children.erase pid, { reaped := [pid] }, .wait own ended, ?_⟩
    have reaps {shell' : Shell} (same : shell'.jobs = shell.jobs) :
        Reaps children shell [pid] shell' (children.erase pid) { reaped := [pid] } :=
      ⟨same, by simp [Finset.sdiff_singleton_eq_erase], rfl⟩
    cases status with
    | exited => exact .idle (say_keeps plain_idle _) fun _ _ same => reaps same
    | signaled => exact .idle (say_keeps plain_idle _) fun _ _ same => reaps same
    | _ => contradiction

theorem reapEach_comes {children : Finset Pid} {shell : Shell} {pids : List Pid}
    (distinct : pids.Nodup) (own : ∀ pid ∈ pids, pid ∈ children) :
    (Routine.reapEach pids).Comes Event.Prompt children shell fun _ => Reaps children shell pids :=
  comes_each (fun _ => Routine.reapEach) (fun _ => rfl) (fun _ _ _ => rfl) reapJob_comes distinct
    own ()

theorem tearDown_leads {shell shell' : Shell} {events : List Event} {outcome : Except Fault Unit}
    (wanted : shell.options.run.waitAtExit = true) (ordered : shell.jobs.Ordered)
    (leads : Routine.tearDown.Leads shell events outcome shell')
    (prompt : Along Event.Prompt shell.children events) :
    outcome = .ok () ∧ shell'.jobs = Jobs.empty ∧ childrenAfter shell.children events = ∅ ∧
      Along Event.Careful shell.children events ∧ events.filterMap Event.waited? = shell.jobs.pids ∧
      events.filterMap Event.reaped? = shell.jobs.pids := by
  rw [Routine.tearDown, Routine.leads_get_bind, if_pos wanted, Routine.reapAll_eq,
    Routine.leads_get_bind] at leads
  have ran : (Routine.reapEach shell.jobs.pids).Leads { shell with jobs := Jobs.empty } events
      outcome shell' :=
    Routine.leads_modify_bind.mp leads
  have own : ∀ pid ∈ shell.jobs.pids, pid ∈ shell.children := fun pid => List.mem_toFinset.mpr
  obtain ⟨_, _, _, rfl, tallies, same, rfl, rfl⟩ :=
    reapEach_comes ordered.nodup own events outcome shell' ran prompt
  have waited := filterMap_waited? prompt tallies.careful
  refine ⟨rfl, same, ?_, tallies.careful, waited.trans tallies.reaped, tallies.reaped⟩
  rw [tallies.after, Shell.children, Finset.sdiff_self]

/-- A shell whose children are its jobs runs a script, and the operating system behaves in any
lawful way. Then its children are its jobs between all statements; a statement in the background
adds one of them if there is a process for it; and when the shell ends, it waits for each of them
once, in order. -/
theorem Script.children_settled (script : Script) {shell : Shell} (ordered : shell.jobs.Ordered) :
    (∀ events status rest reached,
      script.task.Reaches shell events (.statements status rest) reached →
      Along Event.Lawful shell.children events → Settled shell events reached) ∧
    (∀ command events outcome shell',
      (runStatement (.mk command true)).Leads shell events outcome shell' →
      Along Event.Lawful shell.children events →
      (∃ pid, events.head? = some ⟨.fork (.job command shell), .ok pid⟩ ∧ pid ∉ shell.jobs.pids ∧
        shell'.jobs.pids.Perm (pid :: shell.jobs.pids)) ∨
      ∃ errno, events.head? = some ⟨.fork (.job command shell), .error errno⟩ ∧ shell' = shell) ∧
    ∀ events outcome shell', script.run.Leads shell events outcome shell' →
      Along Event.Lawful shell.children events →
      Settled shell events shell' ∧
      (shell'.options.run.waitAtExit = true →
        ∀ events' outcome' final, Routine.tearDown.Leads shell' events' outcome' final →
          Along Event.Prompt shell'.children events' →
          outcome' = .ok () ∧ final.jobs = Jobs.empty ∧
          childrenAfter shell.children (events ++ events') = ∅ ∧
          Along Event.Careful shell'.children events' ∧
          events'.filterMap Event.waited? = shell'.jobs.pids ∧
          events'.filterMap Event.reaped? = shell'.jobs.pids) := by
  refine ⟨?_, ?_, ?_⟩
  · intro events status rest reached reaches lawful
    exact reaches.accrued accrues_settled trivial ordered lawful
  · intro command events outcome shell' leads lawful
    obtain ⟨outcome, started⟩ :
        ∃ outcome, (startJob command).Leads shell events outcome shell' := by
      rw [runStatement, if_pos rfl] at leads
      rcases Routine.leads_bind.mp leads with ⟨_, _, _, _, rfl, started, later⟩ | ⟨_, failed, _⟩
      · obtain ⟨rfl, _, rfl⟩ := Routine.leads_pure.mp later
        exact ⟨_, by simpa using started⟩
      · exact ⟨_, failed⟩
    rcases startJob_leads started with ⟨pid, _, rfl, rfl⟩ | ⟨errno, _, rfl, rfl⟩
    · have fresh : pid ∉ shell.jobs.pids := fun own => lawful.1 (List.mem_toFinset.mpr own)
      exact Or.inl ⟨pid, rfl, fresh, Jobs.perm_insertPid fresh⟩
    · exact Or.inr ⟨errno, rfl, rfl⟩
  · intro events outcome shell' leads lawful
    have settled := tidiness.task script.task trivial leads ordered lawful
    refine ⟨settled, fun wanted events' outcome' final ends prompt => ?_⟩
    have ended := tearDown_leads wanted settled.ordered ends prompt
    rw [childrenAfter_append, settled.children]
    exact ended

theorem Script.children_settled_interrupted :
    ∃ events shell',
      (Script.run [.mk (.pipeline [[.literal "ls"]]) false]).Leads (.start {} []) events (.ok 0)
        shell' ∧ events.length = 3 ∧ Settled (.start {} []) events shell' := by
  have leads : (Script.run [.mk (.pipeline [[.literal "ls"]]) false]).Leads (.start {} [])
      [⟨.fork (.program ["ls"]), .ok 7⟩, ⟨.wait 7, .error .interrupted⟩,
        ⟨.wait 7, .ok (.exited 7 0)⟩] (.ok 0)
      ((Shell.start {} []).setStatus 0) :=
    ⟨[_], [_, _], .ok 7, rfl, .last rfl, [_, _], [], .ok (.exited 7 0), rfl, .more rfl (.last rfl),
      rfl, rfl⟩
  have ordered : (Shell.start {} []).jobs.Ordered := List.Pairwise.nil
  have fresh : (7 : Pid) ∉ (Shell.start {} []).children := Finset.notMem_empty 7
  refine ⟨_, _, leads, rfl, ((Script.children_settled _ ordered).2.2 _ _ _ leads ?_).1⟩
  exact ⟨fresh, fun _ => Or.inl rfl, fun _ => Or.inr ⟨_, rfl, rfl⟩, trivial⟩

end CommandShell
