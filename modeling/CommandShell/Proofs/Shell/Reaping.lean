import CommandShell.Proofs.Shell.Children

/-!
Starting processes and waiting for them. What is started for a pipeline or for the rounds of a loop
is waited for before anything else is done, each process once and in the order in which they were
started, wherever the starting broke off.
-/

namespace CommandShell

open Routine (Comes Keeps)

variable {children : Finset Pid} {shell : Shell} {pid : Pid}

/-! Waiting. -/

theorem Tallies.wait {status : WaitStatus} (own : pid ∈ children) (ended : status.ended = true) :
    Tallies children [⟨.wait pid, .ok status⟩] (children.erase pid) { reaped := [pid] } := by
  refine ⟨⟨own, trivial⟩, ?_, rfl, rfl, ?_⟩
  · simp [childrenAfter, Event.after, ended]
  · simp [Event.reaped?, ended]

/-- A wait for a child is repeated until the child has ended. -/
theorem Call.Gets.tallies_wait {events : List Event} {reply : (Call.wait pid).Reply}
    (gets : (Call.wait pid).Gets Routine.wasInterrupted events reply) (own : pid ∈ children)
    (lawful : Along Event.Lawful children events) :
    (∃ status : WaitStatus, reply = Except.ok status) ∧
      Tallies children events (children.erase pid) { reaped := [pid] } := by
  induction gets with
  | @last reply settled =>
      rcases lawful.1 own with rfl | ⟨status, rfl, ended⟩
      · contradiction
      · exact ⟨⟨status, rfl⟩, .wait own ended⟩
  | @more reply _ _ repeats _ inductionHypothesis =>
      rcases lawful.1 own with rfl | ⟨status, rfl, _⟩
      · obtain ⟨ok, tallies⟩ := inductionHypothesis lawful.2
        exact ⟨ok, ⟨own, tallies.careful⟩, tallies.after, tallies.started, tallies.tracked,
          tallies.reaped⟩
      · simp [Routine.wasInterrupted] at repeats

/-- The processes are waited for, and nothing else happens to the children. -/
def Reaps (children : Finset Pid) (shell : Shell) (pids : List Pid) (shell' : Shell)
    (children' : Finset Pid) (tally : Tally) : Prop :=
  shell'.jobs = shell.jobs ∧ children' = children \ pids.toFinset ∧ tally = { reaped := pids }

theorem waitFor_comes (own : pid ∈ children) :
    (Routine.waitFor pid).Comes Event.Lawful children shell fun reply shell' children' tally =>
      (∃ status, reply = .ok status) ∧ Reaps children shell [pid] shell' children' tally := by
  intro events outcome shell' leads lawful
  obtain ⟨reply, ⟨first, second, reply', rfl, gets, rfl, rfl⟩, rfl, rfl⟩ :=
    Routine.leads_lift.mp leads
  rw [List.append_nil] at lawful ⊢
  obtain ⟨ok, tallies⟩ := gets.tallies_wait own lawful
  exact ⟨reply', _, _, rfl, tallies, ok, rfl, by simp [Finset.sdiff_singleton_eq_erase], rfl⟩

theorem plain_idle {failure : Fault → Prop} :
    ∀ call : Call, call.Plain → (Conduct.idle failure).call call :=
  fun _ plain => plain

theorem waitChild_comes (own : pid ∈ children) :
    (Routine.waitChild pid).Comes Event.Lawful children shell fun _ =>
      Reaps children shell [pid] := by
  refine .bind ((waitFor_comes own).imp ?_)
  rintro _ shell' _ _ ⟨⟨status, rfl⟩, same, rfl, rfl⟩
  exact .idle (statusOfWait_keeps plain_idle status) fun _ _ same' => ⟨same'.trans same, rfl, rfl⟩

theorem reapQuietly_comes (own : pid ∈ children) :
    (Routine.reapQuietly pid).Comes Event.Lawful children shell fun _ =>
      Reaps children shell [pid] := by
  refine .bind ((waitFor_comes own).imp ?_)
  rintro _ shell' _ _ ⟨⟨status, rfl⟩, same, rfl, rfl⟩
  exact .done ⟨same, rfl, rfl⟩

theorem Reaps.append {first second : List Pid} {middle shell' : Shell}
    {children' children'' : Finset Pid} {tally tally' : Tally}
    (reaps : Reaps children shell first middle children' tally)
    (later : Reaps children' middle second shell' children'' tally') :
    Reaps children shell (first ++ second) shell' children'' (tally ++ tally') := by
  obtain ⟨same, rfl, rfl⟩ := reaps
  obtain ⟨same', rfl, rfl⟩ := later
  refine ⟨same'.trans same, ?_, by simp⟩
  ext pid
  simp [and_assoc]

theorem mem_behind_wait {pids : List Pid} (distinct : (pid :: pids).Nodup)
    (own : ∀ other ∈ pid :: pids, other ∈ children) :
    ∀ other ∈ pids, other ∈ children \ [pid].toFinset := by
  intro other membership
  have different : other ≠ pid := fun same => (List.nodup_cons.mp distinct).1 (same ▸ membership)
  simp [own other (List.mem_cons_of_mem _ membership), different]

theorem comes_each {σ : Type} {law : Finset Pid → Event → Prop} (each : σ → List Pid → Routine σ)
    {single : Pid → Routine σ} (nil : ∀ state, each state [] = pure state)
    (cons : ∀ state pid pids, each state (pid :: pids) = single pid >>= fun state =>
      each state pids)
    (reaps : ∀ {children shell pid}, pid ∈ children →
      (single pid).Comes law children shell fun _ => Reaps children shell [pid])
    {pids : List Pid} (distinct : pids.Nodup) (own : ∀ pid ∈ pids, pid ∈ children) (state : σ) :
    (each state pids).Comes law children shell fun _ => Reaps children shell pids := by
  induction pids generalizing children shell state with
  | nil =>
      rw [nil]
      exact .done ⟨rfl, by simp, rfl⟩
  | cons pid pids inductionHypothesis =>
      rw [cons]
      refine .bind ((reaps (own pid List.mem_cons_self)).imp ?_)
      rintro state middle _ _ ⟨same, rfl, rfl⟩
      refine (inductionHypothesis distinct.of_cons (mem_behind_wait distinct own) state).imp ?_
      intro _ shell' children' tally later
      exact Reaps.append ⟨same, rfl, rfl⟩ later

theorem reapQuietlyEach_comes {pids : List Pid} (distinct : pids.Nodup)
    (own : ∀ pid ∈ pids, pid ∈ children) :
    (reapQuietlyEach pids).Comes Event.Lawful children shell fun _ => Reaps children shell pids :=
  comes_each (fun _ => reapQuietlyEach) (fun _ => rfl) (fun _ _ _ => rfl) reapQuietly_comes distinct
    own ()

theorem waitEach_comes {pids : List Pid} (distinct : pids.Nodup)
    (own : ∀ pid ∈ pids, pid ∈ children) (status : Int) :
    (waitEach status pids).Comes Event.Lawful children shell fun _ => Reaps children shell pids :=
  comes_each waitEach (fun _ => rfl) (fun _ _ _ => rfl) waitChild_comes distinct own status

/-! Starting. -/

theorem Tallies.fork_error {child : Child} {errno : Errno} :
    Tallies children [⟨.fork child, .error errno⟩] children {} :=
  ⟨⟨trivial, trivial⟩, rfl, by cases child <;> rfl, by cases child <;> rfl, rfl⟩

theorem Routine.Comes.fork {child : Child}
    {post : Except Errno Pid → Shell → Finset Pid → Tally → Prop}
    (helper : ∀ command shell, child ≠ .job command shell)
    (failed : ∀ errno, post (.error errno) shell children {})
    (forked : ∀ pid, pid ∉ children →
      post (.ok pid) shell (insert pid children) { started := [pid] }) :
    (Routine.ask (.fork child)).Comes Event.Lawful children shell post := by
  refine .ask fun reply lawful => ?_
  match reply, lawful with
  | .error errno, _ => exact ⟨children, {}, .fork_error, failed errno⟩
  | .ok pid, fresh =>
      refine ⟨insert pid children, { started := [pid] }, ?_, forked pid fresh⟩
      cases child with
      | job command shell => exact absurd rfl (helper command shell)
      | _ => exact ⟨⟨trivial, trivial⟩, rfl, rfl, rfl, rfl⟩

/-- Processes were started, the latest first, besides those that were there already. -/
def Starts (children : Finset Pid) (pids : List Pid) (started : Started) (children' : Finset Pid)
    (tally : Tally) : Prop :=
  ∃ new, started.pids = new ++ pids ∧ children' = children ∪ new.toFinset ∧
    tally = { started := new.reverse } ∧ new.Nodup ∧ ∀ pid ∈ new, pid ∉ children

theorem starts_nothing (children : Finset Pid) (pids : List Pid) (complete : Bool) :
    Starts children pids ⟨pids, complete⟩ children {} :=
  ⟨[], rfl, by simp, rfl, List.nodup_nil, by simp⟩

theorem Starts.cons {pids : List Pid} {started : Started} {children' : Finset Pid} {tally : Tally}
    (fresh : pid ∉ children)
    (later : Starts (insert pid children) (pid :: pids) started children' tally) :
    Starts children pids started children' ({ started := [pid] } ++ tally) := by
  obtain ⟨new, whole, rfl, rfl, distinct, others⟩ := later
  have apart : pid ∉ new :=
    fun membership => others pid membership (Finset.mem_insert_self pid children)
  refine ⟨new ++ [pid], by simp [whole], ?_, by simp, ?_, ?_⟩
  · ext other
    simp only [Finset.mem_union, Finset.mem_insert, List.mem_toFinset, List.mem_append,
      List.mem_singleton]
    grind
  · exact List.nodup_append.mpr ⟨distinct, List.nodup_singleton pid, by grind⟩
  · intro other membership
    rcases List.mem_append.mp membership with inNew | last
    · exact fun own => others other inNew (Finset.mem_insert_of_mem own)
    · rw [List.mem_singleton.mp last]
      exact fresh

theorem startStages_comes (source : Option Descriptor) (pids : List Pid) (programs : List Program) :
    (startStages source pids programs).Comes Event.Lawful children shell
      fun started shell' children' tally =>
      shell'.jobs = shell.jobs ∧ Starts children pids started children' tally := by
  induction programs generalizing source pids children shell with
  | nil =>
      refine .bind (.idle (closeEnd_keeps plain_idle source) fun _ shell' same => ?_)
      exact .done ⟨same, starts_nothing children pids true⟩
  | cons program programs inductionHypothesis =>
      -- Where the pipe or the process cannot be had, the account ends with what was started before.
      refine .bind (.idle (openPipe_keeps plain_idle _) fun opened shell₁ same₁ => ?_)
      cases opened with
      | error errno =>
          refine .bind (.idle (complain_keeps plain_idle _) fun _ shell₂ same₂ => ?_)
          refine .bind (.idle (closeEnd_keeps plain_idle source) fun _ shell₃ same₃ => ?_)
          exact .done ⟨same₃.trans (same₂.trans same₁), starts_nothing children pids false⟩
      | ok target =>
          refine .bind (.idle Keeps.get fun given shell₂ same₂ => ?_)
          refine .bind (.fork (by simp) (fun errno => ?_) fun pid fresh => ?_)
          · refine .bind (.idle (complain_keeps plain_idle _) fun _ shell₃ same₃ => ?_)
            refine .bind (.idle (closePipe_keeps plain_idle target) fun _ shell₄ same₄ => ?_)
            refine .bind (.idle (closeEnd_keeps plain_idle source) fun _ shell₅ same₅ => ?_)
            exact .done ⟨same₅.trans (same₄.trans (same₃.trans (same₂.trans same₁))),
              starts_nothing children pids false⟩
          · refine .bind (.idle (closeEnd_keeps plain_idle _) fun _ shell₃ same₃ => ?_)
            refine .bind (.idle (closeEnd_keeps plain_idle source) fun _ shell₄ same₄ => ?_)
            refine (inductionHypothesis _ _).imp fun started shell' children' tally later => ?_
            exact ⟨later.1.trans (same₄.trans (same₃.trans (same₂.trans same₁))),
              later.2.cons fresh⟩

theorem forkEach_comes (name : String) (body : Script) (pids : List Pid) (values : List String) :
    (forkEach name body pids values).Comes Event.Lawful children shell
      fun started shell' children' tally =>
      shell'.jobs = shell.jobs ∧ Starts children pids started children' tally := by
  induction values generalizing pids children shell with
  | nil => exact .done ⟨rfl, starts_nothing children pids true⟩
  | cons value values inductionHypothesis =>
      refine .bind (.idle (Keeps.modify fun _ => rfl) fun _ shell₁ same₁ => ?_)
      refine .bind (.idle Keeps.get fun given shell₂ same₂ => ?_)
      refine .bind (.fork (by simp) (fun errno => ?_) fun pid fresh => ?_)
      · refine .bind (.idle (complain_keeps plain_idle _) fun _ shell₃ same₃ => ?_)
        exact .done ⟨same₃.trans (same₂.trans same₁), starts_nothing children pids false⟩
      · refine (inductionHypothesis _).imp fun started shell' children' tally later => ?_
        exact ⟨later.1.trans (same₂.trans same₁), later.2.cons fresh⟩

/-- All that was started has been waited for, and the jobs and the children are the same as
before. -/
def Evens (children : Finset Pid) (shell shell' : Shell) (children' : Finset Pid) (tally : Tally) :
    Prop :=
  shell'.jobs = shell.jobs ∧ children' = children ∧
    ∃ pids, tally = { started := pids, reaped := pids }

theorem evens_nothing {shell' : Shell} (same : shell'.jobs = shell.jobs) :
    Evens children shell shell' children {} :=
  ⟨same, rfl, [], rfl⟩

theorem Starts.evens {started : Started} {middle shell' : Shell} {children' children'' : Finset Pid}
    {tally tally' : Tally} (same : middle.jobs = shell.jobs)
    (starts : Starts children [] started children' tally)
    (reaps : Reaps children' middle started.pids.reverse shell' children'' tally') :
    Evens children shell shell' children'' (tally ++ tally') := by
  obtain ⟨new, whole, rfl, rfl, _, others⟩ := starts
  obtain ⟨same', rfl, rfl⟩ := reaps
  rw [List.append_nil] at whole
  refine ⟨same'.trans same, ?_, new.reverse, by simp [whole]⟩
  ext pid
  have apart := others pid
  simp only [whole, Finset.mem_sdiff, Finset.mem_union, List.mem_toFinset, List.mem_reverse]
  grind

theorem Starts.distinct {started : Started} {children' : Finset Pid} {tally : Tally}
    (starts : Starts children [] started children' tally) :
    started.pids.Nodup ∧ ∀ pid ∈ started.pids, pid ∈ children' := by
  obtain ⟨new, whole, rfl, _, distinct, _⟩ := starts
  rw [whole, List.append_nil]
  exact ⟨distinct, fun pid membership => by simp [membership]⟩

theorem runAtOnce_comes (name : String) (body : Script) (values : List String) :
    (runAtOnce name body values).Comes Event.Lawful children shell fun _ =>
      Evens children shell := by
  refine .bind ((forkEach_comes name body [] values).imp ?_)
  rintro started middle children' tally ⟨same, starts⟩
  obtain ⟨distinct, own⟩ := starts.distinct
  have waits := @waitEach_comes children' middle _ (List.nodup_reverse.mpr distinct)
    (fun pid membership => own pid (List.mem_reverse.mp membership)) Status.success
  refine .bind (waits.imp fun status shell' children'' tally' reaps => ?_)
  refine .done ?_
  simpa using starts.evens same reaps

theorem runPipeline_joined_comes {stages : Pipeline} (joined : stages.length ≠ 1) :
    (runPipeline stages).Comes Event.Lawful children shell fun _ => Evens children shell := by
  unfold runPipeline
  split
  · simp at joined
  · refine .bind ((startStages_comes none [] _).imp ?_)
    rintro ⟨pids, complete⟩ middle children' tally ⟨same, starts⟩
    obtain ⟨distinct, own⟩ := starts.distinct
    cases pids with
    | nil =>
        have none : Reaps children' middle [] middle children' {} := ⟨rfl, by simp, rfl⟩
        refine .done ?_
        simpa using starts.evens same none
    | cons last others =>
        have first := @reapQuietlyEach_comes children' middle others.reverse
          (List.nodup_reverse.mpr distinct.of_cons)
          (fun pid membership => own pid (List.mem_cons_of_mem _ (List.mem_reverse.mp membership)))
        refine .bind (first.imp ?_)
        rintro _ shell₁ _ _ ⟨same₁, rfl, rfl⟩
        have apart : last ∈ children' \ others.reverse.toFinset := by
          simp [own last List.mem_cons_self, (List.nodup_cons.mp distinct).1]
        refine .bind ((waitChild_comes apart).imp ?_)
        rintro status shell₂ _ _ ⟨same₂, rfl, rfl⟩
        have reaps : Reaps children' middle (others.reverse ++ [last]) shell₂ _ _ :=
          Reaps.append ⟨same₁, rfl, rfl⟩ ⟨same₂, rfl, rfl⟩
        rw [← List.reverse_cons] at reaps
        refine .done ?_
        simpa using starts.evens same reaps

end CommandShell
