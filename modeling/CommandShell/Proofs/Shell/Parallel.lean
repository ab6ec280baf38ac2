import CommandShell.Proofs.Shell.Runs
import CommandShell.Proofs.Shell.Writes
import CommandShell.Shell.Child

/-!
The rounds of a parallel loop. Each is a process that is given the state of the shell with its own
value in the variable of the loop, although the shell changes the variable for one round after the
other. The main result gives all runs of such a loop: how far the processes can be started, and what
becomes of the status and of the variable.
-/

namespace CommandShell

theorem Shell.setVariable_setVariable (shell : Shell) (name : String)
    (value value' : Option String) :
    (shell.setVariable name value).setVariable name value' = shell.setVariable name value' := by
  simp only [setVariable, Store.set_set]

/-- The state in which a variable has had values in turn. -/
def Shell.bindLast (shell : Shell) (name : String) (values : List String) : Shell :=
  values.getLast?.elim shell fun value => shell.setVariable name (some value)

theorem Shell.bindLast_cons (shell : Shell) (name value : String) (values : List String) :
    shell.bindLast name (value :: values) = (shell.setVariable name (some value)).bindLast name
      values := by
  cases values with
  | nil => rfl
  | cons next values => simp [bindLast, List.getLast?_cons, setVariable_setVariable]

/-- The process for one value of a loop. -/
def Child.round (name : String) (body : Script) (shell : Shell) (value : String) : Child :=
  .iteration body (shell.setVariable name (some value))

theorem Child.round_setVariable (name : String) (body : Script) (shell : Shell) (value : String) :
    round name body (shell.setVariable name (some value)) = round name body shell := by
  funext value'
  rw [round, round, Shell.setVariable_setVariable]

/-- The events in which processes are started. -/
def forks (children : List Child) (pids : List Pid) : List Event :=
  List.zipWith (fun child pid => ⟨.fork child, .ok pid⟩) children pids

variable {name : String} {body : Script} {shell shell' : Shell} {events : List Event}

theorem forkEach_leads {pids : List Pid} {values : List String} {outcome : Except Fault Started} :
    (forkEach name body pids values).Leads shell events outcome shell' ↔
      (∃ new, new.length = values.length ∧
        events = forks (values.map (.round name body shell)) new ∧
        outcome = .ok ⟨new.reverse ++ pids, true⟩ ∧ shell' = shell.bindLast name values) ∨
      ∃ reached value rest new errno, values = reached ++ value :: rest ∧
        new.length = reached.length ∧
        events = forks (reached.map (.round name body shell)) new ++
          forkFails (.round name body shell value) errno ∧
        outcome = .ok ⟨new.reverse ++ pids, false⟩ ∧
        shell' = shell.setVariable name (some value) := by
  induction values generalizing shell events pids with
  | nil =>
      rw [forkEach, Routine.leads_pure]
      constructor
      · rintro ⟨rfl, rfl, rfl⟩
        exact Or.inl ⟨[], rfl, rfl, rfl, rfl⟩
      · rintro (⟨new, length, rfl, rfl, rfl⟩ | ⟨reached, _, _, _, _, impossible, _⟩)
        · obtain rfl := List.eq_nil_of_length_eq_zero length
          exact ⟨rfl, rfl, rfl⟩
        · simp at impossible
  | cons value values inductionHypothesis =>
      rw [forkEach, Routine.leads_modify_bind, Routine.leads_get_bind, Routine.leads_ask_bind]
      constructor
      · rintro ⟨reply, rest, rfl, later⟩
        rcases reply with errno | pid
        · obtain ⟨_, ⟨rfl, rfl⟩, rfl, rfl⟩ := (Routine.telling_runs _ _ _ _ _ _).mp later
          exact Or.inr ⟨[], value, values, [], errno, rfl, rfl, rfl, rfl, rfl⟩
        · rcases inductionHypothesis.mp later with ⟨new, length, rfl, rfl, rfl⟩ |
            ⟨reached, failed, unused, new, errno, rfl, length, rfl, rfl, rfl⟩
          · refine Or.inl ⟨pid :: new, by simp [length], ?_, by simp, (shell.bindLast_cons ..).symm⟩
            rw [Child.round_setVariable]
            rfl
          · refine Or.inr ⟨value :: reached, failed, unused, pid :: new, errno, rfl,
              by simp [length], ?_, by simp, shell.setVariable_setVariable ..⟩
            rw [Child.round_setVariable]
            rfl
      · rintro (⟨new, length, rfl, rfl, rfl⟩ |
          ⟨reached, failed, unused, new, errno, whole, length, rfl, rfl, rfl⟩)
        · obtain ⟨pid, new, rfl⟩ := List.exists_cons_of_length_eq_add_one length
          refine ⟨.ok pid, forks (values.map (.round name body shell)) new, rfl,
            inductionHypothesis.mpr ?_⟩
          refine Or.inl ⟨new, by simpa using length, ?_, by simp, shell.bindLast_cons ..⟩
          rw [Child.round_setVariable]
        · cases reached with
          | nil =>
              obtain ⟨rfl, rfl⟩ := List.cons.inj whole
              obtain rfl := List.eq_nil_of_length_eq_zero length
              refine ⟨.error errno, _, rfl, (Routine.telling_runs _ _ _ _ _ _).mpr ?_⟩
              exact ⟨_, ⟨rfl, rfl⟩, rfl, rfl⟩
          | cons _ reached =>
              obtain ⟨rfl, rfl⟩ := List.cons.inj whole
              obtain ⟨pid, new, rfl⟩ := List.exists_cons_of_length_eq_add_one length
              refine ⟨.ok pid, _, rfl, inductionHypothesis.mpr (Or.inr ?_)⟩
              refine ⟨reached, failed, unused, new, errno, rfl, by simpa using length, ?_, by simp,
                (shell.setVariable_setVariable ..).symm⟩
              rw [Child.round_setVariable]
              rfl

theorem runAtOnce_leads {values : List String} {outcome : Except Fault Int} :
    (runAtOnce name body values).Leads shell events outcome shell' ↔
      ∃ started first waiting replies, events = first ++ waiting ∧
        (forkEach name body [] values).Leads shell first (.ok started) shell' ∧
        WaitsEach noticeOfWait started.pids.reverse waiting replies ∧
        outcome =
          .ok (if started.complete then lastStatus Status.success replies else Status.failure) := by
  have rest (started : Started) (middle : Shell) :
      (waitEach Status.success started.pids.reverse >>= fun status =>
        pure (if started.complete then status else Status.failure)).Runs middle fun events result =>
          ∃ replies, WaitsEach noticeOfWait started.pids.reverse events replies ∧
            result =
              if started.complete then lastStatus Status.success replies else Status.failure := by
    refine ((waitEach_runs _ _).bind _ fun status => .done _).congr ?_
    intro events result
    constructor
    · rintro ⟨waiting, _, _, rfl, ⟨replies, waits, rfl⟩, rfl, rfl⟩
      exact ⟨replies, by simpa using waits, rfl⟩
    · rintro ⟨replies, waits, rfl⟩
      exact ⟨events, [], _, by simp, ⟨replies, waits, rfl⟩, rfl, rfl⟩
  rw [runAtOnce, Routine.leads_bind]
  constructor
  · rintro (⟨first, waiting, started, middle, rfl, forked, later⟩ | ⟨cause, failed, _⟩)
    · obtain ⟨_, ⟨replies, waits, rfl⟩, rfl, rfl⟩ := (rest started middle _ _ _).mp later
      exact ⟨started, first, waiting, replies, rfl, forked, waits, rfl⟩
    · rcases forkEach_leads.mp failed with ⟨_, _, _, impossible, _⟩ |
        ⟨_, _, _, _, _, _, _, _, impossible, _⟩ <;> cases impossible
  · rintro ⟨started, first, waiting, replies, rfl, forked, waits, rfl⟩
    refine Or.inl ⟨first, waiting, started, _, rfl, forked, (rest started _ _ _ _).mpr ?_⟩
    exact ⟨_, ⟨replies, waits, rfl⟩, rfl, rfl⟩

/-- All runs of a parallel loop. The processes for the values are started in order, and all of them
before any is waited for; each is given the state as it was, but for the variable. If all were
started the last one decides the status, and if one could not be, its value is left in the
variable. -/
theorem runCommand_parallel (binder : Word) (values : List Word) (body : Script) (shell : Shell)
    (events : List Event) (outcome : Except Fault Int) (shell' : Shell) :
    let name := binder.text
    let arguments := Expansion.arguments shell.store values
    let round value := Child.iteration body (shell.setVariable name (some value))
    (∀ value, (round value).work = finish body.run (shell.setVariable name (some value)) ∧
      ∀ other, (shell.setVariable name (some value)).store.get? other =
        if recordKey other = recordKey name then some value else shell.store.get? other) ∧
    ((runCommand (.loop true binder values body)).Leads shell events outcome shell' ↔
      ∃ pids waiting replies, WaitsEach noticeOfWait pids waiting replies ∧
        ((pids.length = arguments.length ∧ events = forks (arguments.map round) pids ++ waiting ∧
            outcome = .ok (lastStatus Status.success replies) ∧
              shell' = shell.bindLast name arguments) ∨
          ∃ reached value rest errno, arguments = reached ++ value :: rest ∧
            pids.length = reached.length ∧
            events = forks (reached.map round) pids ++ forkFails (round value) errno ++ waiting ∧
            outcome = .ok Status.failure ∧ shell' = shell.setVariable name (some value))) := by
  intro name arguments round
  refine ⟨fun value => ⟨rfl, fun other => ?_⟩, ?_⟩
  · exact shell.store.get?_set_eq name other value
  rw [runCommand, Routine.leads_get_bind]
  refine runAtOnce_leads.trans ⟨?_, ?_⟩
  · rintro ⟨started, first, waiting, replies, rfl, forked, waits, rfl⟩
    rcases forkEach_leads.mp forked with ⟨pids, length, rfl, same, rfl⟩ |
      ⟨reached, value, unused, pids, errno, whole, length, rfl, same, rfl⟩
    · obtain rfl := Except.ok.inj same
      exact ⟨pids, waiting, replies, by simpa using waits, Or.inl ⟨length, rfl, rfl, rfl⟩⟩
    · obtain rfl := Except.ok.inj same
      refine ⟨pids, waiting, replies, by simpa using waits, Or.inr ?_⟩
      exact ⟨reached, value, unused, errno, whole, length, rfl, rfl, rfl⟩
  · rintro ⟨pids, waiting, replies, waits, ⟨length, rfl, rfl, rfl⟩ |
      ⟨reached, value, unused, errno, whole, length, rfl, rfl, rfl⟩⟩
    · refine ⟨⟨pids.reverse, true⟩, _, waiting, replies, rfl, forkEach_leads.mpr (Or.inl ?_),
        by simpa using waits, rfl⟩
      exact ⟨pids, length, rfl, by simp, rfl⟩
    · refine ⟨⟨pids.reverse, false⟩, _, waiting, replies, rfl, forkEach_leads.mpr (Or.inr ?_),
        by simpa using waits, rfl⟩
      exact ⟨reached, value, unused, pids, errno, whole, length, rfl, by simp, rfl⟩

end CommandShell
