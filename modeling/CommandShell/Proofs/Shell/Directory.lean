import CommandShell.Proofs.Shell.StatusRange
import CommandShell.Proofs.Store.Map

/-!
What the commands of the shell leave behind. One that fails leaves the state of the shell as it was;
`cd`, if it succeeds, has gone to its directory and changes nothing but the variable `PWD`.
-/

namespace CommandShell

/-- The directories in which a process can be: where a path leads from one of them, and the path of
each, if that is a text. -/
structure Directories where
  Place : Type
  enter : Place → String → Place
  path : Place → Option String

namespace Directories

variable (directories : Directories)

/-- Where a process is behind an event. -/
def behind (place : directories.Place) : Event → directories.Place
  | ⟨.changeDirectory path, .ok ()⟩ => directories.enter place path
  | _ => place

def after (place : directories.Place) (events : List Event) : directories.Place :=
  events.foldl directories.behind place

/-- A process that asks where it is, and gets an answer, is told so. -/
def Tells (place : directories.Place) : Event → Prop
  | ⟨.currentDirectory, .ok path⟩ => path = directories.path place
  | _ => True

def Truthful (place : directories.Place) : List Event → Prop
  | [] => True
  | event :: events =>
      directories.Tells place event ∧ Truthful (directories.behind place event) events

/-- By way of the events, `cd` has gone to where a path leads. Nothing but the variable `PWD` has
changed. -/
structure Arrives (place : directories.Place) (target : String) (shell : Shell)
    (events : List Event) (shell' : Shell) : Prop where
  there : directories.after place events = directories.enter place target
  path : shell'.store.get? "PWD" =
    some ((directories.path (directories.enter place target)).getD "")
  others : ∀ name, recordKey name ≠ "PWD" → shell'.store.get? name = shell.store.get? name
  fields : shell' = { shell with store := shell'.store }

variable {directories} {place : directories.Place}

theorem after_append (first second : List Event) :
    directories.after place (first ++ second) = directories.after (directories.after place first)
      second :=
  List.foldl_append

theorem after_of_writes {events : List Event}
    (writes : ∀ event ∈ events, ∃ stream text reply, event = ⟨.write stream text, reply⟩) :
    directories.after place events = place := by
  induction events with
  | nil => rfl
  | cons event events inductionHypothesis =>
      obtain ⟨stream, text, reply, rfl⟩ := writes event List.mem_cons_self
      apply inductionHypothesis
      intro event membership
      exact writes event (List.mem_cons_of_mem _ membership)

/-- Directories by the names on the way to them. Of one of the names, the path is no text. -/
def ofNames : Directories where
  Place := List String
  enter place path := if path = ".." then place.dropLast else place ++ [path]
  path place := if "odd" ∈ place then none else some ("/" ++ "/".intercalate place)

end Directories

/-- A process went to a directory and could not learn its path. -/
def Stranded (events : List Event) : Prop :=
  ∃ target failure, ⟨.changeDirectory target, .ok ()⟩ ∈ events ∧
    ⟨.currentDirectory, .error failure⟩ ∈ events

namespace Builtin

variable {shell shell' : Shell} {events : List Event} {arguments : List String}

/-- The ways in which `cd` comes to an end. -/
inductive Changes (arguments : List String) (shell : Shell) :
    List Event → Except Fault Unit → Shell → Prop where
  | homeless {cause : Fault} (unset : cdTarget arguments shell.store = .error cause) :
      Changes arguments shell [] (.error cause) shell
  | refused {target : String} (errno : Errno)
      (found : cdTarget arguments shell.store = .ok target) :
      Changes arguments shell [⟨.changeDirectory target, .error errno⟩] (.error (.call errno)) shell
  | stranded {target : String} (failure : StreamFailure)
      (found : cdTarget arguments shell.store = .ok target) :
      Changes arguments shell [⟨.changeDirectory target, .ok ()⟩,
        ⟨.currentDirectory, .error failure⟩]
        (.error (.stream failure)) shell
  | arrived {target : String} (path : Option String)
      (found : cdTarget arguments shell.store = .ok target) :
      Changes arguments shell [⟨.changeDirectory target, .ok ()⟩, ⟨.currentDirectory, .ok path⟩]
        (.ok ())
        (shell.setVariable "PWD" path)

theorem changeDirectory_leads {outcome : Except Fault Unit} :
    (changeDirectory arguments).Leads shell events outcome shell' ↔
      Changes arguments shell events outcome shell' := by
  constructor
  · intro leads
    rw [changeDirectory, Routine.leads_get_bind] at leads
    cases found : cdTarget arguments shell.store with
    | error cause =>
        rw [found] at leads
        obtain ⟨rfl, rfl, rfl⟩ := Routine.leads_fail.mp leads
        exact .homeless found
    | ok target =>
        rw [found] at leads
        obtain ⟨reply, _, rfl, moved⟩ := Routine.leads_ask_bind.mp leads
        cases reply with
        | error errno =>
            obtain ⟨rfl, rfl, rfl⟩ := Routine.leads_fail.mp moved
            exact .refused errno found
        | ok =>
            obtain ⟨reply, _, rfl, told⟩ := Routine.leads_ask_bind.mp moved
            cases reply with
            | error failure =>
                obtain ⟨rfl, rfl, rfl⟩ := Routine.leads_fail.mp told
                exact .stranded failure found
            | ok path =>
                obtain ⟨rfl, rfl, rfl⟩ := Routine.leads_modify.mp told
                exact .arrived path found
  · intro changes
    rw [changeDirectory, Routine.leads_get_bind]
    cases changes with
    | homeless unset =>
        rw [unset]
        exact Routine.leads_fail.mpr ⟨rfl, rfl, rfl⟩
    | refused errno found =>
        rw [found]
        refine Routine.leads_ask_bind.mpr ⟨.error errno, [], rfl, ?_⟩
        exact Routine.leads_fail.mpr ⟨rfl, rfl, rfl⟩
    | stranded failure found =>
        rw [found]
        refine Routine.leads_ask_bind.mpr ⟨.ok (), _, rfl, ?_⟩
        refine Routine.leads_ask_bind.mpr ⟨.error failure, [], rfl, ?_⟩
        exact Routine.leads_fail.mpr ⟨rfl, rfl, rfl⟩
    | arrived path found =>
        rw [found]
        refine Routine.leads_ask_bind.mpr ⟨.ok (), _, rfl, ?_⟩
        refine Routine.leads_ask_bind.mpr ⟨.ok path, [], rfl, ?_⟩
        exact Routine.leads_modify.mpr ⟨rfl, rfl, rfl⟩

theorem print_leads {line : String} {outcome : Except Fault Unit}
    (leads : (Routine.print line).Leads shell events outcome shell') :
    shell' = shell ∧ ∃ reply, events = [⟨.write .output (line ++ "\n"), reply⟩] := by
  obtain ⟨reply, _, rfl, told⟩ := Routine.leads_ask_bind.mp leads
  cases reply with
  | error failure =>
      obtain ⟨rfl, _, rfl⟩ := Routine.leads_fail.mp told
      exact ⟨rfl, _, rfl⟩
  | ok =>
      obtain ⟨rfl, _, rfl⟩ := Routine.leads_pure.mp told
      exact ⟨rfl, _, rfl⟩

theorem printEach_leads {lines : List String} {outcome : Except Fault Unit}
    (leads : (printEach lines).Leads shell events outcome shell') :
    shell' = shell ∧ ∀ event ∈ events, ∃ stream text reply,
      event = ⟨.write stream text, reply⟩ := by
  induction lines generalizing events with
  | nil =>
      obtain ⟨rfl, _, rfl⟩ := Routine.leads_pure.mp leads
      exact ⟨rfl, by simp⟩
  | cons line lines inductionHypothesis =>
      rcases Routine.leads_bind.mp leads with ⟨_, _, _, _, rfl, printed, later⟩ | ⟨_, printed, _⟩
      · obtain ⟨rfl, reply, rfl⟩ := print_leads printed
        obtain ⟨rfl, writes⟩ := inductionHypothesis later
        refine ⟨rfl, ?_⟩
        intro event membership
        rcases List.mem_cons.mp membership with rfl | membership
        · exact ⟨_, _, _, rfl⟩
        · exact writes event membership
      · obtain ⟨rfl, reply, rfl⟩ := print_leads printed
        refine ⟨rfl, ?_⟩
        intro event membership
        exact ⟨_, _, _, List.mem_singleton.mp membership⟩

theorem settle_leads_ok {name : String} {routine : Routine Unit} {status : Int} :
    (settle name routine).Leads shell events (.ok status) shell' ↔
      routine.Leads shell events (.ok ()) shell' ∧ status = Status.success ∨
      ∃ cause first, (∀ code, cause ≠ .exit code) ∧
        routine.Leads shell first (.error cause) shell' ∧
        events = first ++ [⟨.write .errors (name ++ ": " ++ cause.message ++ "\n"), .ok ()⟩] ∧
        status = cause.number := by
  rw [settle, Routine.leads_attempt_bind]
  constructor
  · rintro ⟨first, second, inner, middle, rfl, leads, later⟩
    split at later
    · obtain ⟨rfl, same, rfl⟩ := Routine.leads_pure.mp later
      exact Or.inl ⟨by simpa using leads, Except.ok.inj same⟩
    · simp [Routine.leads_fail] at later
    · next cause other =>
      obtain ⟨_, _, _, _, rfl, complained, ended⟩ := Routine.leads_bind_ok.mp later
      obtain ⟨rfl, _, rfl⟩ := Routine.leads_tell.mp complained
      obtain ⟨rfl, same, rfl⟩ := Routine.leads_pure.mp ended
      exact Or.inr ⟨cause, first, other, leads, by simp, Except.ok.inj same⟩
  · rintro (⟨leads, rfl⟩ | ⟨cause, first, other, leads, rfl, rfl⟩)
    · exact ⟨events, [], _, shell', by simp, leads, Routine.leads_pure.mpr ⟨rfl, rfl, rfl⟩⟩
    · have complained :
          (Routine.complain (name ++ ": " ++ cause.message) >>= fun _ => pure cause.number).Leads
          shell' [⟨.write .errors (name ++ ": " ++ cause.message ++ "\n"), .ok ()⟩]
          (.ok cause.number) shell' := by
        refine Routine.leads_bind_pure.mpr ⟨.ok (), ?_, rfl⟩
        exact Routine.leads_tell.mpr ⟨rfl, rfl, rfl⟩
      refine ⟨first, _, _, shell', rfl, leads, ?_⟩
      split
      · contradiction
      · next code same => exact absurd (Except.error.inj same) (other code)
      · next _ _ same =>
        obtain rfl := Except.error.inj same
        exact complained

/-- A command that fails has changed nothing, and is where it was unless it is stranded
elsewhere. -/
theorem perform_leads_error {builtin : Builtin} {cause : Fault}
    (leads : (builtin.perform arguments).Leads shell events (.error cause) shell') :
    shell' = shell ∧ ∀ (directories : Directories) (place : directories.Place),
      ¬ Stranded events → directories.after place events = place := by
  cases builtin with
  | exit =>
      obtain ⟨rfl, _, rfl⟩ := Routine.leads_fail.mp leads
      exact ⟨rfl, fun _ _ _ => rfl⟩
  | cd =>
      cases changeDirectory_leads.mp leads with
      | homeless => exact ⟨rfl, fun _ _ _ => rfl⟩
      | refused => exact ⟨rfl, fun _ _ _ => rfl⟩
      | stranded failure found =>
          refine ⟨rfl, fun _ _ settled => absurd ?_ settled⟩
          exact ⟨_, failure, List.mem_cons_self, List.mem_cons_of_mem _ List.mem_cons_self⟩
  | jobs | help =>
      obtain ⟨rfl, writes⟩ := printEach_leads leads
      exact ⟨rfl, fun _ _ _ => Directories.after_of_writes writes⟩

theorem cdTarget_eq_error {store : Store} {cause : Fault}
    (unset : cdTarget arguments store = .error cause) :
    cause = .homeUnset := by
  unfold cdTarget at unset
  split at unset
  · contradiction
  · split at unset
    · contradiction
    · exact (Except.error.inj unset).symm

/-- The number of what `cd` fails with is not that of success, if the system has numbers for its
errors. -/
theorem number_ne_of_changes {cause : Fault}
    (changes : Changes arguments shell events (.error cause) shell')
    (regular : ∀ event ∈ events, event.Regular) : cause.number ≠ Status.success := by
  cases changes with
  | homeless unset =>
      rw [cdTarget_eq_error unset]
      decide
  | refused errno =>
      have numbered : errno.Regular := regular _ List.mem_cons_self
      exact Int.ne_of_gt numbered.1
  | stranded failure =>
      have numbered : failure.Regular := regular _ (List.mem_cons_of_mem _ List.mem_cons_self)
      cases failure with
      | system errno => exact Int.ne_of_gt numbered.1
      | custom text => simp [Fault.number, StreamFailure.number, Status.success, Errno.inputOutput]

theorem cdTarget_eq_ok {target : String} {store : Store}
    (found : cdTarget arguments store = .ok target) :
    arguments[1]?.or (store.get? "HOME") = some target := by
  unfold cdTarget at found
  split at found
  · next path given =>
    rw [given, Option.some_or, Except.ok.inj found]
  · next missing =>
    rw [missing, Option.none_or]
    split at found
    · next home stored => rw [stored, Except.ok.inj found]
    · contradiction

theorem arrives_of_changes {directories : Directories} {place : directories.Place}
    (changes : Changes arguments shell events (.ok ()) shell')
    (truthful : directories.Truthful place events) :
    ∃ target, arguments[1]?.or (shell.store.get? "HOME") = some target ∧
      directories.Arrives place target shell events shell' := by
  cases changes with
  | @arrived target path found =>
      refine ⟨target, cdTarget_eq_ok found, rfl, ?_, ?_, rfl⟩
      · obtain rfl : path = directories.path (directories.enter place target) := truthful.2.1
        exact Store.get?_set ..
      · intro name other
        rw [← Store.recordKey_of_not_mem (show '=' ∉ "PWD".toList by decide)] at other
        exact Store.get?_set_of_ne other ..

theorem run_leads_ok {status : Int}
    (leads : (run arguments).Leads shell events (.ok status) shell') :
    (status = Status.success ∧ ∃ builtin, ofName? (arguments.headD "") = some builtin ∧
      (builtin.perform arguments).Leads shell events (.ok ()) shell') ∨
    ∃ cause first stream text, status = cause.number ∧
      events = first ++ [⟨.write stream text, .ok ()⟩] ∧
      ((∃ builtin, ofName? (arguments.headD "") = some builtin ∧
        (builtin.perform arguments).Leads shell first (.error cause) shell') ∨
        ofName? (arguments.headD "") = none ∧ first = [] ∧ shell' = shell) := by
  rw [run, settle_leads_ok] at leads
  rcases leads with ⟨performed, rfl⟩ | ⟨cause, first, _, failed, rfl, rfl⟩
  · split at performed
    · next builtin found => exact Or.inl ⟨rfl, builtin, found, performed⟩
    · simp [Routine.leads_fail] at performed
  · refine Or.inr ⟨cause, first, _, _, rfl, rfl, ?_⟩
    split at failed
    · next builtin found => exact Or.inl ⟨builtin, found, failed⟩
    · next unknown =>
      obtain ⟨rfl, _, rfl⟩ := Routine.leads_fail.mp failed
      exact Or.inr ⟨unknown, rfl, rfl⟩

theorem ofName?_headD_cd (named : arguments.head? = some "cd") :
    ofName? (arguments.headD "") = some .cd := by
  rw [List.headD_eq_head?_getD, named]
  rfl

/-- A command of the shell that comes to a status other than zero leaves the state as it was, and
the directory too if that was not changed to one whose path cannot be read. If `cd` comes to zero,
it has gone to the directory that was asked for, and `PWD` has the path of that, or nothing where
the path is no text. -/
theorem run_settles {status : Int} (leads : (run arguments).Leads shell events (.ok status) shell')
    (directories : Directories) (place : directories.Place) :
    (status ≠ 0 → shell' = shell ∧ (¬ Stranded events → directories.after place events = place)) ∧
    (arguments.head? = some "cd" → directories.Truthful place events →
      (∀ event ∈ events, event.Regular) →
      status = 0 → ∃ target, arguments[1]?.or (shell.store.get? "HOME") = some target ∧
        directories.Arrives place target shell events shell') := by
  rcases run_leads_ok leads with ⟨rfl, builtin, found, performed⟩ |
    ⟨cause, first, stream, text, rfl, rfl, failed⟩
  · constructor
    · intro failed
      exact absurd rfl failed
    · intro named truthful _ _
      obtain rfl := Option.some.inj (found.symm.trans (ofName?_headD_cd named))
      exact arrives_of_changes (changeDirectory_leads.mp performed) truthful
  · constructor
    · intro _
      rcases failed with ⟨builtin, _, failed⟩ | ⟨_, rfl, rfl⟩
      · obtain ⟨rfl, stays⟩ := perform_leads_error failed
        refine ⟨rfl, fun settled => ?_⟩
        rw [Directories.after_append]
        apply stays directories place
        rintro ⟨target, failure, moved, untold⟩
        exact settled ⟨target, failure, List.mem_append_left _ moved, List.mem_append_left _ untold⟩
      · exact ⟨rfl, fun _ => rfl⟩
    · intro named _ regular zero
      rcases failed with ⟨builtin, found, failed⟩ | ⟨unknown, _⟩
      · obtain rfl := Option.some.inj (found.symm.trans (ofName?_headD_cd named))
        refine absurd zero (number_ne_of_changes (changeDirectory_leads.mp failed) ?_)
        intro event membership
        exact regular event (List.mem_append_left _ membership)
      · rw [ofName?_headD_cd named] at unknown
        contradiction

theorem run_settles_home :
    let shell := Shell.start {} [("HOME", "home")]
    let events : List Event :=
      [⟨.changeDirectory "home", .ok ()⟩, ⟨.currentDirectory, .ok (some "/home")⟩]
    (run ["cd"]).Leads shell events (.ok 0) (shell.setVariable "PWD" (some "/home")) ∧
      Directories.ofNames.Arrives [] "home" shell events
        (shell.setVariable "PWD" (some "/home")) := by
  intro shell events
  have leads : (run ["cd"]).Leads shell events (.ok 0) (shell.setVariable "PWD" (some "/home")) :=
    settle_leads_ok.mpr (Or.inl ⟨changeDirectory_leads.mpr (.arrived _ rfl), rfl⟩)
  have truthful : Directories.ofNames.Truthful [] events := by
    simp [events, Directories.Truthful, Directories.Tells, Directories.behind, Directories.ofNames]
  have regular : ∀ event ∈ events, event.Regular := by
    simp [events, Event.Regular]
  obtain ⟨target, asked, arrives⟩ := (run_settles leads .ofNames []).2 rfl truthful regular rfl
  obtain rfl : target = "home" := Option.some.inj (asked.symm.trans rfl)
  exact ⟨leads, arrives⟩

/-- A failing `cd` can have gone elsewhere, and one that succeeds can leave `PWD` without a path. -/
theorem run_cd_unsettled :
    let shell := Shell.start {} [("PWD", "/d/e")]
    let place : Directories.ofNames.Place := ["d", "e"]
    (∃ events, (run ["cd", ".."]).Leads shell events (.ok 2) shell ∧
      Directories.ofNames.Truthful place events ∧ (∀ event ∈ events, event.Regular) ∧
      Directories.ofNames.after place events ≠ place) ∧
    ∃ events shell', (run ["cd", "odd"]).Leads shell events (.ok 0) shell' ∧
      Directories.ofNames.Truthful place events ∧ (∀ event ∈ events, event.Regular) ∧
      Directories.ofNames.after place events = ["d", "e", "odd"] ∧
        shell'.store.get? "PWD" = some "" := by
  intro shell place
  constructor
  · have stranded : Changes ["cd", ".."] shell _ _ shell := .stranded (.system .noEntry) rfl
    refine ⟨_,
      settle_leads_ok.mpr (Or.inr ⟨_, _, by simp, changeDirectory_leads.mpr stranded, rfl, rfl⟩),
      ?_, ?_, ?_⟩
    · simp [place, Directories.Truthful, Directories.Tells, Directories.ofNames]
    · simp [Event.Regular, StreamFailure.Regular, Errno.Regular, Errno.noEntry]
    · simp [place, Directories.after, Directories.behind, Directories.ofNames]
  · have arrived : Changes ["cd", "odd"] shell _ _ _ := .arrived none rfl
    refine ⟨_, _, settle_leads_ok.mpr (Or.inl ⟨changeDirectory_leads.mpr arrived, rfl⟩), ?_, ?_, ?_,
      ?_⟩
    · simp [place, Directories.Truthful, Directories.Tells, Directories.behind, Directories.ofNames]
    · simp [Event.Regular]
    · simp [place, Directories.after, Directories.behind, Directories.ofNames]
    · exact Store.get?_set ..

end Builtin

end CommandShell
