import CommandShell.Proofs.Shell.Process
import CommandShell.Proofs.Shell.Runs
import Mathlib.Logic.Function.Basic

/-!
An account of the open files of a process, told from the calls it makes. A forked process begins
with the files of the process that starts it. The replies are taken to be those of an operating
system that gives a pipe two numbers at which nothing is open, and not those of the standard input
and output.
-/

namespace CommandShell

/-- Each event is as it should be, for what has come before it. -/
def Throughout (holds : List Event → Event → Prop) (events : List Event) : Prop :=
  ∀ before event after, events = before ++ event :: after → holds before event

section Throughout

variable {holds holds' : List Event → Event → Prop} {event : Event}
  {events first second : List Event}

theorem throughout_nil : Throughout holds [] := by
  intro before event after impossible
  simp at impossible

theorem throughout_cons :
    Throughout holds (event :: events) ↔
      holds [] event ∧ Throughout (fun before => holds (event :: before)) events := by
  constructor
  · intro throughout
    refine ⟨throughout [] event events rfl, ?_⟩
    intro before event' after same
    exact throughout (event :: before) event' after (by rw [same, List.cons_append])
  · rintro ⟨here, later⟩ before event' after same
    cases before with
    | nil =>
        obtain ⟨rfl, _⟩ := List.cons.inj same
        exact here
    | cons event'' before =>
        obtain ⟨rfl, rest⟩ := List.cons.inj same
        exact later before event' after rest

theorem throughout_append :
    Throughout holds (first ++ second) ↔
      Throughout holds first ∧ Throughout (fun before => holds (first ++ before)) second := by
  induction first generalizing holds with
  | nil => simp [throughout_nil]
  | cons event first inductionHypothesis =>
      rw [List.cons_append, throughout_cons, throughout_cons, inductionHypothesis, and_assoc]
      rfl

theorem Throughout.imp (throughout : Throughout holds events)
    (weaker : ∀ before event, event ∈ events → holds before event → holds' before event) :
    Throughout holds' events := by
  intro before event after same
  refine weaker before event ?_ (throughout before event after same)
  rw [same]
  exact List.mem_append_right before List.mem_cons_self

theorem throughout_of_forall (always : ∀ before, ∀ event ∈ events, holds before event) :
    Throughout holds events := by
  intro before event after same
  refine always before event ?_
  rw [same]
  exact List.mem_append_right before List.mem_cons_self

end Throughout

/-- A file that is open. Pipes are told apart by the order in which they were made. -/
inductive Holding where
  /-- What was open at a number in the beginning. -/
  | own (descriptor : Descriptor)
  | readEnd (pipe : Nat)
  | writeEnd (pipe : Nat)
  deriving DecidableEq, Repr

/-- The open files of a process at their numbers, and how many pipes have been made. -/
structure OpenFiles where
  held : Descriptor → Option Holding
  made : Nat

/-- There is nothing open at a number, and it is not that of the standard input or output. -/
def Free (held : Descriptor → Option Holding) (descriptor : Descriptor) : Prop :=
  held descriptor = none ∧ descriptor ≠ Descriptor.input ∧ descriptor ≠ Descriptor.output

namespace OpenFiles

/-- The files before any pipe is made. -/
def start (isOpen : Descriptor → Bool) : OpenFiles where
  held descriptor := if isOpen descriptor then some (.own descriptor) else none
  made := 0

/-- The files behind an event. -/
def after (files : OpenFiles) : Event → OpenFiles
  | ⟨.openPipe, .ok pipe⟩ =>
    { held := Function.update (Function.update files.held pipe.readEnd (some (.readEnd files.made)))
        pipe.writeEnd (some (.writeEnd files.made))
      made := files.made + 1 }
  | ⟨.close descriptor, _⟩ => { files with held := Function.update files.held descriptor none }
  | ⟨.duplicate source target, .ok _⟩ =>
    { files with held := Function.update files.held target (files.held source) }
  | _ => files

/-- The files behind some events. -/
def behind (files : OpenFiles) (events : List Event) : OpenFiles := events.foldl after files

/-- The reply is one that an operating system gives. -/
def Lawful (files : OpenFiles) : Event → Prop
  | ⟨.openPipe, .ok pipe⟩ =>
    Free files.held pipe.readEnd ∧ Free files.held pipe.writeEnd ∧ pipe.readEnd ≠ pipe.writeEnd
  | _ => True

@[simp]
theorem behind_nil (files : OpenFiles) : files.behind [] = files := rfl

@[simp]
theorem behind_cons (files : OpenFiles) (event : Event) (events : List Event) :
    files.behind (event :: events) = (files.after event).behind events := rfl

theorem behind_append (files : OpenFiles) (first second : List Event) :
    files.behind (first ++ second) = (files.behind first).behind second := List.foldl_append

theorem held_after_openPipe (files : OpenFiles) (pipe : Pipe) (descriptor : Descriptor) :
    (files.after ⟨.openPipe, .ok pipe⟩).held descriptor =
      if descriptor = pipe.writeEnd then some (.writeEnd files.made)
      else if descriptor = pipe.readEnd then some (.readEnd files.made)
        else files.held descriptor := by
  simp only [after, Function.update_apply]

end OpenFiles

/-- The events in which files are closed. -/
def closings (descriptors : List Descriptor) : List Event :=
  descriptors.map fun descriptor => ⟨.close descriptor, ()⟩

/-- The events in which an end of a pipe gets another number, if there is one. -/
def rewirings (source : Option Descriptor) (target : Descriptor) : List Event :=
  source.elim [] fun source => [⟨.duplicate source target, .ok ()⟩, ⟨.close source, ()⟩]

@[simp]
theorem rewirings_none (target : Descriptor) : rewirings none target = [] := rfl

/-- The events in which a stage takes the ends of pipes that it uses. -/
def connecting (wiring : Wiring) : List Event :=
  closings (wiring.target.map Pipe.readEnd).toList ++ (rewirings wiring.source Descriptor.input ++
    rewirings (wiring.target.map Pipe.writeEnd) Descriptor.output)

namespace OpenFiles

theorem held_behind_closings (files : OpenFiles) (descriptors : List Descriptor)
    (descriptor : Descriptor) :
    (files.behind (closings descriptors)).held descriptor =
      if descriptor ∈ descriptors then none else files.held descriptor := by
  induction descriptors generalizing files with
  | nil => rfl
  | cons closed descriptors inductionHypothesis =>
      have here : (files.after ⟨.close closed, ()⟩).held descriptor =
          if descriptor = closed then none else files.held descriptor := Function.update_apply ..
      have later := inductionHypothesis (files.after ⟨.close closed, ()⟩)
      rw [here] at later
      refine later.trans ?_
      by_cases same : descriptor = closed <;> simp [same]

theorem made_behind_closings (files : OpenFiles) (descriptors : List Descriptor) :
    (files.behind (closings descriptors)).made = files.made := by
  induction descriptors generalizing files with
  | nil => rfl
  | cons closed descriptors inductionHypothesis =>
      exact inductionHypothesis (files.after ⟨.close closed, ()⟩)

theorem held_behind_rewirings (files : OpenFiles) (source target descriptor : Descriptor) :
    (files.behind (rewirings (some source) target)).held descriptor =
      if descriptor = source then none
      else if descriptor = target then files.held source else files.held descriptor := by
  simp only [rewirings, Option.elim_some, behind_cons, behind_nil, after, Function.update_apply]

end OpenFiles

theorem closeEnd_runs {shell : Shell} (descriptor : Option Descriptor) :
    (closeEnd descriptor).Runs shell fun events _ => events = closings descriptor.toList := by
  cases descriptor with
  | none => exact (Routine.Runs.done ()).congr (by simp [closings])
  | some descriptor => exact .ask (.close descriptor)

/-- Give an end of a pipe another number, if there is one. -/
def rewireEnd (source : Option Descriptor) (target : Descriptor) : Routine Unit :=
  source.elim (pure ()) fun source => rewire source target

theorem connect_eq (wiring : Wiring) :
    connect wiring = (do
      closeEnd (wiring.target.map Pipe.readEnd)
      rewireEnd wiring.source Descriptor.input
      rewireEnd (wiring.target.map Pipe.writeEnd) Descriptor.output) := by
  rcases wiring with ⟨_ | source, _ | pipe⟩ <;> rfl

theorem rewireEnd_leads_ok {source : Option Descriptor} {target : Descriptor} {shell shell' : Shell}
    {events : List Event} :
    (rewireEnd source target).Leads shell events (.ok ()) shell' ↔
      events = rewirings source target ∧ shell' = shell := by
  cases source with
  | none => simp [rewireEnd, rewirings, Routine.leads_pure]
  | some source =>
      refine Routine.leads_ask_bind.trans ?_
      constructor
      · rintro ⟨reply, rest, rfl, later⟩
        rcases reply with errno | _
        · obtain ⟨_, impossible, _⟩ := Routine.leads_fail.mp later
          cases impossible
        · obtain ⟨_, rfl, _, rfl⟩ := Routine.leads_ask.mp later
          exact ⟨rfl, rfl⟩
      · rintro ⟨rfl, rfl⟩
        exact ⟨.ok (), _, rfl, Routine.leads_ask.mpr ⟨(), rfl, rfl, rfl⟩⟩

theorem connect_leads_ok {wiring : Wiring} {shell shell' : Shell} {events : List Event} :
    (connect wiring).Leads shell events (.ok ()) shell' ↔
      events = connecting wiring ∧ shell' = shell := by
  rw [connect_eq, (closeEnd_runs _).leads_bind]
  constructor
  · rintro ⟨_, _, _, rfl, rfl, later⟩
    obtain ⟨_, _, _, _, rfl, input, output⟩ := Routine.leads_bind_ok.mp later
    obtain ⟨rfl, rfl⟩ := rewireEnd_leads_ok.mp input
    obtain ⟨rfl, rfl⟩ := rewireEnd_leads_ok.mp output
    exact ⟨rfl, rfl⟩
  · rintro ⟨rfl, rfl⟩
    refine ⟨_, _, (), rfl, rfl, ?_⟩
    exact (rewireEnd_leads_ok.mpr ⟨rfl, rfl⟩).bind (rewireEnd_leads_ok.mpr ⟨rfl, rfl⟩)

theorem prepare_leads_ok {program : Program} {wiring : Wiring} {given shell ready : Shell}
    {events : List Event} :
    (Child.stage program wiring given).prepare.Leads shell events (.ok ()) ready ↔
      events = connecting wiring ∧ ready = { shell with flags := stageFlags } := by
  refine Routine.leads_bind_ok.trans ?_
  constructor
  · rintro ⟨_, _, _, _, rfl, connected, flagged⟩
    obtain ⟨rfl, rfl⟩ := connect_leads_ok.mp connected
    obtain ⟨rfl, _, rfl⟩ := Routine.leads_modify.mp flagged
    exact ⟨List.append_nil _, rfl⟩
  · rintro ⟨rfl, rfl⟩
    refine ⟨_, [], (), shell, (List.append_nil _).symm, connect_leads_ok.mpr ⟨rfl, rfl⟩, ?_⟩
    exact Routine.leads_modify.mpr ⟨rfl, rfl, rfl⟩

/-- What is open in a stage of a pipeline: at the standard input, what comes out of the pipe before
it; at the standard output, what goes into the pipe behind it; and otherwise what the shell has
open. -/
def wired (held : Descriptor → Option Holding) (count index : Nat) (descriptor : Descriptor) :
    Option Holding :=
  if descriptor = Descriptor.input ∧ index ≠ 0 then some (.readEnd (index - 1))
  else if descriptor = Descriptor.output ∧ index + 1 ≠ count then some (.writeEnd index)
  else held descriptor

/-- The shell is about to start a stage, and the end that the stage reads from is all that it has
open of a pipe. -/
structure Poised (held : Descriptor → Option Holding) (source : Option Descriptor) (index : Nat)
    (files : OpenFiles) : Prop where
  made : files.made = index
  held_eq : ∀ descriptor, files.held descriptor =
    if source = some descriptor then some (.readEnd (index - 1)) else held descriptor
  free : ∀ descriptor, source = some descriptor → Free held descriptor
  first : source = none ↔ index = 0

namespace Poised

open OpenFiles
  (behind_cons behind_append held_after_openPipe held_behind_closings made_behind_closings
  held_behind_rewirings)

variable {held : Descriptor → Option Holding} {source : Option Descriptor} {index : Nat}
  {files : OpenFiles}

theorem start (isOpen : Descriptor → Bool) :
    Poised (OpenFiles.start isOpen).held none 0 (.start isOpen) where
  made := rfl
  held_eq _ := rfl
  free _ impossible := by cases impossible
  first := by simp

theorem closed (poised : Poised held source index files) :
    (files.behind (closings source.toList)).held = held := by
  funext descriptor
  rw [held_behind_closings, poised.held_eq]
  by_cases own : source = some descriptor
  · simp [own, (poised.free descriptor own).1]
  · simp [own]

theorem connected_last (poised : Poised held source index files) :
    (files.behind (connecting ⟨source, none⟩)).held = wired held (index + 1) index := by
  funext descriptor
  have first := poised.first
  cases source with
  | none =>
      simp [connecting, closings, wired, poised.held_eq, first.mp rfl]
  | some source =>
      have free := poised.free source rfl
      have again := first.not.mp (by simp)
      simp only [connecting, closings, Option.map_none, Option.toList_none, List.map_nil,
        List.nil_append, rewirings_none, List.append_nil, held_behind_rewirings, poised.held_eq,
        wired]
      grind [Free]

/-- A number that is free now was so in the beginning, and is not that of the end that is open. -/
theorem free_of_free (poised : Poised held source index files) {descriptor : Descriptor}
    (free : Free files.held descriptor) : Free held descriptor ∧ source ≠ some descriptor := by
  obtain ⟨nothing, others⟩ := free
  rw [poised.held_eq] at nothing
  by_cases own : source = some descriptor
  · simp [own] at nothing
  · rw [if_neg own] at nothing
    exact ⟨⟨nothing, others⟩, own⟩

section Opened

variable {pipe : Pipe} (poised : Poised held source index files)
  (lawful : files.Lawful ⟨.openPipe, .ok pipe⟩)

include poised lawful

theorem free_ends :
    (Free held pipe.readEnd ∧ source ≠ some pipe.readEnd) ∧
      (Free held pipe.writeEnd ∧ source ≠ some pipe.writeEnd) ∧ pipe.readEnd ≠ pipe.writeEnd :=
  ⟨poised.free_of_free lawful.1, poised.free_of_free lawful.2.1, lawful.2.2⟩

theorem closed_opened :
    (files.behind
      (⟨.openPipe, .ok pipe⟩ :: closings (pipe.readEnd :: pipe.writeEnd :: source.toList))).held =
      held := by
  funext descriptor
  have ends := poised.free_ends lawful
  have own := poised.free descriptor
  simp only [behind_cons, held_behind_closings, held_after_openPipe, poised.held_eq, List.mem_cons,
    Option.mem_toList]
  grind [Free]

theorem next :
    Poised held (some pipe.readEnd) (index + 1)
      (files.behind (⟨.openPipe, .ok pipe⟩ :: closings (pipe.writeEnd :: source.toList))) := by
  have ends := poised.free_ends lawful
  refine ⟨?_, ?_, ?_, by simp⟩
  · rw [behind_cons, made_behind_closings, ← poised.made]
    rfl
  · intro descriptor
    have own := poised.free descriptor
    simp only [behind_cons, held_behind_closings, held_after_openPipe, poised.held_eq,
      List.mem_cons, Option.mem_toList, poised.made]
    grind [Free]
  · rintro descriptor ⟨⟩
    exact ends.1.1

/-- A stage takes the end before it and the one behind it, and keeps no other. -/
theorem connected {count : Nat} (inner : index + 1 ≠ count) :
    (files.behind (⟨.openPipe, .ok pipe⟩ :: connecting ⟨source, some pipe⟩)).held =
      wired held count index := by
  funext descriptor
  -- The numbers of the ends are different from each other and from those that are written over.
  have ends := poised.free_ends lawful
  have first := poised.first
  cases source with
  | none =>
      simp only [connecting, Option.map_some, Option.toList_some, rewirings_none, List.nil_append,
        behind_cons, behind_append, held_behind_rewirings, poised.made, held_behind_closings,
        held_after_openPipe, poised.held_eq, List.mem_singleton, wired]
      grind [Free]
  | some source =>
      have own := poised.free source rfl
      simp only [connecting, Option.map_some, Option.toList_some, behind_cons, behind_append,
        held_behind_rewirings, poised.made, held_behind_closings, held_after_openPipe,
        poised.held_eq, List.mem_singleton, wired]
      grind [Free, Descriptor.input, Descriptor.output]

end Opened

end Poised

end CommandShell
