import CommandShell.Shell.Input

/-!
What a routine can come to, whatever replies its calls get: how far it may change the state of the
shell, and how it may fail.
-/

namespace CommandShell

namespace Action

variable {Call : Type} {Reply : Call → Type} {α β : Type}

/-- Whether all the results that work can have are of a kind. -/
def Always (holds : α → Prop) : Action Call Reply α → Prop
  | .done result => holds result
  | .ask _ _ next => ∀ reply, (next reply).Always holds

theorem always_bind {action : Action Call Reply α} {next : α → Action Call Reply β}
    {holds : β → Prop} :
    (action.bind next).Always holds ↔ action.Always fun result => (next result).Always holds := by
  induction action with
  | done result => rfl
  | ask call again rest inductionHypothesis => simp only [ask_bind, Always, inductionHypothesis]

theorem Always.imp {action : Action Call Reply α} {holds holds' : α → Prop}
    (always : action.Always holds) (weaker : ∀ result, holds result → holds' result) :
    action.Always holds' := by
  induction action with
  | done result => exact weaker result always
  | ask call again next inductionHypothesis =>
      intro reply
      exact inductionHypothesis reply (always reply)

theorem always_true (action : Action Call Reply α) : action.Always fun _ => True := by
  induction action with
  | done result => exact trivial
  | ask call again next inductionHypothesis => exact inductionHypothesis

end Action

/-- The changes and the failures that a routine keeps to. Changes may be made one after the
other. -/
structure Bounds where
  change : Shell → Shell → Prop
  failure : Fault → Prop
  refl : ∀ shell, change shell shell
  trans : ∀ {first second third}, change first second → change second third → change first third

/-- A routine keeps to its bounds, whatever replies it gets. -/
def Routine.Within {α : Type} (bounds : Bounds) (routine : Routine α) : Prop :=
  ∀ shell, (routine shell).Always fun outcome =>
    bounds.change shell outcome.2 ∧ ∀ cause, outcome.1 = .error cause → bounds.failure cause

namespace Routine.Within

variable {bounds : Bounds} {α β : Type}

theorem done (result : α) : (pure result : Routine α).Within bounds :=
  fun shell => ⟨bounds.refl shell, by simp⟩

theorem fail {cause : Fault} (allowed : bounds.failure cause) :
    (Routine.fail cause : Routine α).Within bounds :=
  fun shell => ⟨bounds.refl shell, by rintro _ ⟨⟩; exact allowed⟩

theorem get : Routine.get.Within bounds := fun shell => ⟨bounds.refl shell, by simp⟩

theorem modify {change : Shell → Shell} (allowed : ∀ shell, bounds.change shell (change shell)) :
    (Routine.modify change).Within bounds :=
  fun shell => ⟨allowed shell, by simp⟩

theorem lift (work : Work α) : (Routine.lift work).Within bounds := by
  intro shell
  refine Action.always_bind.mpr (work.always_true.imp fun result _ => ?_)
  exact ⟨bounds.refl shell, by simp⟩

theorem ask (call : Call) : (Routine.ask call).Within bounds := lift _

theorem complain (line : String) : (Routine.complain line).Within bounds := lift _

theorem bind {routine : Routine α} {next : α → Routine β} (first : routine.Within bounds)
    (later : ∀ result, (next result).Within bounds) : (routine >>= next).Within bounds := by
  intro shell
  refine Action.always_bind.mpr ((first shell).imp ?_)
  rintro ⟨outcome, shell'⟩ ⟨changed, failed⟩
  cases outcome with
  | error cause => exact ⟨changed, fun cause' same => failed cause' (by simpa using same)⟩
  | ok result =>
      refine (later result shell').imp ?_
      rintro outcome ⟨changed', failed'⟩
      exact ⟨bounds.trans changed changed', failed'⟩

end Routine.Within

/-- Any changes, and failures of one kind. -/
def Bounds.failing (failure : Fault → Prop) : Bounds where
  change _ _ := True
  failure := failure
  refl _ := trivial
  trans _ _ := trivial

/-- Any changes, and no failure but the request to end the shell. -/
def Bounds.exits : Bounds := .failing fun cause => ∃ code, cause = .exit code

end CommandShell
