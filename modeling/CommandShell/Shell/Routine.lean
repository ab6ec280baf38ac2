import CommandShell.Shell.Call

/-!
Work on the state of the shell that may fail. What was changed before a failure stays changed.
-/

namespace CommandShell

/-- Work that reads and changes the state of the shell. -/
def Routine (α : Type) : Type := Shell → Work (Except Fault α × Shell)

namespace Routine

variable {α β : Type}

/-- Work followed by work on its result, if it has one. -/
def bind (routine : Routine α) (next : α → Routine β) : Routine β := fun shell =>
  (routine shell).bind fun outcome =>
    match outcome.1 with
    | .ok result => next result outcome.2
    | .error cause => .done (.error cause, outcome.2)

instance : Monad Routine where
  pure result := fun shell => .done (.ok result, shell)
  bind := bind

def fail (cause : Fault) : Routine α := fun shell => .done (.error cause, shell)

/-- Go on with a result or a failure. -/
def ofExcept : Except Fault α → Routine α
  | .ok result => pure result
  | .error cause => fail cause

/-- The result or the failure of a routine, as a result. -/
def attempt (routine : Routine α) : Routine (Except Fault α) := fun shell =>
  (routine shell).bind fun outcome => .done (.ok outcome.1, outcome.2)

/-- Work that does not look at the state. -/
def lift (work : Work α) : Routine α :=
  fun shell => work.bind fun result => .done (.ok result, shell)

def ask (call : Call) : Routine call.Reply := lift (Work.ask call)

def get : Routine Shell := fun shell => .done (.ok shell, shell)

def modify (change : Shell → Shell) : Routine Unit := fun shell => .done (.ok (), change shell)

@[simp]
theorem pure_apply (result : α) (shell : Shell) :
    (pure result : Routine α) shell = .done (.ok result, shell) := rfl

@[simp]
theorem fail_apply (cause : Fault) (shell : Shell) :
    (fail cause : Routine α) shell = .done (.error cause, shell) := rfl

theorem bind_apply (routine : Routine α) (next : α → Routine β) (shell : Shell) :
    (routine >>= next) shell =
      (routine shell).bind fun outcome =>
        match outcome.1 with
        | .ok result => next result outcome.2
        | .error cause => .done (.error cause, outcome.2) := rfl

theorem lift_bind_apply (work : Work α) (next : α → Routine β) (shell : Shell) :
    (lift work >>= next) shell = work.bind fun result => next result shell := by
  rw [bind_apply, lift, Action.bind_assoc]
  rfl

/-- Print a line for the user. -/
def say (line : String) : Routine Unit := lift (Work.tell .output (line ++ "\n"))

/-- Print a line about something that went wrong. -/
def complain (line : String) : Routine Unit := lift (Work.tell .errors (line ++ "\n"))

/-- Print a line and fail if that cannot be done. -/
def print (line : String) : Routine Unit := do
  match ← ask (.write .output (line ++ "\n")) with
  | .ok () => pure ()
  | .error failure => fail (.stream failure)

end Routine

def shellName : String := "pish"

namespace Routine

def report (message : String) : Routine Unit := complain (shellName ++ ": " ++ message)

end Routine

end CommandShell
