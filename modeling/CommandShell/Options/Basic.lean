/-!
The options of the shell, with what they are when nothing is written.
-/

namespace CommandShell

inductive EditMode where
  | emacs
  | vi
  deriving DecidableEq, Repr

structure HistoryOptions where
  size : Nat := 1000
  ignoreRepeats : Bool := true
  automatic : Bool := true
  deriving DecidableEq, Repr

structure PromptOptions where
  editMode : EditMode := .emacs
  primary : String := "$ "
  deriving DecidableEq, Repr

structure RunOptions where
  /-- Wait for the background jobs before the shell ends. -/
  waitAtExit : Bool := true
  deriving DecidableEq, Repr

structure Options where
  history : HistoryOptions := {}
  prompt : PromptOptions := {}
  run : RunOptions := {}
  deriving DecidableEq, Repr

end CommandShell
