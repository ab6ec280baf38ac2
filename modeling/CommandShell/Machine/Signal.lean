/-!
Signals: their names, their texts, and what they do to a process that has made no arrangements.
-/

namespace CommandShell

abbrev Signal := Nat

namespace Signal

def interrupt : Signal := 2

def quit : Signal := 3

/-- The signal of memory that cannot be reached. -/
def busError : Signal := 7

def kill : Signal := 9

/-- The signal of memory that is not the process's own. -/
def badAccess : Signal := 11

def brokenPipe : Signal := 13

def terminate : Signal := 15

def resume : Signal := 18

def stop : Signal := 19

/-- The least number that is no signal. -/
def limit : Nat := 65

def greatestReported : Signal := 31

/-- The names and texts of the signals from one on. -/
def standard : List (String × String) :=
  [("HUP", "Hangup"), ("INT", "Interrupt"), ("QUIT", "Quit"), ("ILL", "Illegal instruction"),
    ("TRAP", "Trace/breakpoint trap"), ("ABRT", "Aborted"), ("BUS", "Bus error"),
    ("FPE", "Floating point exception"), ("KILL", "Killed"), ("USR1", "User defined signal 1"),
    ("SEGV", "Segmentation fault"), ("USR2", "User defined signal 2"), ("PIPE", "Broken pipe"),
    ("ALRM", "Alarm clock"), ("TERM", "Terminated"), ("16", "Stack fault"),
    ("CHLD", "Child exited"), ("CONT", "Continued"), ("STOP", "Stopped (signal)"),
    ("TSTP", "Stopped"), ("TTIN", "Stopped (tty input)"), ("TTOU", "Stopped (tty output)"),
    ("URG", "Urgent I/O condition"), ("XCPU", "CPU time limit exceeded"),
    ("XFSZ", "File size limit exceeded"), ("VTALRM", "Virtual timer expired"),
    ("PROF", "Profiling timer expired"), ("WINCH", "Window changed"), ("IO", "I/O possible"),
    ("PWR", "Power failure"), ("SYS", "Bad system call")]

/-- The first signal without a fixed use. -/
def firstFree : Signal := 34

def lastFree : Signal := 64

/-- The name of a signal, where the ones without a fixed use are counted from their ends. -/
def name? (signal : Signal) : Option String :=
  if signal = 0 then none
  else if signal ≤ 31 then (standard[signal - 1]?).map Prod.fst
  else if signal < firstFree then some (toString signal)
  else if signal = firstFree then some "RTMIN"
  else if signal = lastFree then some "RTMAX"
  else if signal < lastFree then
    if signal ≤ firstFree + 15 then some ("RTMIN+" ++ toString (signal - firstFree))
    else some ("RTMAX-" ++ toString (lastFree - signal))
  else none

def text (signal : Signal) : String :=
  match (if signal = 0 then none else standard[signal - 1]?) with
  | some entry => entry.2
  | none =>
    if firstFree ≤ signal && signal ≤ lastFree then
      "Real-time signal " ++ toString (signal - firstFree)
    else "Unknown signal " ++ toString signal

inductive Effect where
  | nothing
  | ending
  | stopping
  | resuming
  deriving DecidableEq, Repr

def effect (signal : Signal) : Effect :=
  if signal ∈ [0, 17, 23, 28] then .nothing
  else if signal = resume then .resuming
  else if signal ∈ [stop, 20, 21, 22] then .stopping
  else .ending

/-- Whether a process can arrange to ignore or handle a signal. -/
def isFlexible (signal : Signal) : Bool := signal ≠ kill && signal ≠ stop

end Signal

end CommandShell
