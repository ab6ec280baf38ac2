import CommandShell.Errno
import CommandShell.Script.ParseError

/-!
What can go wrong, with the message for the user and the number that becomes the status.
-/

namespace CommandShell

inductive StreamFailure where
  | system (errno : Errno)
  /-- A failure that no error number stands for. -/
  | custom (text : String)
  deriving DecidableEq, Repr

namespace StreamFailure

/-- The content is no text. -/
def notText : StreamFailure := .custom "stream did not contain valid UTF-8"

/-- A path with a NUL names no file. -/
def notPath : StreamFailure := .custom "file name contained an unexpected NUL byte"

def message : StreamFailure → String
  | .system errno => errno.systemText ++ " (os error " ++ toString errno.number ++ ")"
  | .custom text => text

def number : StreamFailure → Int
  | .system errno => errno.number
  | .custom _ => Errno.inputOutput.number

end StreamFailure

inductive Fault where
  | stream (failure : StreamFailure)
  | call (errno : Errno)
  | homeUnset
  | notFound (name : String)
  | notPermitted (name : String)
  | notRun (reason : String)
  | internal (reason : String)
  /-- No failure: the request to end the shell, on its way out. -/
  | exit (code : Int)
  deriving DecidableEq, Repr

namespace Fault

def message : Fault → String
  | .stream failure => failure.message
  | .call errno => errno.description
  | .homeUnset => "HOME not set"
  | .notFound name => name ++ ": command not found"
  | .notPermitted name => name ++ ": permission denied"
  | .notRun reason => "Execution failed: " ++ reason
  | .internal reason => "Internal error: " ++ reason
  | .exit _ => ""

/-- The status of a statement that fails with this. -/
def number : Fault → Int
  | .stream failure => failure.number
  | .call errno => errno.number
  | .homeUnset => Errno.invalidArgument.number
  | .notFound _ => Errno.noEntry.number
  | .notPermitted _ => Errno.accessDenied.number
  | .notRun _ => Errno.invalidArgument.number
  | .internal _ => Errno.invalidArgument.number
  | .exit code => code

end Fault

/-- A text that is no script, or a failure while running. -/
inductive Error where
  | parse (error : ParseError)
  | fault (cause : Fault)
  deriving DecidableEq, Repr

namespace Error

def message : Error → String
  | .parse error => error.message
  | .fault cause => cause.message

def number : Error → Int
  | .parse _ => Errno.invalidArgument.number
  | .fault cause => cause.number

end Error

end CommandShell
