/-!
The two streams that a process writes to.
-/

namespace CommandShell

inductive Stream where
  | output
  | errors
  deriving DecidableEq, Repr

def Stream.name : Stream → String
  | .output => "stdout"
  | .errors => "stderr"

end CommandShell
