import CommandShell.Fault
import CommandShell.Peg.Run
import CommandShell.Script.OfTree

/-!
Reading a script from its text.
-/

namespace CommandShell

namespace Rule

/-- More than the depth of any chain of expressions in which nothing is read. -/
def chainBound : Nat := 128

/-- A bound for the depth of a run on a text of the given length. -/
def depthBound (length : Nat) : Nat := chainBound * (length + 1)

def match? (source : List Char) : Option (Peg.Outcome Rule) :=
  grammar.run (depthBound source.length) (.call .script) .loose .straight (.ofText source) .none

end Rule

namespace Script

/-- The script written in the characters. -/
def parseChars (source : List Char) : Except Error Script :=
  match Rule.match? source with
  | none => .error (.fault (.internal "the text is nested too deeply"))
  | some outcome =>
    match outcome.result with
    | none => .error (.parse (.ofAttempts source outcome.attempts))
    | some found =>
      match found.trees.head?.bind Script.ofTree? with
      | some script => .ok script
      | none => .error (.fault (.internal "the tree is of no known shape"))

def parse (source : String) : Except Error Script := parseChars source.toList

end Script

end CommandShell
