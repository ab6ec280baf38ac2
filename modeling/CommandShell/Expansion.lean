import CommandShell.Script.Basic
import CommandShell.Store

/-!
Expansion: the arguments that words stand for. The texts of the words are laid out one after the
other, each closed by a separator, and the whole is cut at the separators. A variable without a
value adds nothing.
-/

namespace CommandShell

/-- The characters that end an argument: the six ASCII spaces and NUL. -/
def isSeparator (c : Char) : Bool :=
  c == ' ' || c == '\t' || c == '\n' || c == '\x0b' || c == '\x0c' || c == '\r' || c == '\x00'

namespace Word

/-- The text that a word adds. -/
def contribution? (store : Store) : Word → Option String
  | .literal text => some text
  | .reference name => store.get? name

/-- The text that a word adds, closed by a separator. -/
def laidOut (store : Store) (word : Word) : List Char :=
  match word.contribution? store with
  | some text => text.toList ++ ['\x00']
  | none => []

end Word

namespace Expansion

/-- Cut a text at its separators, where `pending` is what was read of an argument, the last
character first. -/
def cut : List Char → List Char → List String
  | [], [] => []
  | pending, [] => [String.ofList pending.reverse]
  | pending, c :: rest =>
    if isSeparator c then
      if pending.isEmpty then cut [] rest else String.ofList pending.reverse :: cut [] rest
    else cut (c :: pending) rest

def arguments (store : Store) (words : List Word) : List String :=
  cut [] (words.flatMap (Word.laidOut store))

end Expansion

end CommandShell
