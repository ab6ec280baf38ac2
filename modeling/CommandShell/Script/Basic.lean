/-!
Scripts as the shell runs them: a list of statements, each a pipeline, an assignment, a conditional
or a loop, run in the foreground or in the background.
-/

namespace CommandShell

/-- A piece of a word: text as it stands, or a variable to be looked up. -/
inductive Word where
  | literal (text : String)
  | reference (name : String)
  deriving DecidableEq, Repr

namespace Word

/-- The text of a literal, or the name of a variable. -/
def text : Word → String
  | .literal text => text
  | .reference name => name

def isReference : Word → Bool
  | .literal _ => false
  | .reference _ => true

end Word

/-- A command and its arguments, before expansion. -/
abbrev Program := List Word

/-- Programs joined from left to right, the output of each the input of the next. -/
abbrev Pipeline := List Program

mutual

/-- What a statement does. -/
inductive Command where
  | pipeline (stages : Pipeline)
  | assignment (name : String) (value : List Word)
  /-- The first branch whose test succeeds, and the fallback if none does. -/
  | conditional (branches : List Branch) (fallback : Option (List Statement))
  /-- The body once for every value, one after the other or all at once. -/
  | loop (parallel : Bool) (binder : Word) (values : List Word) (body : List Statement)

/-- A body and the test that guards it. -/
inductive Branch where
  | mk (test : Pipeline) (body : List Statement)

/-- A command, run in the foreground or in the background. -/
inductive Statement where
  | mk (command : Command) (background : Bool)

end

abbrev Script := List Statement

namespace Branch

def test : Branch → Pipeline
  | .mk test _ => test

def body : Branch → Script
  | .mk _ body => body

end Branch

namespace Statement

def command : Statement → Command
  | .mk command _ => command

def background : Statement → Bool
  | .mk _ background => background

end Statement

/-- The texts of the words, one space between them. -/
def joinWords (words : List Word) : String :=
  String.intercalate " " (words.map Word.text)

end CommandShell
