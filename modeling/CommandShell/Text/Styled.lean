/-!
Texts in which some words stand out: how they are written for a terminal, and what is left of a text
that goes elsewhere. A terminal is told by escape sequences, and everywhere else those are taken out
again, with all other control characters but line breaks and blanks, whoever put them there.
-/

namespace CommandShell.Text

/-- How words stand out. -/
inductive Style where
  | plain
  | strong
  | heading
  | alarm
  | good
  | bad
  deriving DecidableEq, Repr

/-- The numbers that tell a terminal of a style. -/
def Style.codes : Style → List Nat
  | .plain => []
  | .strong => [1]
  | .heading => [1, 4]
  | .alarm => [1, 31]
  | .good => [32]
  | .bad => [33]

structure Span where
  style : Style
  text : String
  deriving DecidableEq, Repr

abbrev Styled := List Span

def sequence (code : Nat) : String := "\x1b[" ++ toString code ++ "m"

/-- Words for a terminal: what tells the style stands before them, and its end behind them. -/
def Span.escaped (span : Span) : String :=
  if span.style = .plain then span.text
  else String.join (span.style.codes.map sequence) ++ span.text ++ sequence 0

def Styled.escaped (styled : Styled) : String := String.join (styled.map Span.escaped)

/-- Where in an escape sequence a character stands. -/
inductive Place where
  /-- In none. -/
  | text
  /-- Behind the escape character. -/
  | start
  /-- In a sequence of two or more characters that ends with its first letter or digit. -/
  | short
  /-- In a sequence with numbers, which ends with a letter. -/
  | numbers
  /-- In a title, which ends with a bell. -/
  | title
  /-- In a string for the terminal, which only the next sequence ends. -/
  | string
  deriving DecidableEq, Repr

/-- Control characters that are kept. -/
def isLayout (c : Char) : Bool := ['\t', '\n', '\x0c', '\r'].contains c

def isKept (c : Char) : Bool :=
  isLayout c || (32 ≤ c.toNat && c.toNat ≠ 127)

/-- Where the next character stands, and whether this one is kept. -/
def Place.next (place : Place) (c : Char) : Place × Bool :=
  let n := c.toNat
  if c = '\x1b' then (.start, false)
  else if c = '\x18' || c = '\x1a' then (.text, false)
  else
    match place with
    | .text => (.text, isKept c)
    | .start =>
      if isLayout c then (.text, true)
      else if n < 32 || 127 ≤ n then (.start, false)
      else if n < 48 then (.short, false)
      else if c = '[' then (.numbers, false)
      else if c = ']' then (.title, false)
      else if ['P', 'X', '^', '_'].contains c then (.string, false)
      else (.text, false)
    | .short =>
      if isLayout c then (.text, true)
      else if 48 ≤ n && n < 127 then (.text, false)
      else (.short, false)
    | .numbers =>
      if isLayout c then (.text, true)
      else if 64 ≤ n && n < 127 then (.text, false)
      else (.numbers, false)
    | .title => if c = '\x07' then (.text, false) else (.title, false)
    | .string => (.string, false)

/-- What is left of a text that does not go to a terminal. -/
def withoutEscapesFrom (place : Place) : List Char → List Char
  | [] => []
  | c :: rest =>
    match place.next c with
    | (place, true) => c :: withoutEscapesFrom place rest
    | (place, false) => withoutEscapesFrom place rest

def withoutEscapes (text : String) : String := String.ofList (withoutEscapesFrom .text text.toList)

/-- A text as it is written, with or without what a terminal understands. -/
def Styled.written (styled : Styled) (escapes : Bool) : String :=
  if escapes then styled.escaped else withoutEscapes styled.escaped

end CommandShell.Text
