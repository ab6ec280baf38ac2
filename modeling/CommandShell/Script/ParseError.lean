import CommandShell.Peg.Attempts
import CommandShell.Script.Rule
import CommandShell.Text.Blank

/-!
Why a text is no script: the furthest position at which a rule was refused, and the rules that were
wanted or not wanted there.
-/

namespace CommandShell

structure ParseError where
  /-- The text that was read. -/
  source : List Char
  /-- How many characters stand before the position. -/
  offset : Nat
  wanted : List Rule
  unwanted : List Rule
  deriving DecidableEq, Repr

namespace Rule

/-- All the rules, in the order in which messages list them. -/
def all : List Rule :=
  [.endOfInput, .ifWord, .thenWord, .elifWord, .elseWord, .fiWord, .forWord, .inWord, .doWord,
    .doneWord, .parallelWord, .name, .statusName, .reference, .dollar, .singleQuotedText,
    .doubleQuotedText, .singleQuoted, .doubleQuoted, .literal, .word, .program, .pipeline,
    .assignment, .background, .statement, .body, .branch, .conditional, .loop, .script]

end Rule

namespace ParseError

/-- The furthest attempts of a failed run. -/
def ofAttempts (source : List Char) (attempts : Peg.Attempts Rule) : ParseError where
  source := source
  offset := attempts.position
  wanted := Rule.all.filter (attempts.wanted.contains ·)
  unwanted := Rule.all.filter (attempts.unwanted.contains ·)

/-- What stands before the position. -/
def before (error : ParseError) : List Char := error.source.take error.offset

/-- What stands from the position on. -/
def after (error : ParseError) : List Char := error.source.drop error.offset

def line (error : ParseError) : Nat := error.before.count '\n' + 1

/-- What stands before the position on its line. -/
def lineStart (error : ParseError) : List Char :=
  (error.before.reverse.takeWhile (· ≠ '\n')).reverse

/-- What stands from the position on in its line, up to its line break and with it. -/
def lineEnd (error : ParseError) : List Char :=
  let rest := error.after.takeWhile (· ≠ '\n')
  if rest.length < error.after.length then rest ++ ['\n'] else rest

def column (error : ParseError) : Nat := error.lineStart.length + 1

/-- Whether the position is at a character that ends a line. -/
def atLineBreak (error : ParseError) : Bool :=
  match error.after.head? with
  | some c => c == '\r' || c == '\n'
  | none => false

/-- The line as it is shown: its breaks are drawn if the position is at one, and left out if not. -/
def shownLine (error : ParseError) : List Char :=
  let text := error.lineStart ++ error.lineEnd
  if error.atLineBreak then
    text.map fun c => if c = '\r' then '␍' else if c = '\n' then '␊' else c
  else text.filter fun c => c ≠ '\r' && c ≠ '\n'

/-- The space before the mark below the line; tabs stay tabs. -/
def padding (error : ParseError) : List Char :=
  (error.shownLine.take (error.column - 1)).map fun c => if c = '\t' then '\t' else ' '

def enumerate : List String → String
  | [] => ""
  | [a] => a
  | [a, b] => a ++ " or " ++ b
  | names => String.intercalate ", " names.dropLast ++ ", or " ++ names.getLastD ""

/-- What was wanted, and what was not. -/
def summary (error : ParseError) : String :=
  let wanted := "expected " ++ enumerate (error.wanted.map Rule.label)
  let unwanted := "unexpected " ++ enumerate (error.unwanted.map Rule.label)
  if error.unwanted.isEmpty then
    if error.wanted.isEmpty then "unknown parsing error" else wanted
  else if error.wanted.isEmpty then unwanted
  else unwanted ++ "; " ++ wanted

/-- The message, with the line and a mark at the position. -/
def message (error : ParseError) : String :=
  let number := toString error.line
  let margin := String.ofList (List.replicate number.length ' ')
  "Parse error:\n" ++
    margin ++ "--> " ++ number ++ ":" ++ toString error.column ++ "\n" ++
    margin ++ " |\n" ++
    number ++ " | " ++ String.ofList error.shownLine ++ "\n" ++
    margin ++ " | " ++ String.ofList error.padding ++ "^---\n" ++
    margin ++ " |\n" ++
    margin ++ " = " ++ error.summary

/-- Whether nothing but blanks stands behind the position, so that more input might still make a
script of the text. -/
def incomplete (error : ParseError) : Bool :=
  (Text.trimEnd error.source).length ≤ error.offset

end ParseError

end CommandShell
