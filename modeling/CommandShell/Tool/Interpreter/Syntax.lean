import CommandShell.Shell.Call

/-!
The language of the command interpreter `sh`. Texts are lists of characters, one for each byte.
-/

namespace CommandShell.Interpreter

inductive Operator where
  | value
  | length
  /-- The word, if the parameter has no value. -/
  | fallback
  /-- The word, if the parameter has a value. -/
  | alternative
  /-- The word becomes the value of a parameter that has none. -/
  | assignment
  /-- The word is the complaint about a parameter that has no value. -/
  | complaint
  /-- The value without what the word matches at its start. -/
  | cutStart (longest : Bool)
  /-- The value without what the word matches at its end. -/
  | cutEnd (longest : Bool)
  | bad
  deriving DecidableEq, Repr

inductive Direction where
  | reading
  | writing
  | appending
  /-- Writing, also to a file that is protected. -/
  | overwriting
  | updating
  deriving DecidableEq, Repr

mutual

/-- A piece of a word. What is not quoted is split into fields and matched against file names after
it was filled in. -/
inductive Part where
  | text (chars : List Char) (quoted : Bool)
  /-- A parameter. With a colon, an empty value counts as none. -/
  | parameter (name : List Char) (operator : Operator) (colon : Bool) (word : List Part)
      (quoted : Bool)
  | output (tree : Option Tree) (quoted : Bool)
  | arithmetic (expression : List Part) (quoted : Bool)

/-- Another place for what a command reads or writes. -/
inductive Redirection where
  | file (direction : Direction) (descriptor : Descriptor) (path : List Part)
  /-- A copy of another descriptor, or nothing if there is none to copy. -/
  | copy (descriptor : Descriptor) (source : Option Descriptor)
  | copyOf (descriptor : Descriptor) (source : List Part)
  | document (descriptor : Descriptor) (number : Nat)

inductive Tree where
  | simple (line : Nat) (assignments words : List (List Part)) (redirections : List Redirection)
  | pipeline (stages : List Tree) (background : Bool)
  | redirected (line : Nat) (inner : Option Tree) (redirections : List Redirection)
  | background (line : Nat) (inner : Option Tree) (redirections : List Redirection)
  | subshell (line : Nat) (inner : Option Tree) (redirections : List Redirection)
  | both (first second : Tree)
  | onSuccess (first second : Tree)
  | onFailure (first second : Tree)
  | negated (inner : Tree)
  | choice (test body otherwise : Option Tree)
  | loop (untilSuccess : Bool) (test body : Option Tree)
  | each (line : Nat) (name : List Char) (words : List (List Part)) (body : Option Tree)
  | select (line : Nat) (subject : List Part) (clauses : List (List (List Part) × Option Tree))
  | define (name : List Char) (body : Tree)

end

abbrev Word := List Part

structure Document where
  number : Nat
  content : Word

inductive Keyword where
  | notWord | caseWord | doWord | doneWord | elifWord | elseWord | esacWord | fiWord | forWord
  | ifWord | inWord | thenWord | untilWord | whileWord
  | openBrace | closeBrace
  deriving DecidableEq, Repr

namespace Keyword

def all : List Keyword :=
  [.notWord, .caseWord, .doWord, .doneWord, .elifWord, .elseWord, .esacWord, .fiWord, .forWord,
    .ifWord, .inWord, .thenWord, .untilWord, .whileWord, .openBrace, .closeBrace]

def text : Keyword → String
  | .notWord => "!"
  | .caseWord => "case"
  | .doWord => "do"
  | .doneWord => "done"
  | .elifWord => "elif"
  | .elseWord => "else"
  | .esacWord => "esac"
  | .fiWord => "fi"
  | .forWord => "for"
  | .ifWord => "if"
  | .inWord => "in"
  | .thenWord => "then"
  | .untilWord => "until"
  | .whileWord => "while"
  | .openBrace => "\x7b"
  | .closeBrace => "\x7d"

end Keyword

inductive Token where
  | endOfFile
  | newline
  | semicolon
  | background
  | and
  | or
  | pipe
  | openParenthesis
  | closeParenthesis
  | endOfClause
  | redirection
  | word
  | keyword (keyword : Keyword)
  deriving DecidableEq, Repr

namespace Token

def text : Token → String
  | .endOfFile => "end of file"
  | .newline => "newline"
  | .semicolon => "\";\""
  | .background => "\"&\""
  | .and => "\"&&\""
  | .or => "\"||\""
  | .pipe => "\"|\""
  | .openParenthesis => "\"(\""
  | .closeParenthesis => "\")\""
  | .endOfClause => "\";;\""
  | .redirection => "redirection"
  | .word => "word"
  | .keyword meant => "\"" ++ meant.text ++ "\""

def endsList : Token → Bool
  | .endOfFile => true
  | .closeParenthesis => true
  | .endOfClause => true
  | .keyword .doWord => true
  | .keyword .doneWord => true
  | .keyword .elifWord => true
  | .keyword .elseWord => true
  | .keyword .esacWord => true
  | .keyword .fiWord => true
  | .keyword .thenWord => true
  | .keyword .closeBrace => true
  | _ => false

end Token

/-! Names -/

def isNameStart (c : Char) : Bool := c = '_' || c.isAlpha

def isNameChar (c : Char) : Bool := c = '_' || c.isAlphanum

def isName (chars : List Char) : Bool :=
  match chars with
  | c :: rest => isNameStart c && rest.all isNameChar
  | [] => false

def isSpecial (c : Char) : Bool := c ∈ ['!', '*', '#', '?', '-', '$', '@'] || c.isDigit

namespace Word

/-- The text of a word in which nothing is quoted or filled in. -/
def plain? : Word → Option (List Char)
  | [.text chars false] => some chars
  | _ => none

/-- The text of a word without its quotes, if nothing is filled in. -/
def literal? : Word → Option (List Char)
  | [] => some []
  | .text chars _ :: rest => (literal? rest).map (chars ++ ·)
  | _ => none

def isAssignment : Word → Bool
  | .text chars false :: _ =>
    let name := chars.takeWhile isNameChar
    isName name && (chars.drop name.length).head? = some '='
  | _ => false

end Word

end CommandShell.Interpreter
