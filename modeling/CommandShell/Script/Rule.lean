import CommandShell.Peg.Expr

/-!
The grammar of scripts.

Blanks, continued lines and comments are filler. A statement ends at a separator, at the end of the
input or with the mark that sends it to the background. The words that open and close compound
statements are reserved only where a command is expected, and only as whole words.
-/

namespace CommandShell

/-- The rules of the grammar, in the order in which messages list them. -/
inductive Rule where
  | endOfInput
  | ifWord
  | thenWord
  | elifWord
  | elseWord
  | fiWord
  | forWord
  | inWord
  | doWord
  | doneWord
  | parallelWord
  | name
  | statusName
  | reference
  | dollar
  | singleQuotedText
  | doubleQuotedText
  | singleQuoted
  | doubleQuoted
  | literal
  | word
  | program
  | pipeline
  | assignment
  | background
  | statement
  | body
  | branch
  | conditional
  | loop
  | script
  deriving DecidableEq, Repr

namespace Rule

open Peg (Expr Kind)

def label : Rule → String
  | .endOfInput => "EOI"
  | .ifWord => "kw_if"
  | .thenWord => "kw_then"
  | .elifWord => "kw_elif"
  | .elseWord => "kw_else"
  | .fiWord => "kw_fi"
  | .forWord => "kw_for"
  | .inWord => "kw_in"
  | .doWord => "kw_do"
  | .doneWord => "kw_done"
  | .parallelWord => "parallel"
  | .name => "var_name"
  | .statusName => "special_var"
  | .reference => "var_ref"
  | .dollar => "dollar"
  | .singleQuotedText => "squote_body"
  | .doubleQuotedText => "dquote_body"
  | .singleQuoted => "squoted"
  | .doubleQuoted => "dquoted"
  | .literal => "literal"
  | .word => "word"
  | .program => "program"
  | .pipeline => "pipeline"
  | .assignment => "assignment"
  | .background => "background"
  | .statement => "statement"
  | .body => "body"
  | .branch => "cond_part"
  | .conditional => "conditional"
  | .loop => "for_loop"
  | .script => "main"

def kind : Rule → Kind
  | .ifWord | .thenWord | .elifWord | .elseWord | .fiWord | .forWord | .inWord | .doWord
  | .doneWord | .parallelWord => .atomic
  | .name | .statusName | .dollar | .singleQuotedText | .doubleQuotedText | .literal => .atomic
  | .reference | .singleQuoted | .doubleQuoted | .word | .assignment => .compound
  | _ => .plain

def lineBreak : Expr Rule :=
  .oneOf (.text ['\n']) [.text ['\r', '\n'], .text ['\r']]

/-- A space, a tab, or a line break taken back by a backslash. -/
def blank : Expr Rule :=
  .oneOf (.only ' ') [.only '\t', .seq (.only '\\') lineBreak]

def comment : Expr Rule := .seq (.only '#') (.upTo lineBreak)

/-- What may stand between the parts of a statement. -/
def filler : Expr Rule := .seq (.star blank) (.star (.seq comment (.star blank)))

/-- The semicolons and line breaks between statements. -/
def separator : Expr Rule := .plus (.alt (.only ';') lineBreak)

/-- The end of a reserved word. -/
def boundary : Expr Rule :=
  .ahead (.oneOf (.only ' ')
    [.only '\t', lineBreak, .only ';', .only '|', .only '&', .only '#', .call .endOfInput])

/-- A reserved word that stands alone. -/
def wholeWord (letters : List Char) : Expr Rule := .seq (.text letters) boundary

/-- The words that cannot start a command. -/
def reserved : Expr Rule :=
  .oneOf (.call .ifWord)
    [.call .thenWord, .call .elifWord, .call .elseWord, .call .fiWord, .call .forWord,
      .call .doWord, .call .doneWord]

/-- The characters that end a literal. -/
def delimiter : Expr Rule :=
  .oneOf (.only ' ')
    [.only '\t', lineBreak, .only ';', .only '|', .only '&', .only '$', .only '\x27', .only '\x22']

/-- A character that may start a name. -/
def isNameStart (c : Char) : Bool := c.isAlpha || c == '_'

/-- A character that may stand later in a name. -/
def isNamePart (c : Char) : Bool := c.isAlphanum || c == '_'

/-- A variable, or the last status. -/
def referred : Expr Rule := .alt (.call .name) (.call .statusName)

def statementEnd : Expr Rule := .alt separator (.ahead (.call .endOfInput))

def pattern : Rule → Expr Rule
  | .endOfInput => .done
  | .ifWord => wholeWord ['i', 'f']
  | .thenWord => wholeWord ['t', 'h', 'e', 'n']
  | .elifWord => wholeWord ['e', 'l', 'i', 'f']
  | .elseWord => wholeWord ['e', 'l', 's', 'e']
  | .fiWord => wholeWord ['f', 'i']
  | .forWord => wholeWord ['f', 'o', 'r']
  | .inWord => wholeWord ['i', 'n']
  | .doWord => wholeWord ['d', 'o']
  | .doneWord => wholeWord ['d', 'o', 'n', 'e']
  | .parallelWord => wholeWord ['p', 'a', 'r', 'a', 'l', 'l', 'e', 'l']
  | .name => .seq (.char isNameStart) (.star (.char isNamePart))
  | .statusName => .only '?'
  | .reference =>
    .seq (.only '$')
      (.oneOf (.inOrder (.only '\x7b') [referred, .only '\x7d']) [.call .name, .call .statusName])
  | .dollar => .only '$'
  | .singleQuotedText => .upTo (.only '\x27')
  | .doubleQuotedText => .upTo (.only '\x22')
  | .singleQuoted => .inOrder (.only '\x27') [.call .singleQuotedText, .only '\x27']
  | .doubleQuoted => .inOrder (.only '\x22') [.call .doubleQuotedText, .only '\x22']
  | .literal => .plus (.seq (.avoid delimiter) .any)
  | .word =>
    .plus (.oneOf (.call .singleQuoted)
      [.call .doubleQuoted, .call .reference, .call .literal, .call .dollar])
  | .program => .seq (.avoid reserved) (.plus (.call .word))
  | .pipeline =>
    .seq (.call .program) (.star (.inOrder (.only '|') [.star lineBreak, .call .program]))
  | .assignment => .inOrder (.call .name) [.only '=', .opt (.call .word)]
  | .background => .only '&'
  | .statement =>
    .seq (.oneOf (.call .conditional) [.call .loop, .call .assignment, .call .pipeline])
      (.alt (.seq (.call .background) (.opt separator)) statementEnd)
  | .body => .seq (.opt separator) (.star (.call .statement))
  | .branch => .inOrder (.call .pipeline) [separator, .call .thenWord, .call .body]
  | .conditional =>
    .inOrder (.call .ifWord)
      [.call .branch, .star (.seq (.call .elifWord) (.call .branch)),
        .opt (.seq (.call .elseWord) (.call .body)), .call .fiWord]
  | .loop =>
    .inOrder (.call .forWord)
      [.call .name, .call .inWord, .star (.call .word), separator, .opt (.call .parallelWord),
        .call .doWord, .call .body, .call .doneWord]
  | .script => .inOrder .start [.opt separator, .star (.call .statement), .call .endOfInput]

def grammar : Peg.Grammar Rule where
  kind := kind
  body := pattern
  filler := filler

end Rule

end CommandShell
