import CommandShell.Action
import CommandShell.Tool.Interpreter.Syntax

/-!
The text of a script while it is read: its characters, and its words with all that is filled into
them.
-/

namespace CommandShell.Interpreter

structure Check where
  aliases : Bool := false
  keywords : Bool := false
  /-- Line breaks before the token are skipped. -/
  newlines : Bool := false
  /-- The token is the word that ends a document; nothing is filled in there. -/
  mark : Bool := false

/-- A document that was announced and comes after the end of the line. -/
structure Announced where
  number : Nat
  mark : List Char
  /-- Whether tabs at the start of its lines are left out. -/
  stripped : Bool
  filled : Bool

inductive Opened where
  | file (direction : Direction) (descriptor : Descriptor)
  | copy (descriptor : Descriptor)
  | document (descriptor : Descriptor) (stripped : Bool)

structure Source where
  rest : List Char
  line : Nat := 1
  whole : Bool := true
  aliases : List (List Char × List Char) := []
  /-- The aliases whose texts are read, with the number of characters behind each. -/
  replaced : List (List Char × Nat) := []
  repeated : Bool := false
  last : Token := .newline
  word : Word := []
  quoted : Bool := false
  check : Check := {}
  opened : Opened := .copy 0
  announced : List Announced := []
  documents : List Document := []
  nextDocument : Nat := 0

inductive Obstacle where
  | more
  | wrong (line : Nat) (message : String)

abbrev Reading := StateT Source (Except Obstacle)

namespace Reading

def fail {α : Type} (message : String) : Reading α := do
  throw (.wrong (← get).line ("Syntax error: " ++ message))

def peek : Reading (Option Char) := do
  let source ← get
  match source.rest with
  | c :: _ => return some c
  | [] => if source.whole then return none else throw .more

def skip : Reading Unit :=
  modify fun source => { source with rest := source.rest.drop 1 }

def nextLine : Reading Unit := modify fun source => { source with line := source.line + 1 }

/-- The next character, behind line breaks after a backslash, in so many steps. -/
def peekJoinedFrom : Nat → Reading (Option Char)
  | 0 => peek
  | steps + 1 => do
    let source ← get
    match source.rest with
    | '\\' :: '\n' :: rest =>
      set { source with rest, line := source.line + 1 }
      peekJoinedFrom steps
    | ['\\'] => if source.whole then return some '\\' else throw .more
    | _ => peek

/-- The next character, behind line breaks after a backslash. -/
def peekJoined : Reading (Option Char) := peekJoinedFrom patience

def accept (c : Char) : Reading Bool := do
  if (← peekJoined) = some c then
    skip
    return true
  else return false

/-- Go on behind characters of a kind, in so many steps; `read` are those before, the latest
first. -/
def takeFrom (wanted : Char → Bool) (read : List Char) : Nat → Reading (List Char)
  | 0 => return read.reverse
  | steps + 1 => do
    match ← peekJoined with
    | some c =>
      if wanted c then
        skip
        takeFrom wanted (c :: read) steps
      else return read.reverse
    | none => return read.reverse

def takeJoined (wanted : Char → Bool) : Reading (List Char) := takeFrom wanted [] patience

end Reading

structure Draft where
  /-- The parts that are ready, the latest first. -/
  parts : List Part := []
  /-- The text of the part that is not, the latest character first. -/
  run : List Char := []
  runQuoted : Bool := false

namespace Draft

def close (draft : Draft) : Draft :=
  if draft.run.isEmpty then draft
  else { draft with parts := .text draft.run.reverse draft.runQuoted :: draft.parts, run := [] }

def put (draft : Draft) (c : Char) (quoted : Bool) : Draft :=
  if draft.runQuoted = quoted then { draft with run := c :: draft.run }
  else { draft.close with run := [c], runQuoted := quoted }

def putQuoted (draft : Draft) (chars : List Char) : Draft :=
  { draft.close with parts := .text chars true :: draft.close.parts }

def add (draft : Draft) (parts : List Part) : Draft :=
  { draft.close with parts := parts.reverse ++ draft.close.parts }

def word (draft : Draft) : Word := draft.close.parts.reverse

end Draft

inductive Context where
  | base
  /-- Between double quotes; within a parameter, a brace can be written there with a backslash. -/
  | double (inParameter : Bool)
  | document
  | parameter (quoted : Bool)
  /-- An expression with so many open parentheses. -/
  | arithmetic (depth : Nat)

namespace Context

def quotes : Context → Bool
  | .base => false
  | .parameter quoted => quoted
  | _ => true

/-- The characters that a backslash takes the meaning from, where others keep the backslash. -/
def escapes : Context → Option (List Char)
  | .base => none
  | .parameter false => none
  | .parameter true => some ['\\', '\x60', '$', '\x22', '\x7d']
  | .double true => some ['\\', '\x60', '$', '\x22', '\x7d']
  | .double false => some ['\\', '\x60', '$', '\x22']
  | .document => some ['\\', '\x60', '$']
  | .arithmetic _ => some ['\\', '\x60', '$', '\x22']

/-- What is wrong if the text ends here. -/
def unfinished? : Context → Option String
  | .base => none
  | .document => none
  | .double _ => some "Unterminated quoted string"
  | .parameter true => some "Unterminated quoted string"
  | .parameter false => some "Missing '\x7d'"
  | .arithmetic _ => some "Missing '))'"

end Context

def endsWord (c : Char) : Bool := c ∈ [' ', '\t', '\n', ';', '&', '|', '(', ')', '<', '>']

namespace Reading

def noteQuoted : Reading Unit := modify fun source => { source with quoted := true }

def singleQuoted (read : List Char) : Nat → Reading (List Char)
  | 0 => return read.reverse
  | steps + 1 => do
    match ← peek with
    | none => fail "Unterminated quoted string"
    | some c =>
      skip
      if c = '\x27' then return read.reverse
      if c = '\n' then nextLine
      singleQuoted (c :: read) steps

/-- Read to the backquote that ends a list of commands, in so many steps, and take away the
backslashes that belong to the quotes. -/
def backquoted (quoted : Bool) (read : List Char) : Nat → Reading (List Char)
  | 0 => return read.reverse
  | steps + 1 => do
    match ← peek with
    | none => fail "EOF in backquote substitution"
    | some '\x60' =>
      skip
      return read.reverse
    | some '\\' =>
      skip
      match ← peek with
      | none => fail "EOF in backquote substitution"
      | some '\n' =>
        skip
        nextLine
        backquoted quoted read steps
      | some c =>
        skip
        if c = '\\' || c = '\x60' || c = '$' || (quoted && c = '\x22') then
          backquoted quoted (c :: read) steps
        else backquoted quoted (c :: '\\' :: read) steps
    | some c =>
      skip
      if c = '\n' then nextLine
      backquoted quoted (c :: read) steps

def within {α : Type} (text : List Char) (reading : Reading α) : Reading α := do
  let source ← get
  set { source with rest := text, line := 1, whole := true, replaced := [], repeated := false,
                    check := {}, announced := [] }
  let result ← reading
  modify fun inner =>
    { source with documents := inner.documents, nextDocument := inner.nextDocument }
  return result

def upToParenthesis (list : Reading (Option Tree)) (expect : Token → Reading Unit) :
    Reading (Option Tree) := do
  let source ← get
  set { source with repeated := false, check := {}, announced := [] }
  let tree ← list
  expect .closeParenthesis
  modify fun inner =>
    { inner with repeated := false, check := source.check, announced := source.announced
                 word := source.word, quoted := source.quoted, last := source.last }
  return tree

/-- The operator behind the name of a parameter, and whether it has a colon. -/
def operator : Reading (Operator × Bool) := do
  let colon ← accept ':'
  match ← peekJoined with
  | some '\x7d' =>
    if colon then skip
    return (.value, colon)
  | some '-' => skip; return (.fallback, colon)
  | some '+' => skip; return (.alternative, colon)
  | some '?' => skip; return (.complaint, colon)
  | some '=' => skip; return (.assignment, colon)
  | some '#' =>
    skip
    if colon then return (.bad, colon)
    return (.cutStart (← accept '#'), colon)
  | some '%' =>
    skip
    if colon then return (.bad, colon)
    return (.cutEnd (← accept '%'), colon)
  | _ => skip; return (.bad, colon)

end Reading

structure Nested where
  list : Reading (Option Tree)
  expect : Token → Reading Unit

/-- Read the text of a word in a context to its end, in so many steps. -/
def scan (nested : Nested) : Nat → Context → Draft → Reading Draft
  | 0, _, draft => return draft
  | steps + 1, context, draft => do
    match ← Reading.peek with
    | none =>
      match context.unfinished? with
      | some message => Reading.fail message
      | none => return draft
    | some c =>
      let here (c : Char) : Reading Draft := do
        Reading.skip
        if c = '\n' then Reading.nextLine
        scan nested steps context (draft.put c context.quotes)
      match c, context with
      | '\\', _ =>
        Reading.skip
        match ← Reading.peek with
        | none => scan nested steps context (draft.put '\\' context.quotes)
        | some '\n' =>
          Reading.skip
          Reading.nextLine
          scan nested steps context draft
        | some c =>
          Reading.skip
          Reading.noteQuoted
          match context.escapes with
          | none => scan nested steps context (draft.put c true)
          | some known =>
            if known.contains c then scan nested steps context (draft.put c true)
            else
              if c = '\n' then Reading.nextLine
              scan nested steps context ((draft.put '\\' true).put c true)
      | '\x27', .base | '\x27', .parameter false =>
        Reading.skip
        Reading.noteQuoted
        let text ← Reading.singleQuoted [] patience
        scan nested steps context (draft.putQuoted text)
      | '\x22', .base | '\x22', .parameter _ =>
        Reading.skip
        Reading.noteQuoted
        let inParameter := match context with | .base => false | _ => true
        let inner ← scan nested steps (.double inParameter) {}
        scan nested steps context ((draft.putQuoted []).add inner.word)
      | '\x22', .double _ =>
        Reading.skip
        return draft
      | '\x7d', .parameter _ =>
        Reading.skip
        return draft
      | '(', .arithmetic depth =>
        Reading.skip
        scan nested steps (.arithmetic (depth + 1)) (draft.put c true)
      | ')', .arithmetic 0 =>
        Reading.skip
        if ← Reading.accept ')' then return draft
        else scan nested steps context (draft.put c true)
      | ')', .arithmetic (depth + 1) =>
        Reading.skip
        scan nested steps (.arithmetic depth) (draft.put c true)
      | '\x60', _ =>
        if (← get).check.mark then here c
        else
          Reading.skip
          let text ← Reading.backquoted context.quotes [] patience
          let tree ← Reading.within text nested.list
          scan nested steps context (draft.add [.output tree context.quotes])
      | '$', _ =>
        Reading.skip
        let quoted := context.quotes
        if (← get).check.mark then scan nested steps context (draft.put '$' quoted)
        else
          match ← Reading.peekJoined with
          | some '(' =>
            Reading.skip
            if ← Reading.accept '(' then
              let inner ← scan nested steps (.arithmetic 0) {}
              scan nested steps context (draft.add [.arithmetic inner.word quoted])
            else
              let tree ← Reading.upToParenthesis nested.list nested.expect
              scan nested steps context (draft.add [.output tree quoted])
          | some '\x7b' =>
            Reading.skip
            let (name, operator, colon) ← parameter
            match operator, colon with
            | .value, false =>
              Reading.skip
              scan nested steps context (draft.add [.parameter name .value false [] quoted])
            | _, _ =>
              let trims :=
                match operator with | .cutStart _ => true | .cutEnd _ => true | _ => false
              let inner ← scan nested steps (.parameter (quoted && !trims)) {}
              scan nested steps context
                (draft.add [.parameter name operator colon inner.word quoted])
          | some c =>
            if isNameStart c then
              let name ← Reading.takeJoined isNameChar
              scan nested steps context (draft.add [.parameter name .value false [] quoted])
            else if isSpecial c then
              Reading.skip
              scan nested steps context (draft.add [.parameter [c] .value false [] quoted])
            else scan nested steps context (draft.put '$' quoted)
          | none => scan nested steps context (draft.put '$' quoted)
      | _, .base => if endsWord c then return draft else here c
      | _, _ => here c
where
  parameter : Reading (List Char × Operator × Bool) := do
    match ← Reading.peekJoined with
    | none => return ([], .bad, false)
    | some c =>
      if isNameStart c then
        let name ← Reading.takeJoined isNameChar
        let (operator, colon) ← Reading.operator
        return (name, operator, colon)
      else if c.isDigit then
        let name ← Reading.takeJoined Char.isDigit
        let (operator, colon) ← Reading.operator
        return (name, operator, colon)
      else if c = '\x7d' then return ([], .bad, false)
      else
        Reading.skip
        if c = '#' then lengthOf
        else if isSpecial c then
          let (operator, colon) ← Reading.operator
          return ([c], operator, colon)
        else return ([], .bad, false)
  /-- What comes behind a number sign: a parameter whose length is wanted, or the operator of the
  number of arguments. -/
  lengthOf : Reading (List Char × Operator × Bool) := do
    let close (name : List Char) : Reading (List Char × Operator × Bool) := do
      if (← Reading.peekJoined) = some '\x7d' then return (name, .length, false)
      else return (name, .bad, false)
    match ← Reading.peekJoined with
    | none => return (['#'], .bad, false)
    | some c =>
      if isNameStart c then close (← Reading.takeJoined isNameChar)
      else if c.isDigit then close (← Reading.takeJoined Char.isDigit)
      else
        let before ← get
        Reading.skip
        if c ≠ '\x7d' && (← Reading.peekJoined) = some '\x7d' then
          if isSpecial c then return ([c], .length, false) else return ([], .bad, false)
        else
          set before
          let (operator, colon) ← Reading.operator
          return (['#'], operator, colon)

end CommandShell.Interpreter
