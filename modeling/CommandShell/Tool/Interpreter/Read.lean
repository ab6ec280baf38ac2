import CommandShell.Tool.Interpreter.Source

/-!
Reading commands. A script is read one complete command after the other, since what a command does
can change how the next one is read.
-/

namespace CommandShell.Interpreter

namespace Reading

/-- Say that the last token does not belong where it is, and which one does. -/
def unexpected {α : Type} (expected : Option Token) : Reading α := do
  let source ← get
  let message := source.last.text ++ " unexpected"
  let message :=
    match expected with
    | some token => message ++ " (expecting " ++ token.text ++ ")"
    | none => message
  fail (String.ofList (message.toList.take 63))

def pushBack : Reading Unit := modify fun source => { source with repeated := true }

def setCheck (check : Check) : Reading Unit := modify fun source => { source with check }

def commandStart : Check := { aliases := true, keywords := true }

def laterCommandStart : Check := { commandStart with newlines := true }

def skipComment : Nat → Reading Unit
  | 0 => return ()
  | steps + 1 => do
    match ← peek with
    | none => return ()
    | some '\n' => return ()
    | some _ =>
      skip
      skipComment steps

/-- The line that comes next, without its line break, in so many steps. -/
def takeLine (read : List Char) : Nat → Reading (List Char × Bool)
  | 0 => return (read.reverse, false)
  | steps + 1 => do
    match ← peek with
    | none => return (read.reverse, false)
    | some c =>
      skip
      if c = '\n' then
        nextLine
        return (read.reverse, true)
      else takeLine (c :: read) steps

/-- The text of a document, up to the line that ends it, in so many steps. -/
def documentText (announced : Announced) (read : List Char) : Nat → Reading (List Char)
  | 0 => return read
  | steps + 1 => do
    if (← peek).isNone then return read
    let (line, broken) ← takeLine [] patience
    let line := if announced.stripped then line.dropWhile (· = '\t') else line
    if line = announced.mark then return read
    else documentText announced (read ++ line ++ (if broken then ['\n'] else [])) steps

def readDocuments (nested : Nested) : List Announced → Reading Unit
  | [] => return ()
  | announced :: others => do
    let first := (← get).line
    let text ← documentText announced [] patience
    let content ←
      if announced.filled then do
        let source ← get
        set { source with rest := text, line := first, whole := true, check := {}, announced := [] }
        let draft ← scan nested patience .document {}
        modify fun inner =>
          { source with documents := inner.documents, nextDocument := inner.nextDocument }
        pure draft.word
      else pure [.text text true]
    modify fun source =>
      { source with documents := ⟨announced.number, content⟩ :: source.documents }
    readDocuments nested others

def readAnnounced (nested : Nested) : Reading Unit := do
  let announced := (← get).announced
  modify fun source => { source with announced := [] }
  readDocuments nested announced

def openRedirection (outward : Bool) (digit : Option Char) : Reading Unit := do
  let descriptor (standard : Descriptor) := (digit.map fun c => c.toNat - 48).getD standard
  let opened : Opened ←
    if outward then
      let descriptor := descriptor 1
      if ← accept '>' then pure (.file .appending descriptor)
      else if ← accept '|' then pure (.file .overwriting descriptor)
      else if ← accept '&' then pure (.copy descriptor)
      else pure (.file .writing descriptor)
    else
      let descriptor := descriptor 0
      if ← accept '<' then pure (.document descriptor (← accept '-'))
      else if ← accept '&' then pure (.copy descriptor)
      else if ← accept '>' then pure (.file .updating descriptor)
      else pure (.file .reading descriptor)
  modify fun source => { source with opened }

def wordToken (nested : Nested) : Reading Token := do
  modify fun source => { source with quoted := false }
  let draft ← scan nested patience .base {}
  let word := draft.word
  let source ← get
  let digit? : Option (Option Char) :=
    if source.quoted then none
    else
      match word with
      | [] => some none
      | [.text [c] false] => if c.isDigit then some (some c) else none
      | _ => none
  match digit?, ← peek with
  | some digit, some '>' =>
    skip
    openRedirection true digit
    return .redirection
  | some digit, some '<' =>
    skip
    openRedirection false digit
    return .redirection
  | _, _ =>
    modify fun source => { source with word }
    return .word

def rawTokenFrom (nested : Nested) : Nat → Reading Token
  | 0 => return .endOfFile
  | steps + 1 => do
    match ← peekJoined with
    | none => return .endOfFile
    | some ' ' => skip; rawTokenFrom nested steps
    | some '\t' => skip; rawTokenFrom nested steps
    | some '#' =>
      skipComment patience
      rawTokenFrom nested steps
    | some '\n' =>
      skip
      nextLine
      return .newline
    | some '&' =>
      skip
      return if ← accept '&' then .and else .background
    | some '|' =>
      skip
      return if ← accept '|' then .or else .pipe
    | some ';' =>
      skip
      return if ← accept ';' then .endOfClause else .semicolon
    | some '(' => skip; return .openParenthesis
    | some ')' => skip; return .closeParenthesis
    | some _ => wordToken nested

def rawToken (nested : Nested) : Reading Token := do
  let source ← get
  if source.repeated then
    set { source with repeated := false }
    return source.last
  else
    let token ← rawTokenFrom nested patience
    modify fun source => { source with last := token }
    return token

def skipNewlines (nested : Nested) : Nat → Token → Reading Token
  | 0, token => return token
  | steps + 1, token => do
    if token = .newline then
      readAnnounced nested
      skipNewlines nested steps (← rawToken nested)
    else return token

/-- Forget the aliases whose texts were read to their ends. -/
def leaveAliases : Reading Unit :=
  modify fun source =>
    if source.replaced.isEmpty then source
    else
      let left := source.rest.length
      { source with replaced := source.replaced.filter fun entry => entry.2 < left }

/-- The next token, in so many steps, where aliases and keywords are looked for if that was asked
for. A word may also be an alias behind the text of another one that ends in a blank. -/
def tokenFrom (nested : Nested) : Nat → Reading Token
  | 0 => return .endOfFile
  | steps + 1 => do
    let source ← get
    let before := source.check
    let fresh := !source.repeated
    if fresh then leaveAliases
    let token ← rawToken nested
    let token ← if before.newlines then skipNewlines nested patience token else pure token
    let source ← get
    let left := if source.replaced.isEmpty then 0 else source.rest.length
    let (inside, passed) := source.replaced.partition fun entry => entry.2 ≤ left
    let again := fresh && passed.any fun entry =>
      (source.aliases.lookup entry.1).any fun text =>
        text.getLast? = some ' ' || text.getLast? = some '\t'
    let check : Check :=
      { before with
        aliases := before.aliases || source.check.aliases || again
        keywords := before.keywords || source.check.keywords }
    set { source with check := {} }
    match token, Word.plain? source.word with
    | .word, some chars =>
      if source.quoted then return token
      else
        match if check.keywords then Keyword.all.find? (fun word => word.text.toList = chars)
          else none with
        | some word =>
          modify fun source => { source with last := .keyword word }
          return .keyword word
        | none =>
          match if check.aliases && !inside.any (fun entry => entry.1 = chars) then
              source.aliases.lookup chars else none with
          | some text =>
            modify fun source =>
              { source with
                rest := text ++ source.rest
                replaced := (chars, source.rest.length) :: inside
                check }
            tokenFrom nested steps
          | none => return token
    | _, _ => return token

def token (nested : Nested) : Reading Token := tokenFrom nested patience

def expectToken (nested : Nested) (wanted : Token) : Reading Unit := do
  if (← token nested) ≠ wanted then unexpected (some wanted)

def redirectionTarget (nested : Nested) : Reading Redirection := do
  let opened := (← get).opened
  match opened with
  | .document _ _ => setCheck { mark := true }
  | _ => pure ()
  if (← token nested) ≠ .word then unexpected none
  let source ← get
  match opened with
  | .file direction descriptor => return .file direction descriptor source.word
  | .copy descriptor =>
    match source.word.literal? with
    | some ['-'] => return .copy descriptor none
    | some [c] =>
      if c.isDigit then return .copy descriptor (some (c.toNat - 48))
      else return .copyOf descriptor source.word
    | _ => return .copyOf descriptor source.word
  | .document descriptor stripped =>
    let number := source.nextDocument
    let announced : Announced :=
      ⟨number, (source.word.literal?).getD [], stripped, !source.quoted⟩
    set { source with announced := source.announced ++ [announced], nextDocument := number + 1 }
    return .document descriptor number

end Reading

structure Grammar where
  list : Bool → Bool → Reading (Option Tree)
  command : Reading Tree

namespace Grammar

def nested (grammar : Grammar) : Nested where
  list := grammar.list false true
  expect wanted := Reading.expectToken ⟨return none, fun _ => return ()⟩ wanted

def token (grammar : Grammar) : Reading Token := Reading.token grammar.nested

def expect (grammar : Grammar) (wanted : Token) : Reading Unit :=
  Reading.expectToken grammar.nested wanted

def redirections (grammar : Grammar) (read : List Redirection) : Nat → Reading (List Redirection)
  | 0 => return read.reverse
  | steps + 1 => do
    if (← grammar.token) = .redirection then
      let redirection ← Reading.redirectionTarget grammar.nested
      redirections grammar (redirection :: read) steps
    else
      Reading.pushBack
      return read.reverse

/-- What was read of a simple command, all the latest first. -/
structure Parts where
  assignments : List Word := []
  words : List Word := []
  redirections : List Redirection := []

def definition (grammar : Grammar) (name : Word) : Reading Tree := do
  grammar.expect .closeParenthesis
  match name.plain? with
  | some chars =>
    if isName chars && !specialNames.contains (String.ofList chars) then
      Reading.setCheck Reading.laterCommandStart
      return .define chars (← grammar.command)
    else Reading.fail "Bad function name"
  | none => Reading.fail "Bad function name"
where
  /-- The commands that no function can take the place of. -/
  specialNames : List String :=
    [".", ":", "break", "continue", "eval", "exec", "exit", "export", "readonly", "return", "set",
      "shift", "times", "trap", "unset"]

/-- A simple command or the definition of a function, in so many steps. -/
def simple (grammar : Grammar) (line : Nat) (parts : Parts) : Nat → Reading Tree
  | 0 => return .simple line [] [] []
  | steps + 1 => do
    Reading.setCheck { aliases := parts.words.isEmpty }
    match ← grammar.token with
    | .word =>
      let word := (← get).word
      if parts.words.isEmpty && word.isAssignment then
        grammar.simple line { parts with assignments := word :: parts.assignments } steps
      else grammar.simple line { parts with words := word :: parts.words } steps
    | .redirection =>
      let redirection ← Reading.redirectionTarget grammar.nested
      grammar.simple line { parts with redirections := redirection :: parts.redirections } steps
    | next =>
      match next, parts with
      | .openParenthesis, ⟨[], [name], []⟩ => grammar.definition name
      | _, _ =>
        Reading.pushBack
        return .simple line parts.assignments.reverse parts.words.reverse parts.redirections.reverse

def choice (grammar : Grammar) : Nat → Reading Tree
  | 0 => return .choice none none none
  | steps + 1 => do
    let test ← grammar.list false false
    grammar.expect (.keyword .thenWord)
    let body ← grammar.list false false
    match ← grammar.token with
    | .keyword .elifWord => return .choice test body (some (← grammar.choice steps))
    | .keyword .elseWord => return .choice test body (← grammar.list false false)
    | _ =>
      Reading.pushBack
      return .choice test body none

def words (grammar : Grammar) (read : List Word) : Nat → Reading (List Word)
  | 0 => return read.reverse
  | steps + 1 => do
    if (← grammar.token) = .word then grammar.words ((← get).word :: read) steps
    else return read.reverse

/-- The patterns of a clause, in so many steps. The word of the first one was read. -/
def patterns (grammar : Grammar) (read : List Word) : Nat → Reading (List Word)
  | 0 => return read.reverse
  | steps + 1 => do
    let read := (← get).word :: read
    if (← grammar.token) = .pipe then
      let _ ← grammar.token
      grammar.patterns read steps
    else return read.reverse

def clauses (grammar : Grammar) (read : List (List Word × Option Tree)) :
    Nat → Reading (List (List Word × Option Tree))
  | 0 => return read.reverse
  | steps + 1 => do
    Reading.setCheck { keywords := true, newlines := true }
    let token ← grammar.token
    if token = .keyword .esacWord then return read.reverse
    if token = .openParenthesis then
      let _ ← grammar.token
    let patterns ← grammar.patterns [] patience
    if (← get).last ≠ .closeParenthesis then Reading.unexpected (some .closeParenthesis)
    let body ← grammar.list false true
    Reading.setCheck { keywords := true, newlines := true }
    let read := (patterns, body) :: read
    match ← grammar.token with
    | .keyword .esacWord => return read.reverse
    | .endOfClause => grammar.clauses read steps
    | _ => Reading.unexpected (some .endOfClause)

def everyArgument : Word := [.parameter ['@'] .value false [] true]

def each (grammar : Grammar) (line : Nat) : Reading Tree := do
  let token ← grammar.token
  let source ← get
  let bad {α : Type} : Reading α := Reading.fail "Bad for loop variable"
  match token, source.word.plain? with
  | .word, some name =>
    if source.quoted || !isName name then bad
    Reading.setCheck Reading.laterCommandStart
    let words ←
      if (← grammar.token) = .keyword .inWord then do
        let words ← grammar.words [] patience
        let last := (← get).last
        if last ≠ .newline && last ≠ .semicolon then Reading.unexpected none
        pure words
      else do
        if (← get).last ≠ .semicolon then Reading.pushBack
        pure [everyArgument]
    Reading.setCheck Reading.laterCommandStart
    grammar.expect (.keyword .doWord)
    return .each line name words (← grammar.list false false)
  | _, _ => bad

def select (grammar : Grammar) (line : Nat) : Reading Tree := do
  if (← grammar.token) ≠ .word then Reading.unexpected (some .word)
  let subject := (← get).word
  Reading.setCheck Reading.laterCommandStart
  grammar.expect (.keyword .inWord)
  return .select line subject (← grammar.clauses [] patience)

def compound (grammar : Grammar) (line : Nat) (tree : Option Tree) : Reading Tree := do
  Reading.setCheck Reading.commandStart
  let redirections ← grammar.redirections [] patience
  match redirections, tree with
  | [], some tree => return tree
  | _, some (.subshell line inner _) => return .subshell line inner redirections
  | _, _ => return .redirected line tree redirections

def commandWith (grammar : Grammar) : Reading Tree := do
  let token ← grammar.token
  let line := (← get).line
  let closed (tree : Option Tree) (wanted : Token) : Reading Tree := do
    grammar.expect wanted
    grammar.compound line tree
  match token with
  | .keyword .ifWord => closed (some (← grammar.choice patience)) (.keyword .fiWord)
  | .keyword .whileWord =>
    loop grammar false >>= fun tree => closed (some tree) (.keyword .doneWord)
  | .keyword .untilWord => loop grammar true >>= fun tree => closed (some tree) (.keyword .doneWord)
  | .keyword .forWord => closed (some (← grammar.each line)) (.keyword .doneWord)
  | .keyword .caseWord => grammar.compound line (some (← grammar.select line))
  | .openParenthesis =>
    let inner ← grammar.list false false
    closed (some (.subshell line inner [])) .closeParenthesis
  | .keyword .openBrace => closed (← grammar.list false false) (.keyword .closeBrace)
  | .word =>
    Reading.pushBack
    grammar.simple line {} patience
  | .redirection =>
    Reading.pushBack
    grammar.simple line {} patience
  | _ => Reading.unexpected none
where
  loop (grammar : Grammar) (untilSuccess : Bool) : Reading Tree := do
    let test ← grammar.list false false
    grammar.expect (.keyword .doWord)
    return .loop untilSuccess test (← grammar.list false false)

/-- The stages of a pipeline behind the first one, in so many steps. -/
def stages (grammar : Grammar) (read : List Tree) : Nat → Reading (List Tree)
  | 0 => return read.reverse
  | steps + 1 => do
    if (← grammar.token) = .pipe then
      Reading.setCheck Reading.laterCommandStart
      let stage ← grammar.command
      grammar.stages (stage :: read) steps
    else
      Reading.pushBack
      return read.reverse

def pipeline (grammar : Grammar) : Reading Tree := do
  let negated ← do
    if (← grammar.token) = .keyword .notWord then
      Reading.setCheck Reading.commandStart
      pure true
    else
      Reading.pushBack
      pure false
  let tree ←
    match ← grammar.stages [← grammar.command] patience with
    | [tree] => pure tree
    | stages => pure (.pipeline stages false)
  return if negated then .negated tree else tree

/-- Pipelines of which each runs or not by the success of those before, in so many steps. -/
def conditionalFrom (grammar : Grammar) (tree : Tree) : Nat → Reading Tree
  | 0 => return tree
  | steps + 1 => do
    match ← grammar.token with
    | .and =>
      Reading.setCheck Reading.laterCommandStart
      let next ← grammar.pipeline
      grammar.conditionalFrom (.onSuccess tree next) steps
    | .or =>
      Reading.setCheck Reading.laterCommandStart
      let next ← grammar.pipeline
      grammar.conditionalFrom (.onFailure tree next) steps
    | _ =>
      Reading.pushBack
      return tree

def inBackground : Tree → Tree
  | .pipeline stages _ => .pipeline stages true
  | .redirected line inner redirections => .background line inner redirections
  | tree => .background 0 (some tree) []

def followed : Option Tree → Tree → Tree
  | none, tree => tree
  | some first, second => .both first second

/-- A list of commands in so many steps: one line, or up to a token that ends lists. In a list that
may be empty, such a token may also come first. -/
def listFrom (grammar : Grammar) (oneLine mayEnd : Bool) (read : Option Tree) :
    Nat → Reading (Option Tree)
  | 0 => return read
  | steps + 1 => do
    Reading.setCheck { Reading.commandStart with newlines := !oneLine }
    match ← grammar.token with
    | .newline =>
      Reading.readAnnounced grammar.nested
      return read
    | .endOfFile =>
      Reading.readAnnounced grammar.nested
      Reading.pushBack
      return read
    | token =>
      Reading.pushBack
      if mayEnd && !oneLine && token.endsList then return read
      let tree ← grammar.conditionalFrom (← grammar.pipeline) patience
      match ← grammar.token with
      | .background =>
          grammar.listFrom oneLine true (some (followed read (inBackground tree))) steps
      | .semicolon => grammar.listFrom oneLine true (some (followed read tree)) steps
      | .newline =>
        Reading.pushBack
        grammar.listFrom oneLine true (some (followed read tree)) steps
      | .endOfFile =>
        Reading.readAnnounced grammar.nested
        Reading.pushBack
        return some (followed read tree)
      | _ =>
        if oneLine then Reading.unexpected none
        Reading.pushBack
        return some (followed read tree)

def within : Nat → Grammar
  | 0 =>
    { list := fun _ _ => Reading.fail "too deep"
      command := Reading.fail "too deep" }
  | depth + 1 =>
    { list := fun oneLine mayEnd => (within depth).listFrom oneLine mayEnd none patience
      command := fun source => (within depth).commandWith source }

end Grammar

inductive Reached where
  | command (tree : Option Tree)
  | finished

def readCommand : Reading Reached := do
  modify fun source => { source with repeated := false, check := {}, announced := [] }
  let tree ← (Grammar.within patience).list true false
  let source ← get
  match tree, source.repeated, source.last with
  | none, true, .endOfFile => return .finished
  | _, _, _ => return .command tree

end CommandShell.Interpreter
