import CommandShell.Tool.Interpreter.Command.Condition
import CommandShell.Tool.Interpreter.Command.Jobs
import CommandShell.Tool.Interpreter.Command.Variables
import CommandShell.Tool.Interpreter.Read
import CommandShell.Tool.Interpreter.Redirect

/-!
Running commands. Whatever runs a command within another one is given a way to do so.
-/

namespace CommandShell.Interpreter

structure Mode where
  last : Bool := false
  /-- Whether its status is looked at, so that a failure is no reason to end. -/
  tested : Bool := false

structure Evaluator where
  tree : Mode → Option Tree → Running Int

namespace Evaluator

/-! Texts -/

def noteRead (state : State) (source : Source) : State :=
  { state with
    documents := source.documents ++ state.documents
    nextDocument := source.nextDocument
    readLine := source.line }

/-- Run the commands of a text one after the other, in so many steps. -/
def runSource (evaluator : Evaluator) (mode : Mode) : Nat → Source → Int → Running Int
  | 0, _, status => return status
  | steps + 1, source, status => do
    let state ← get
    let source :=
      { source with aliases := state.aliases, nextDocument := state.nextDocument, documents := [] }
    match readCommand.run source with
    | .error .more => return status
    | .error (.wrong line message) =>
      modify fun state => { state with line }
      Running.fail message.toList
    | .ok (.finished, _) => return status
    | .ok (.command tree, source) =>
      set (noteRead state source)
      let atEnd := source.repeated && source.last = .endOfFile
      let result ← evaluator.tree { mode with last := mode.last && atEnd } tree
      let status := if tree.isSome then result else status
      if (← get).skip.isSome then return status
      runSource evaluator mode steps source status

def runText (evaluator : Evaluator) (mode : Mode) (text : List Char) : Running Int := do
  let line := (← get).readLine
  let status ← evaluator.runSource mode patience { rest := text } 0
  modify fun state => { state with readLine := line }
  return status

def answerSignals (evaluator : Evaluator) : Running Unit := do
  Running.collectSignals
  let state ← get
  if state.pending.isEmpty || state.skip.isSome then return ()
  let status := state.savedStatus.getD state.status
  set { state with savedStatus := some status }
  Running.each (fun signal => do
    let current ← get
    if current.pending.contains signal && current.skip.isNone then
      set { current with pending := current.pending.filter (· ≠ signal) }
      match current.traps.lookup signal with
      | none => return ()
      | some action =>
        let _ ← evaluator.runText {} action
        modify fun after =>
          if after.skip = some (.leaveFunction true) then after else { after with status })
    ((List.range Signal.limit).filter fun signal => state.pending.contains signal)
  modify fun after => { after with savedStatus := state.savedStatus }

/-! Finding commands -/

/-- The commands of the interpreter that a script cannot do without. Mistakes in them end the
script. -/
def specialNames : List String :=
  [".", ":", "break", "continue", "eval", "exec", "exit", "export", "local", "readonly", "return",
    "set", "shift", "times", "trap", "unset"]

def regularNames : List String :=
  ["[", "alias", "bg", "cd", "command", "echo", "false", "fg", "getopts", "hash", "jobs", "kill",
    "printf", "pwd", "read", "test", "true", "type", "ulimit", "umask", "unalias", "wait"]

def isSpecialName (name : List Char) : Bool := specialNames.contains (String.ofList name)

def isCommandName (name : List Char) : Bool :=
  isSpecialName name || regularNames.contains (String.ofList name)

def standardPath : List Char :=
  "/usr/local/sbin:/usr/local/bin:/usr/sbin:/usr/bin:/sbin:/bin".toList

def placesOf (path : List Char) : List (List Char) :=
  (Bytes.split ':' (Bytes.ofChars path)).map Bytes.toChars

def within (place name : List Char) : List Char :=
  if place.isEmpty then name else place ++ '/' :: name

def searchFrom (name : List Char) (errno : Errno) :
    List (List Char) → Running (Except Errno (List Char))
  | [] => return .error errno
  | place :: rest => do
    match ← Running.ask (.stat (Bytes.ofChars (within place name)) true) with
    | .error found =>
      searchFrom name (if found = .noEntry || found = .notDirectory then errno else found) rest
    | .ok status =>
      if status.kind = .regular && status.executable then return .ok (within place name)
      else searchFrom name .accessDenied rest

def searchProgram (path : Option (List Char)) (name : List Char) :
    Running (Except Errno (List Char)) := do
  let state ← get
  match path, state.located.lookup name with
  | none, some found => return .ok found
  | _, _ =>
    let places := placesOf (path.getD ((state.lookup "PATH".toList).getD []))
    let found ← searchFrom name .noEntry places
    if let .ok full := found then
      if path.isNone then
        modify fun state => { state with located := state.located ++ [(name, full)] }
    return found

/-- Become a program, or find out why that cannot be. A file without a format is a script. -/
def become (path : List Char) (arguments : List (List Char)) : Running Errno := do
  let environment := (← get).environment
  let path := Bytes.ofChars path
  let words := arguments.map Bytes.ofChars
  let errno : Errno ← Running.ask (.replace path words environment)
  if errno = .badFormat then
    let interpreter := Bytes.ofText "/bin/sh"
    Running.ask (.replace interpreter (interpreter :: path :: words.drop 1) environment)
  else return errno

def becomeFrom (arguments : List (List Char)) (errno : Errno) : List (List Char) → Running Errno
  | [] => return errno
  | place :: rest => do
    let found ← become (within place (arguments.headD [])) arguments
    becomeFrom arguments (if found = .noEntry || found = .notDirectory then errno else found) rest

def execute (arguments : List (List Char)) (path : Option (List Char)) : Running Int := do
  let name := arguments.headD []
  let errno ←
    match path with
    | some path => become path arguments
    | none =>
      if name.contains '/' then become name arguments
      else do becomeFrom arguments .noEntry (placesOf (((← get).lookup "PATH".toList).getD []))
  let missing := [Errno.tooManyLinks, .nameTooLong, .noEntry, .notDirectory].contains errno
  Running.failWith .finish (if missing then 127 else 126)
    (name ++ ": ".toList ++ Use.text .running errno)

/-! Commands about commands -/

def describe (full : Bool) (path : Option (List Char)) (name : List Char) : Running Int := do
  let state ← get
  let say (short long : List Char) : Running Int := do
    Running.print ((if full then name ++ long else short) ++ ['\n'])
    return 0
  if Keyword.all.any fun word => word.text.toList = name then say name " is a shell keyword".toList
  else
    match state.aliases.lookup name with
    | some text =>
      say ("alias ".toList ++ name ++ '=' :: singleQuote text) (" is an alias for ".toList ++ text)
    | none =>
      if isSpecialName name then say name " is a special shell builtin".toList
      else if (state.functions.lookup name).isSome then say name " is a shell function".toList
      else if isCommandName name then say name " is a shell builtin".toList
      else if name.contains '/' then
        match ← Running.ask (.stat (Bytes.ofChars name) true) with
        | .ok _ => say name (" is ".toList ++ name)
        | .error _ => unknown
      else
        match state.located.lookup name with
        | some found => say found (" is a tracked alias for ".toList ++ found)
        | none =>
          match ← searchFrom name .noEntry
              (placesOf (path.getD ((state.lookup "PATH".toList).getD []))) with
          | .ok found => say found (" is ".toList ++ found)
          | .error _ => unknown
where
  unknown : Running Int := do
    if full then Running.print (name ++ ": not found\n".toList)
    return 127

def typeCommand : Command := fun arguments => do
  let mut status : Int := 0
  for name in arguments do
    let code ← describe true none name
    if code ≠ 0 then status := code
  return status

def commandCommand : Command := fun arguments => do
  let (given, words) ← options [('p', false), ('v', false), ('V', false)] arguments
  let path := if given.any fun entry => entry.1 = 'p' then some standardPath else none
  let verbose := given.any fun entry => entry.1 = 'V'
  if verbose || given.any fun entry => entry.1 = 'v' then
    match words with
    | name :: _ => describe verbose path name
    | [] => return 0
  else return 0

def hashCommand : Command := fun arguments => do
  let (given, names) ← options [('r', false)] arguments
  if !given.isEmpty then
    modify fun state => { state with located := [] }
    return 0
  if names.isEmpty then
    let located := (← get).located
    let bucket (name : List Char) : Nat :=
      name.foldl (fun total c => total + c.toNat) ((name.head?.map Char.toNat).getD 0 * 16) %
        32768 % 31
    Running.print ((List.range 31).flatMap fun number =>
      (located.filter fun entry => bucket entry.1 = number).flatMap fun entry => entry.2 ++ ['\n'])
    return 0
  let mut status := 0
  for name in names do
    if !(isCommandName name || ((← get).functions.lookup name).isSome) then
      modify fun state =>
        { state with located := state.located.filter fun entry => entry.1 ≠ name }
      match ← searchProgram none name with
      | .ok _ => pure ()
      | .error errno =>
        Running.warn (name ++ ": ".toList ++ Use.text .running errno)
        status := 1
  return status

/-! Commands for the flow of a script -/

def loopCommand (skip : Nat → Skip) : Command := fun arguments => do
  let count ←
    match arguments with
    | [] => pure 1
    | word :: _ => do
      let count ← Running.orFail (numberOf word)
      if count ≤ 0 then Running.fail (illegalNumber word)
      pure count
  let state ← get
  let count := min count.toNat state.loopDepth
  if 0 < count then set { state with skip := some (skip count) }
  return 0

def returnCommand : Command := fun arguments => do
  match arguments with
  | word :: _ =>
    let status ← Running.orFail (numberOf word)
    modify fun state => { state with skip := some (.leaveFunction true) }
    return status
  | [] =>
    modify fun state => { state with skip := some (.leaveFunction false) }
    return (← get).status

def exitCommand : Command := fun arguments => do
  if let word :: _ := arguments then
    let status ← Running.orFail (numberOf word)
    modify fun state => { state with savedStatus := some status }
  throw .exit

def evalCommand (evaluator : Evaluator) (mode : Mode) : Command := fun arguments => do
  if arguments.isEmpty then return 0
  evaluator.runText { tested := mode.tested } (List.intercalate [' '] arguments)

def scriptNamed (name : List Char) : Running (List Char) := do
  if name.contains '/' then return name
  let rec search : List (List Char) → Running (List Char)
    | [] => Running.fail (name ++ ": not found".toList)
    | place :: rest => do
      match ← Running.ask (.stat (Bytes.ofChars (within place name)) true) with
      | .ok status => if status.kind = .regular then return within place name else search rest
      | .error _ => search rest
  search (placesOf (((← get).lookup "PATH".toList).getD []))

def dotCommand (evaluator : Evaluator) : Command := fun arguments => do
  let (_, words) ← options [] arguments
  match words with
  | [] => return 0
  | name :: _ =>
    let path ← scriptNamed name
    let descriptor ← Running.openFile .opening path { readable := true }
    let text ← Running.readPipe descriptor [] patience
    let _ ← Running.ask (.close descriptor)
    modify fun state => { state with command := some path }
    let status ← evaluator.runText {} text.toChars
    modify fun state =>
      match state.skip with
      | some (.leaveFunction _) => { state with skip := none }
      | _ => state
    return status

def execCommand : Command := fun arguments => do
  if arguments.isEmpty then return 0 else execute arguments none

def commandNamed (evaluator : Evaluator) (mode : Mode) (name : String) : Command :=
  match name with
  | "." => evaluator.dotCommand
  | ":" => fun _ => return 0
  | "[" => bracket
  | "alias" => aliasCommand
  | "bg" => controlCommand
  | "break" => loopCommand .leaveLoops
  | "cd" => cdCommand
  | "command" => commandCommand
  | "continue" => loopCommand .repeatLoop
  | "echo" => echo
  | "eval" => evaluator.evalCommand mode
  | "exec" => execCommand
  | "exit" => exitCommand
  | "export" => exportCommand
  | "false" => fun _ => return 1
  | "fg" => controlCommand
  | "getopts" => getoptsCommand
  | "hash" => hashCommand
  | "jobs" => jobsCommand
  | "kill" => killCommand
  | "local" => localCommand
  | "printf" => printf
  | "pwd" => pwdCommand
  | "read" => readCommandLine
  | "readonly" => readonlyCommand
  | "return" => returnCommand
  | "set" => setCommand
  | "shift" => shiftCommand
  | "test" => test
  | "times" => timesCommand
  | "trap" => trapCommand
  | "type" => typeCommand
  | "ulimit" => ulimitCommand
  | "umask" => umaskCommand
  | "unalias" => unaliasCommand
  | "unset" => unsetCommand
  | "wait" => waitCommand
  | _ => fun _ => return 0

/-- Run a command of the interpreter and write what it has printed. A mistake in a special one is
not caught. -/
def runCommand (evaluator : Evaluator) (mode : Mode) (special : Bool) (name : String)
    (arguments : List (List Char)) : Running Int := do
  let before := (← get).command
  let shown := arguments.headD []
  modify fun state => { state with command := some shown }
  let result ← Running.attempt (evaluator.commandNamed mode name (arguments.drop 1))
  match result with
  | .ok status =>
    let written ← Running.flush
    if !written then Running.warn (shown ++ ": I/O error".toList)
    let status := if written || status % 2 = 1 then status else status + 1
    modify fun state => { state with status, command := before }
    return status
  | .error raise =>
    modify fun state => { state with output := [], command := before }
    if raise = .failure && !special then return (← get).status else throw raise

def greatestDepth : Nat := 1000

def runFunction (evaluator : Evaluator) (mode : Mode) (body : Tree) (arguments : List (List Char)) :
    Running Int := do
  let before ← get
  if greatestDepth ≤ before.functionDepth then
    Running.fail s!"Maximum function recursion depth ({greatestDepth}) reached".toList
  set
    { before with
      arguments := arguments.drop 1, loopDepth := 0, functionDepth := before.functionDepth + 1
      optionCursor := {} }
  let result ← Running.attempt (evaluator.tree { tested := mode.tested } (some body))
  modify fun state =>
    let skip := match state.skip with | some (.leaveFunction _) => none | other => other
    { state with
      arguments := before.arguments, loopDepth := before.loopDepth
      functionDepth := before.functionDepth, optionCursor := before.optionCursor, skip }
  Running.settle result

/-! Simple commands -/

structure Head where
  fields : List (List Char) := []
  /-- All that was filled in, with the commands that run another one. -/
  shown : List (List Char) := []
  rest : List Word
  noFunctions : Bool := false
  path : Option (List Char) := none
  /-- Whether the first command found is a special one; nothing if none was found. -/
  special : Option Bool := none

/-- Fill in words until there is a field more. -/
def Head.extend (head : Head) : List Word → Running Head
  | [] => return { head with rest := [] }
  | word :: rest => do
    let fields ← Running.fieldsOf word
    if fields.isEmpty then head.extend rest
    else return { head with fields := head.fields ++ fields, shown := head.shown ++ fields, rest }

def Head.isCommand (state : State) (head : Head) (name : List Char) : Bool :=
  isSpecialName name ||
    (isCommandName name && (head.noFunctions || (state.functions.lookup name).isNone))

/-- Go behind the command that runs another one, in so many steps. The answer says whether there is
one. -/
def Head.behind : Nat → Head → Running (Head × Bool)
  | 0, head => return (head, false)
  | steps + 1, head => do
    let head ← if head.fields.length < 2 then head.extend head.rest else pure head
    match head.fields with
    | first :: next :: others =>
      match next with
      | ['-', '-'] =>
        let head ← if others.isEmpty then head.extend head.rest else pure head
        if head.fields.length < 3 then return (head, false)
        return ({ head with fields := head.fields.drop 2 }, true)
      | '-' :: c :: letters =>
        if (c :: letters).all (· = 'p') then
          let (after, moved) ←
            Head.behind steps { head with fields := first :: others, path := some standardPath }
          return if moved then (after, true)
            else ({ after with fields := first :: next :: after.fields.drop 1, path := none },
              false)
        else return (head, false)
      | _ => return ({ head with fields := next :: others }, true)
    | _ => return (head, false)

/-- Find out what the start of a simple command runs, in so many steps. -/
def Head.resolve : Nat → Head → Running Head
  | 0, head => return head
  | steps + 1, head => do
    let name := head.fields.headD []
    if !head.isCommand (← get) name then return head
    let special := some (head.special.getD (isSpecialName name))
    if name ≠ "command".toList then return { head with special }
    let (next, moved) ← Head.behind patience head
    if moved then Head.resolve steps { next with noFunctions := true, special }
    else return { next with special }

def assigns (name : List Char) : Bool :=
  ["export", "readonly", "local"].contains (String.ofList name)

/-- The fields of the arguments of a command whose arguments may give values to variables. -/
def assigningFields : List Word → Running (List (List Char))
  | [] => return []
  | word :: rest => do
    let fields ←
      if word.isAssignment then do
        let (name, value) ← Running.assignmentOf word
        pure [name ++ '=' :: value]
      else Running.fieldsOf word
    let others ← assigningFields rest
    return fields ++ others

/-- Give values to the variables before a command, for the command alone or for good. -/
def assignAll (own exported : Bool) : List Word → Running (List (List Char))
  | [] => return []
  | word :: rest => do
    let (name, value) ← Running.assignmentOf word
    if own then modify fun state => state.save name
    Running.change fun state => state.assign name value (own || exported)
    let others ← assignAll own exported rest
    return (name ++ '=' :: value) :: others

/-- The text before commands that are shown, which is filled in as a document is. -/
def traceStart : Running (List Char) := do
  let state ← get
  let text := (state.lookup "PS4".toList).getD []
  let reading := scan (Grammar.within patience).nested patience .document {}
  match reading.run { rest := text, whole := true, nextDocument := state.nextDocument } with
  | .error _ => return text
  | .ok (draft, source) =>
    set { noteRead state source with readLine := state.readLine, tracing := true }
    let result ← Running.attempt (Running.fillParts false false draft.word)
    modify fun state => { state with tracing := false }
    return Glyph.text (← Running.settle result)

def trace (replaced : Replaced) (words : List (List Char)) : Running Unit := do
  let state ← get
  if state.has 'x' && !state.tracing then
    let descriptor := ((replaced.lookup 2).bind id).getD 2
    let start ← traceStart
    let _ ← Running.ask (.write descriptor
      (Bytes.ofChars (start ++ List.intercalate [' '] words ++ ['\n'])))

def setLine (line : Nat) : Running Unit := modify fun state => { state with line }

/-- Run a program in a process of its own, or in this one if nothing comes after it. -/
def runProgram (mode : Mode) (arguments : List (List Char)) (path : Option (List Char)) :
    Running Int := do
  if mode.last && !(← get).hasTraps then execute arguments path
  else
    let job ← Running.newJob
    Running.fork (some job) false [] (.program arguments path)
    Running.waitForJob job

def runFields (evaluator : Evaluator) (mode : Mode) (head : Head) (fields : List (List Char)) :
    Running Int := do
  let state ← get
  let name := fields.headD []
  if fields.isEmpty then
    modify fun state => { state with status := state.outputStatus }
    return state.outputStatus
  else if head.isCommand state name then
    evaluator.runCommand mode (head.special.getD false) (String.ofList name) fields
  else
    match if head.noFunctions then none else state.functions.lookup name with
    | some body => evaluator.runFunction mode body fields
    | none =>
      if name.contains '/' then runProgram mode fields none
      else
        match ← searchProgram head.path name with
        | .ok path => runProgram mode fields (some path)
        | .error errno =>
          Running.warn (name ++ ": ".toList ++ Use.text .running errno)
          modify fun state => { state with status := 127 }
          return 127

def runSimple (evaluator : Evaluator) (mode : Mode) (line : Nat) (assignments words : List Word)
    (redirections : List Redirection) : Running Int := do
  setLine line
  modify fun state => { state with outputStatus := 0 }
  let head ← Head.extend { rest := words } words
  let head ← if head.fields.isEmpty then pure head else Head.resolve patience head
  let name := head.fields.headD []
  let isCommand := head.isCommand (← get) name
  let others ←
    if isCommand && assigns name then assigningFields head.rest else Running.fieldsOfAll head.rest
  let fields := head.fields ++ others
  let special := head.special = some true
  let own := !fields.isEmpty && !special
  let executes := isCommand && name = "exec".toList
  let depth := (← get).frames.length
  if own then modify fun state => { state with frames := [] :: state.frames }
  let result ← Running.attempt do
    let plans ← Running.plan redirections
    match ← Running.redirectSafely plans with
    | none => if special then throw .failure else return (2 : Int)
    | some replaced =>
      let inner ← Running.attempt do
        let given ← assignAll own (executes && 1 < fields.length) assignments
        trace replaced (given ++ head.shown ++ others)
        evaluator.runFields mode head fields
      Running.undo (executes && match inner with | .ok _ => true | .error _ => false) replaced
      Running.settle inner
  modify fun state => if depth < state.frames.length then state.popFrame else state
  Running.settle result

/-! Compound commands -/

/-- The processes of a pipeline, in turn; `source` is where the next one reads from. -/
def startStages (background tested : Bool) (job : Nat) (source : Option Descriptor) :
    List Tree → Running Unit
  | [] => return ()
  | stage :: rest => do
    let pipe ←
      if rest.isEmpty then pure none
      else
        match ← Running.ask .openPipe with
        | .ok pipe => pure (some pipe)
        | .error _ => Running.fail "Pipe call failed".toList
    let closing : List Wire := match pipe with | some pipe => [.close pipe.readEnd] | none => []
    let input : List Wire :=
      match source with
      | some source => if 0 < source then [.move source 0] else []
      | none => []
    let output : List Wire :=
      match pipe with
      | some pipe => if 1 < pipe.writeEnd then [.move pipe.writeEnd 1] else []
      | none => []
    Running.fork (some job) background (closing ++ input ++ output) (.tree (some stage) [] tested)
    if let some source := source then
      let _ ← Running.ask (.close source)
    if let some pipe := pipe then
      let _ ← Running.ask (.close pipe.writeEnd)
    startStages background tested job (pipe.map Pipe.readEnd) rest

def runPipeline (mode : Mode) (stages : List Tree) (background : Bool) : Running Int := do
  let job ← Running.newJob
  startStages background mode.tested job none stages
  if background then return 0 else Running.waitForJob job

def runSubshell (evaluator : Evaluator) (mode : Mode) (background : Bool) (line : Nat)
    (inner : Option Tree) (redirections : List Redirection) : Running Int := do
  setLine line
  let plans ← Running.plan redirections
  if !background && mode.last && !(← get).hasTraps then
    let _ ← Running.carryOutAll false [] plans
    let _ ← evaluator.tree mode inner
    throw .finish
  else
    let job ← Running.newJob
    Running.fork (some job) background [] (.tree inner plans (mode.tested && !background))
    if background then return 0 else Running.waitForJob job

inductive LoopEnd where
  | onward
  | again
  | leave
  deriving DecidableEq, Repr

/-- What the way commands are left out means for the innermost loop. -/
def loopEnd : Running LoopEnd := do
  let state ← get
  match state.skip with
  | none => return .onward
  | some (.leaveFunction _) => return .leave
  | some (.leaveLoops count) =>
    set { state with skip := if count ≤ 1 then none else some (.leaveLoops (count - 1)) }
    return .leave
  | some (.repeatLoop count) =>
    set { state with skip := if count ≤ 1 then none else some (.repeatLoop (count - 1)) }
    return if count ≤ 1 then .again else .leave

/-- Run the body of a loop as long as a test comes out right, in so many steps. -/
def loopFrom (evaluator : Evaluator) (mode : Mode) (untilSuccess : Bool) (test body : Option Tree) :
    Nat → Int → Running Int
  | 0, status => return status
  | steps + 1, status => do
    let answer ← evaluator.tree { tested := true } test
    let leaving := match (← get).skip with | some (.leaveFunction _) => true | _ => false
    match ← loopEnd with
    | .leave => return if leaving then answer else status
    | .again => loopFrom evaluator mode untilSuccess test body steps status
    | .onward =>
      if (answer = 0) = untilSuccess then return status
      let status ← evaluator.tree mode body
      match ← loopEnd with
      | .leave => return status
      | _ => loopFrom evaluator mode untilSuccess test body steps status

def asLoop (work : Running Int) : Running Int := do
  modify fun state => { state with loopDepth := state.loopDepth + 1 }
  let status ← work
  modify fun state => { state with loopDepth := state.loopDepth - 1 }
  return status

def eachFrom (evaluator : Evaluator) (mode : Mode) (name : List Char) (body : Option Tree) :
    List (List Char) → Int → Running Int
  | [], status => return status
  | value :: rest, _ => do
    Running.assign name value
    let status ← evaluator.tree mode body
    match ← loopEnd with
    | .leave => return status
    | _ => eachFrom evaluator mode name body rest status

def matchesAny (text : List Char) : List Word → Running Bool
  | [] => return false
  | word :: rest => do
    if Wild.isMatch (← Running.patternOf word) text then return true else matchesAny text rest

def selectFrom (evaluator : Evaluator) (mode : Mode) (text : List Char) :
    List (List Word × Option Tree) → Running Int
  | [] => return 0
  | (patterns, body) :: rest => do
    if ← matchesAny text patterns then
      match body with
      | some body => evaluator.tree mode (some body)
      | none => return 0
    else selectFrom evaluator mode text rest

def runRedirected (evaluator : Evaluator) (mode : Mode) (line : Nat) (inner : Option Tree)
    (redirections : List Redirection) : Running Int := do
  setLine line
  let plans ← Running.plan redirections
  match ← Running.redirectSafely plans with
  | none => return 2
  | some replaced =>
    let result ← Running.attempt (evaluator.tree { tested := mode.tested } inner)
    Running.undo false replaced
    Running.settle result

/-- Run a command. The answer is its status and whether a failure may end the script. -/
def runTree (evaluator : Evaluator) (mode : Mode) : Tree → Running (Int × Bool)
  | .simple line assignments words redirections => do
    return (← evaluator.runSimple mode line assignments words redirections, true)
  | .pipeline stages background => do return (← runPipeline mode stages background, true)
  | .subshell line inner redirections => do
    return (← evaluator.runSubshell mode false line inner redirections, true)
  | .background line inner redirections => do
    return (← evaluator.runSubshell mode true line inner redirections, true)
  | .redirected line inner redirections => do
    return (← evaluator.runRedirected mode line inner redirections, false)
  | .negated inner => do
    let status ← evaluator.tree { tested := true } (some inner)
    if (← get).skip.isSome then return (status, false)
    return (if status = 0 then 1 else 0, false)
  | .both first second => do
    let status ← evaluator.tree { tested := mode.tested } (some first)
    if (← get).skip.isSome then return (status, false)
    return (← evaluator.tree mode (some second), false)
  | .onSuccess first second => do
    let status ← evaluator.tree { tested := true } (some first)
    if status ≠ 0 || (← get).skip.isSome then return (status, false)
    return (← evaluator.tree mode (some second), false)
  | .onFailure first second => do
    let status ← evaluator.tree { tested := true } (some first)
    if status = 0 || (← get).skip.isSome then return (status, false)
    return (← evaluator.tree mode (some second), false)
  | .choice test body otherwise => do
    let status ← evaluator.tree { tested := true } test
    if (← get).skip.isSome then return (status, false)
    if status = 0 then return (← evaluator.tree mode body, false)
    match otherwise with
    | some otherwise => return (← evaluator.tree mode (some otherwise), false)
    | none => return (0, false)
  | .loop untilSuccess test body => do
    let status ← asLoop
      (evaluator.loopFrom { tested := mode.tested } untilSuccess test body patience 0)
    return (status, false)
  | .each line name words body => do
    setLine line
    let values ← Running.fieldsOfAll words
    let status ← asLoop (evaluator.eachFrom { tested := mode.tested } name body values 0)
    return (status, false)
  | .select line subject clauses => do
    setLine line
    let text ← Running.textOf subject
    return (← evaluator.selectFrom mode text clauses, false)
  | .define name body => do
    modify fun state =>
      let others := state.functions.filter fun entry => entry.1 ≠ name
      { state with functions := (name, body) :: others }
    return (0, false)

/-- Run a command, answer the signals that came meanwhile, and end if that is wanted. -/
def treeWith (evaluator : Evaluator) (mode : Mode) (tree : Option Tree) : Running Int := do
  let mayEnd ←
    match tree with
    | none => pure false
    | some tree => do
      if (← get).has 'n' then pure false
      else do
        evaluator.answerSignals
        let (status, mayEnd) ← evaluator.runTree mode tree
        modify fun state => { state with status }
        pure (mayEnd && !mode.tested && status ≠ 0)
  evaluator.answerSignals
  if mode.last || (mayEnd && (← get).has 'e') then throw .finish
  return (← get).status

def nested : Nat → Evaluator
  | 0 => ⟨fun _ _ => throw .failure⟩
  | depth + 1 => ⟨fun mode tree state => (nested depth).treeWith mode tree state⟩

def standard : Evaluator := nested patience

end Evaluator

end CommandShell.Interpreter
