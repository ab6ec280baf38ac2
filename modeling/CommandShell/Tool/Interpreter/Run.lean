import CommandShell.Tool.Interpreter.Evaluate

/-!
The interpreter `sh` from its start to its end, and the processes it forks.
-/

namespace CommandShell.Interpreter

/-! The end -/

def ended (result : Except Raise Int) (state : State) : State :=
  let status :=
    match result with
    | .error .exit => state.savedStatus.getD state.status
    | _ => state.status
  { state with status, savedStatus := none, skip := none, loopDepth := 0, output := [] }

def conclude (state : State) : Steps Empty := do
  let status ←
    match state.traps.lookup 0 with
    | none => pure state.status
    | some action => do
      let traps := state.traps.filter fun entry => entry.1 ≠ 0
      let before := { state with traps, savedStatus := some state.status }
      let (result, after) ← ((Evaluator.standard.runText {} action).run).run before
      pure (match result with
        | .error .failure => after.status
        | .error .finish => after.status
        | _ => after.savedStatus.getD state.status)
  Steps.ask (.exit (status % 256))

def toEnd (work : Running Int) (state : State) : Steps Empty := do
  let (result, state) ← (work.run).run state
  conclude (ended result state)

/-! Forked processes -/

def Wire.connect : Wire → Running Unit
  | .close descriptor => do
    let _ ← Running.ask (.close descriptor)
  | .move source target => do
    let _ ← Running.ask (.duplicate source target)
    if source ≠ target then
      let _ ← Running.ask (.close source)

/-- Forget what is done at signals, but go on to ignore some. -/
def forgetTraps : Running Unit := do
  let state ← get
  set { state with traps := state.traps.filter fun entry => entry.2.isEmpty, pending := [] }
  Running.each (fun entry => do
    if entry.1 ≠ 0 && !entry.2.isEmpty && !state.ignored.contains entry.1 then
      Running.ask (.arrange entry.1 .standard)) state.traps

/-- A process that nobody waits for ignores what is meant for the others, and has no input. -/
def detach (first : Bool) : Running Unit := do
  let signals := [Signal.interrupt, Signal.quit]
  Running.each (fun signal => do
    if !(← get).ignored.contains signal then Running.ask (.arrange signal .ignore)) signals
  modify fun state => { state with ignored := signals ++ state.ignored }
  if first then
    let _ ← Running.ask (.close 0)
    let _ ← Running.ask (.open (Bytes.ofText "/dev/null") { readable := true })

namespace Fork

def steps (fork : Fork) : Steps Empty :=
  match fork.share with
  | .program arguments path => do
    let work : Running Int := do
      Running.each Wire.connect fork.wires
      Evaluator.execute arguments path
    let (_, state) ← (work.run).run fork.state
    Steps.ask (.exit (state.status % 256))
  | .text descriptor text => do
    let work : Running Int := do
      Running.each (fun signal => Running.ask (.arrange signal .ignore))
        [Signal.interrupt, Signal.quit]
      Running.each Wire.connect fork.wires
      let _ ← Running.ask (.write descriptor (Bytes.ofChars text))
      return 0
    let _ ← (work.run).run fork.state
    Steps.ask (.exit 0)
  | .tree tree plans tested =>
    toEnd (do
      forgetTraps
      if fork.background then detach fork.first
      Running.each Wire.connect fork.wires
      let _ ← Running.carryOutAll false [] plans
      Evaluator.standard.tree { last := true, tested } tree)
      { fork.state with level := fork.state.level + 1, jobs := [] }

end Fork

/-! The start -/

def firstBindings : List Variable :=
  [{ name := "HISTSIZE".toList, value := none }, { name := "TERM".toList, value := none },
    { name := "OPTIND".toList, value := some ['1'] },
    { name := "PS4".toList, value := some ['+', ' '] },
    { name := "PS2".toList, value := some ['>', ' '] },
    { name := "PS1".toList, value := some ['#', ' '] },
    { name := "PATH".toList, value := some Evaluator.standardPath },
    { name := "MAILPATH".toList, value := none }, { name := "MAIL".toList, value := none },
    { name := "IFS".toList, value := some [' ', '\t', '\n'] }]

def State.import (state : State) (environment : List Bytes) : State :=
  environment.foldl (fun state record =>
    let chars := record.toChars
    let name := chars.takeWhile (· ≠ '=')
    if isName name && name.length < chars.length then
      state.put { name, value := some (chars.drop (name.length + 1)), exported := true }
    else state) state

/-- Give a variable its standard value, marked or not as it was. -/
def State.reset (state : State) (name value : List Char) : State :=
  let exported := ((state.find? name).map Variable.exported).getD false
  state.put { name, value := some value, exported }

def isHere (path : List Char) : Running Bool := do
  if path.head? ≠ some '/' then return false
  match ← Running.ask (.stat (Bytes.ofChars path) true),
    ← Running.ask (.stat (Bytes.ofText ".") true) with
  | .ok there, .ok here => return there.inode = here.inode
  | _, _ => return false

def setUp (environment : List Bytes) : Running Unit := do
  let (pid, parent) ← Running.ask .identity
  let ignored ← Running.ask .ignored
  modify fun state =>
    let state := { state with bindings := firstBindings, pid, ignored }.import environment
    let state := state.reset "IFS".toList [' ', '\t', '\n']
    let state := state.reset "OPTIND".toList ['1']
    state.reset "PPID".toList (digitsOf parent)
  match ← Running.lookup "PWD".toList with
  | some path => noteDirectory (if ← isHere path then some path else none) false
  | none => noteDirectory none false

structure Order where
  asText : Bool := false
  rest : List (List Char) := []

/-- The options at the start of the arguments, in so many steps. -/
def readOrder (order : Order) : Nat → List (List Char) → Running Order
  | 0, arguments => return { order with rest := arguments }
  | steps + 1, arguments =>
    match arguments with
    | ['-'] :: rest => return { order with rest }
    | ['-', '-'] :: rest => return { order with rest }
    | ('-' :: letters) :: rest => do
      let (order, rest) ← letterOptions true order rest letters
      readOrder order steps rest
    | ('+' :: letters) :: rest => do
      let (order, rest) ← letterOptions false order rest letters
      readOrder order steps rest
    | _ => return { order with rest := arguments }
where
  letterOptions (on : Bool) (order : Order) (rest : List (List Char)) :
      List Char → Running (Order × List (List Char))
    | [] => return (order, rest)
    | 'c' :: letters => letterOptions on { order with asText := true } rest letters
    | 'l' :: letters => letterOptions on order rest letters
    | 'o' :: letters => do
      setNamed rest.head? on
      letterOptions on order (rest.drop 1) letters
    | letter :: letters => do
      setOption letter on
      letterOptions on order rest letters

def blockSize : Nat := 8192

/-- Run the commands of a script one after the other while it is read, in so many steps. -/
def runScript (descriptor : Descriptor) : Nat → Source → Running Unit
  | 0, _ => return ()
  | steps + 1, source => do
    let state ← get
    let source :=
      { source with aliases := state.aliases, nextDocument := state.nextDocument, documents := [] }
    match readCommand.run source with
    | .error .more =>
      match ← Running.ask (.read descriptor blockSize) with
      | .ok bytes =>
        if bytes.isEmpty then runScript descriptor steps { source with whole := true }
        else
          runScript descriptor steps
            { source with rest := source.rest ++ bytes.toChars.filter (· ≠ '\x00') }
      | .error .interrupted =>
        Running.collectSignals
        Evaluator.standard.answerSignals
        runScript descriptor steps source
      | .error _ => runScript descriptor steps { source with whole := true }
    | .error (.wrong line message) =>
      modify fun state => { state with line }
      Running.fail message.toList
    | .ok (.finished, _) => return ()
    | .ok (.command tree, next) =>
      set (Evaluator.noteRead state next)
      if state.has 'v' then Running.say (source.rest.take (source.rest.length - next.rest.length))
      let _ ← Evaluator.standard.tree {} tree
      match (← get).skip with
      | none => runScript descriptor steps next
      | some _ => modify fun state => { state with skip := none }

def follow (order : Order) : Running Int := do
  let stdin := (← get).has 's'
  if order.asText then
    match order.rest with
    | [] => Running.fail "-c requires an argument".toList
    | text :: rest =>
      modify fun state =>
        { state with name := rest.headD state.name, arguments := rest.drop 1, line := 1 }
      let _ ← Evaluator.standard.runText { last := !stdin } text
      if stdin then runScript 0 patience { rest := [], whole := false }
  else
    match order.rest, stdin with
    | path :: rest, false =>
      let descriptor ← Running.openFile .opening path { readable := true }
      let descriptor ←
        match ← Running.ask (.setAside descriptor 10) with
        | .ok copy => do
          let _ ← Running.ask (.close descriptor)
          pure copy
        | .error _ => pure descriptor
      modify fun state => { state with name := path, arguments := rest }
      runScript descriptor patience { rest := [], whole := false }
    | rest, _ =>
      modify fun state => (state.switch 's' true)
      modify fun state => { state with arguments := rest }
      runScript 0 patience { rest := [], whole := false }
  return (← get).status

/-- The interpreter. It takes the name that it was called by once its variables are set up. -/
def sh (invocation : Invocation) : Steps Empty :=
  toEnd (do
    setUp invocation.environment
    modify fun state => { state with name := invocation.name.toChars }
    follow (← readOrder {} patience (invocation.arguments.map Bytes.toChars)))
    { name := "sh".toList }

end CommandShell.Interpreter
