import CommandShell.Tool.Interpreter.Command.Printing
import CommandShell.Tool.Interpreter.Fields
import CommandShell.Tool.Interpreter.Jobs

/-!
The commands that change variables, arguments, options and aliases.
-/

namespace CommandShell.Interpreter

def splitValue (word : List Char) : List Char × Option (List Char) :=
  let name := word.takeWhile (· ≠ '=')
  (name, if name.length < word.length then some (word.drop (name.length + 1)) else none)

def showVariables (start : List Char) (wanted : Variable → Bool) : Running Unit := do
  let state ← get
  let sorted := (state.bindings.filter wanted).mergeSort fun a b => !decide (b.name < a.name)
  Running.print (sorted.flatMap fun binding =>
    start ++ (if start.isEmpty then [] else [' ']) ++ binding.name ++
      (match binding.value with | some value => '=' :: singleQuote value | none => []) ++ ['\n'])

def markVariables (mark : Variable → Variable) : List (List Char) → Running Unit
  | [] => return ()
  | word :: rest => do
    let (name, value) := splitValue word
    match value, (← get).find? name with
    | none, some binding => modify fun state => state.put (mark binding)
    | none, none =>
      if !isName name then Running.fail (name ++ ": bad variable name".toList)
      modify fun state => state.put (mark { name, value := none })
    | some value, _ =>
      Running.assignNamed name value
      modify fun state =>
        match state.find? name with
        | some binding => state.put (mark binding)
        | none => state
    markVariables mark rest

def exportCommand : Command := fun arguments => do
  let (given, words) ← options [('p', false)] arguments
  if !given.isEmpty || words.isEmpty then showVariables "export".toList Variable.exported
  else markVariables (fun binding => { binding with exported := true }) words
  return 0

def readonlyCommand : Command := fun arguments => do
  let (given, words) ← options [('p', false)] arguments
  if !given.isEmpty || words.isEmpty then showVariables "readonly".toList Variable.readOnly
  else markVariables (fun binding => { binding with readOnly := true }) words
  return 0

/-- Make a variable one of the innermost frame, with a value or with the one it has. -/
def makeLocal (word : List Char) (exported : Bool) : Running Unit := do
  let (name, value) := splitValue word
  if !isName name then Running.fail (name ++ ": bad variable name".toList)
  modify fun state => state.save name
  match value with
  | some value => Running.change fun state => state.assign name value exported
  | none =>
    if ((← get).find? name).isNone then
      modify fun state => state.put { name, value := none }

def localCommand : Command := fun arguments => do
  let (_, words) ← options [] arguments
  if (← get).frames.isEmpty then Running.fail "not in a function".toList
  Running.each (fun word =>
    if word = ['-'] then
      modify fun state =>
        match state.frames with
        | frame :: outer => { state with frames := (.settings state.settings :: frame) :: outer }
        | [] => state
    else makeLocal word false) words
  return 0

def unsetCommand : Command := fun arguments => do
  let (given, names) ← options [('f', false), ('v', false)] arguments
  let functions := (given.getLast?.map Prod.fst) = some 'f'
  Running.each (fun name =>
    if functions then
      modify fun state =>
        { state with functions := state.functions.filter fun entry => entry.1 ≠ name }
    else Running.change fun state => state.unset name) names
  return 0

def shiftCommand : Command := fun arguments => do
  let count ←
    match arguments with
    | [] => pure 1
    | word :: _ => Running.orFail (numberOf word)
  if ((← get).arguments.length : Int) < count then Running.fail "can't shift that many".toList
  modify fun state =>
    { state with arguments := state.arguments.drop count.toNat, optionCursor := {} }
  return 0

/-! Options of the interpreter -/

def settingNames : List (String × Char) :=
  [("errexit", 'e'), ("noglob", 'f'), ("ignoreeof", 'I'), ("interactive", 'i'), ("monitor", 'm'),
    ("noexec", 'n'), ("stdin", 's'), ("xtrace", 'x'), ("verbose", 'v'), ("vi", 'V'), ("emacs", 'E'),
    ("noclobber", 'C'), ("allexport", 'a'), ("notify", 'b'), ("nounset", 'u'), ("privileged", 'p'),
    ("nolog", '\x01'), ("debug", '\x02')]

def State.switch (state : State) (letter : Char) (on : Bool) : State :=
  let others := state.settings.filter (· ≠ letter)
  { state with settings := if on then letter :: others else others }

def setOption (letter : Char) (on : Bool) : Running Unit := do
  if settingNames.any fun entry => entry.2 = letter then modify fun state => state.switch letter on
  else Running.fail ("Illegal option -".toList ++ [letter])

def setNamed (name : Option (List Char)) (on : Bool) : Running Unit := do
  match name with
  | some name =>
    match settingNames.find? fun entry => entry.1.toList = name with
    | some (_, letter) => modify fun state => state.switch letter on
    | none => Running.fail ("Illegal option -o ".toList ++ name)
  | none =>
    let state ← get
    if on then
      Running.print
        ("Current option settings\n".toList ++ settingNames.flatMap fun (name, letter) =>
        name.toList ++ List.replicate (16 - name.length) ' ' ++
          (if state.has letter then "on\n" else "off\n").toList)
    else
      Running.print (settingNames.flatMap fun (name, letter) =>
        (if state.has letter then "set -o " else "set +o ").toList ++ name.toList ++ ['\n'])

/-- The options at the start of some arguments, set in so many steps. What is left are other
arguments, and whether they take the place of those that were there. -/
def setOptions : Nat → List (List Char) → Running (List (List Char) × Bool)
  | 0, arguments => return (arguments, false)
  | steps + 1, arguments => do
    match arguments with
    | ['-'] :: rest =>
      modify fun state => (state.switch 'x' false).switch 'v' false
      return (rest, !rest.isEmpty)
    | ['-', '-'] :: rest => return (rest, true)
    | ('-' :: letters) :: rest => do
      let rest ← letterOptions true rest letters
      setOptions steps rest
    | ('+' :: letters) :: rest => do
      let rest ← letterOptions false rest letters
      setOptions steps rest
    | _ => return (arguments, !arguments.isEmpty)
where
  letterOptions (on : Bool) (rest : List (List Char)) : List Char → Running (List (List Char))
    | [] => return rest
    | 'o' :: letters => do
      setNamed rest.head? on
      letterOptions on (rest.drop 1) letters
    | letter :: letters => do
      setOption letter on
      letterOptions on rest letters

def setCommand : Command := fun arguments => do
  if arguments.isEmpty then
    showVariables [] fun binding => binding.value.isSome
    return 0
  let (words, replaces) ← setOptions patience arguments
  if replaces then modify fun state => { state with arguments := words, optionCursor := {} }
  return 0

/-! `getopts` -/

structure OptionReading where
  current : Option (List Char)
  index : Nat

/-- Whether a letter is an option, and whether it takes a value. `colon` says whether the first
character belongs to the letter before. -/
def optionLetter? (letter : Char) : Bool → List Char → Option Bool
  | _, [] => none
  | true, _ :: rest => optionLetter? letter false rest
  | false, c :: rest =>
    let value := rest.head? = some ':'
    if c = letter then some value else optionLetter? letter value rest

def finishOption (name : List Char) (letter : Char) (reading : OptionReading)
    (arguments : List (List Char)) (status : Int) : Running Int := do
  Running.assign "OPTIND".toList (digitsOf reading.index)
  Running.assignNamed name [letter]
  modify fun state =>
    let offset := reading.current.map fun rest =>
      (arguments.getD (reading.index - 2) []).length - rest.length
    { state with optionCursor := ⟨reading.index, offset⟩ }
  return status

def setOptionValue (value : Option (List Char)) : Running Unit :=
  Running.change fun state =>
    match value with
    | some value => state.assign "OPTARG".toList value false
    | none => state.unset "OPTARG".toList

def nextOption (allowed name : List Char) (arguments : List (List Char)) : Running Int := do
  let cursor := (← get).optionCursor
  let silent := allowed.head? = some ':'
  let before := arguments.getD (cursor.index - 2) []
  let current : List Char :=
    match cursor.offset with
    | some offset => if 1 < cursor.index then before.drop offset else []
    | none => []
  let next := arguments[cursor.index - 1]?
  let (letters, index) : List Char × Nat :=
    if !current.isEmpty then (current, cursor.index)
    else
      match next with
      | some ['-', '-'] => ([], cursor.index + 1)
      | some ('-' :: letters) =>
          (letters, if letters.isEmpty then cursor.index else cursor.index + 1)
      | _ => ([], cursor.index)
  match letters with
  | [] => finishOption name '?' ⟨none, index⟩ arguments 1
  | letter :: rest =>
    let refuse (message : String) (ending : String) (silentLetter : Char) : Running Int := do
      if silent then
        setOptionValue (some [letter])
        finishOption name silentLetter ⟨some rest, index⟩ arguments 0
      else
        Running.say (message.toList ++ [letter] ++ ending.toList)
        setOptionValue none
        finishOption name '?' ⟨some rest, index⟩ arguments 0
    match optionLetter? letter false allowed with
    | none => refuse "Illegal option -" "\n" '?'
    | some false =>
      setOptionValue (some [])
      finishOption name letter ⟨some rest, index⟩ arguments 0
    | some true =>
      if !rest.isEmpty then
        setOptionValue (some rest)
        finishOption name letter ⟨none, index⟩ arguments 0
      else
        match arguments[index - 1]? with
        | some value =>
          setOptionValue (some value)
          finishOption name letter ⟨none, index + 1⟩ arguments 0
        | none => refuse "No arg for -" " option\n" ':'

def getoptsCommand : Command := fun arguments => do
  match arguments with
  | allowed :: name :: words =>
    let state ← get
    let words := if words.isEmpty then state.arguments else words
    if words.length + 1 < state.optionCursor.index then
      modify fun state => { state with optionCursor := {} }
    nextOption allowed name words
  | _ => Running.fail "Usage: getopts optstring var [arg...]".toList

/-! `read` -/

/-- A line of the standard input in pieces, in so many steps: characters behind backslashes are not
divided. The pieces before come the latest first. Says whether the line has an end. -/
def readPieces (raw : Bool) (read : List Glyph) (escaped : Bool) : Nat → Running (List Glyph × Bool)
  | 0 => return (read.reverse, false)
  | steps + 1 => do
    match ← Running.ask (.read 0 1) with
    | .error .interrupted =>
      Running.collectSignals
      if (← get).pending.isEmpty then readPieces raw read escaped steps
      else return (read.reverse, false)
    | .error _ => return (read.reverse, false)
    | .ok bytes =>
      match bytes.toChars with
      | [] => return (read.reverse, false)
      | c :: _ =>
        if c = '\x00' then readPieces raw read escaped steps
        else if escaped then
          let read := if c = '\n' then read else .char c true false :: read
          readPieces raw (.region false :: read) false steps
        else if c = '\\' && !raw then readPieces raw read true steps
        else if c = '\n' then return (read.reverse, true)
        else readPieces raw (.char c false true :: read) false steps

/-- Give fields to variables; those that are left over become empty. -/
def assignFields : List (List Char) → List (List Char) → Running Unit
  | [], _ => return ()
  | name :: names, fields => do
    Running.assignNamed name (fields.headD [])
    assignFields names (fields.drop 1)

def readCommandLine : Command := fun arguments => do
  let (given, names) ← options [('p', true), ('r', false)] arguments
  if names.isEmpty then Running.fail "arg count".toList
  let (glyphs, whole) ← readPieces (given.any fun entry => entry.1 = 'r') [.region false] false
      patience
  let fields := splitFields (← get).separators (some names.length) glyphs
  assignFields names (fields.map Glyph.text)
  return if whole then 0 else 1

/-! Aliases -/

def showAlias (entry : List Char × List Char) : List Char :=
  entry.1 ++ '=' :: singleQuote entry.2 ++ ['\n']

def aliasCommand : Command := fun arguments => do
  if arguments.isEmpty then
    let aliases := (← get).aliases
    Running.print ((List.range 39).flatMap fun number =>
      (aliases.filter fun entry => State.bucket entry.1 = number).flatMap showAlias)
    return 0
  let mut status := 0
  for word in arguments do
    let state ← get
    let name := (word.take 1) ++ (word.drop 1).takeWhile (· ≠ '=')
    if name.length < word.length then
      let others := state.aliases.filter fun entry => entry.1 ≠ name
      set { state with aliases := others ++ [(name, word.drop (name.length + 1))] }
    else
      match state.aliases.lookup word with
      | some text => Running.print (showAlias (word, text))
      | none =>
        Running.say ("alias: ".toList ++ word ++ " not found\n".toList)
        status := 1
  return status

def unaliasCommand : Command := fun arguments => do
  let (given, names) ← options [('a', false)] arguments
  if !given.isEmpty then
    modify fun state => { state with aliases := [] }
    return 0
  let mut status := 0
  for name in names do
    let state ← get
    if (state.aliases.lookup name).isSome then
      set { state with aliases := state.aliases.filter fun entry => entry.1 ≠ name }
    else
      Running.say ("unalias: ".toList ++ name ++ " not found\n".toList)
      status := 1
  return status

end CommandShell.Interpreter
