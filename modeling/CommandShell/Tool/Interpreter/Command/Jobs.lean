import CommandShell.Tool.Interpreter.Command.Printing
import CommandShell.Tool.Interpreter.Jobs

/-!
The commands for processes and signals, and for the directory.
-/

namespace CommandShell.Interpreter

/-! Jobs -/

/-- The job that a name stands for; `controlled` says whether it must be one that can be stopped. -/
def jobNamed (name : Option (List Char)) (controlled : Bool) : Running Job := do
  let jobs := (← get).jobs
  let shown := name.getD "(null)".toList
  let found (job : Option Job) (message : List Char) : Running Job := do
    match job with
    | none => Running.fail message
    | some job =>
      if controlled then
        Running.fail ("job ".toList ++ shown ++ " not created under job control".toList)
      return job
  let current := found jobs.head? "No current job".toList
  let unknown := "No such job: ".toList ++ shown
  match name with
  | none => current
  | some ['%'] => current
  | some ['%', '+'] => current
  | some ['%', '%'] => current
  | some ['%', '-'] => found jobs[1]? "No previous job".toList
  | some ('%' :: digits) =>
    if !digits.isEmpty && digits.all Char.isDigit then
      found (jobs.find? fun job => job.number = Tool.valueOf 10 digits) unknown
    else Running.fail unknown
  | some _ => Running.fail unknown

def Job.shown (jobs : List Job) (withPid : Bool) (job : Job) : List Char :=
  let place :=
    if (jobs.head?.map Job.number) = some job.number then '+'
    else if (jobs[1]?.map Job.number) = some job.number then '-' else ' '
  let start := '[' :: digitsOf job.number ++ [']', ' ', place, ' ']
  let indent := start.length
  let ending (member : Member) : List Char :=
    if !job.isDone then "Running".toList else (member.ending.map Ending.description).getD []
  let padded (chars : List Char) (column : Nat) : List Char :=
    chars ++ List.replicate (max 1 (33 - column)) ' '
  if withPid then
    match job.members with
    | [] => start ++ ['\n']
    | first :: others =>
      let line := start ++ digitsOf first.pid ++ ' ' :: ending (job.members.getLast?.getD first)
      padded line line.length ++
        (others.flatMap fun member =>
          let line := List.replicate indent ' ' ++ digitsOf member.pid ++ [' ']
          " |\n".toList ++ padded line line.length) ++ ['\n']
  else
    match job.members.getLast? with
    | none => start ++ ['\n']
    | some last =>
      let line := start ++ ending last
      padded line line.length ++ ((job.members.drop 1).flatMap fun _ => " | ".toList) ++ ['\n']

def showJob (letter : Option Char) (job : Job) : Running Unit := do
  let jobs := (← get).jobs
  if letter = some 'p' then
    Running.print (((job.members.head?.map fun member => digitsOf member.pid).getD []) ++ ['\n'])
  else
    Running.print (job.shown jobs (letter = some 'l'))
    if job.isDone then modify fun state => state.dropJob job.number

def jobsCommand : Command := fun arguments => do
  let (given, names) ← options [('l', false), ('p', false)] arguments
  let letter := given.getLast?.map Prod.fst
  if names.isEmpty then
    Running.reap none
    Running.each (showJob letter) (← get).jobs
  else
    Running.each (fun name => do showJob letter (← jobNamed (some name) false)) names
  return 0

/-- Move jobs to the front or to the back, which needs control over them. -/
def controlCommand : Command := fun arguments => do
  let (_, names) ← options [] arguments
  let _ ← jobNamed names.head? true
  return 0

def waitForAll : Nat → Running Int
  | 0 => return 0
  | steps + 1 => do
    if (← get).jobs.any fun job => !job.isDone then
      if ← Running.waitInterrupted none then waitForAll steps
      else return 128 + ((← get).pending.getLast?.getD 0 : Nat)
    else
      modify fun state =>
        { state with jobs := state.jobs.map fun job => { job with awaited := true } }
      return 0

/-- Wait for jobs one after the other; the status is that of the last one. -/
def waitForEach : List (List Char) → Int → Running Int
  | [], status => return status
  | name :: rest, status => do
    let job ←
      if name.head? = some '%' then do pure (some (← jobNamed (some name) false))
      else do
        let pid ← Running.orFail (numberOf name)
        pure ((← get).jobs.find? fun job => job.members.getLast?.any fun member =>
          (member.pid : Int) = pid)
    match job with
    | none => waitForEach rest status
    | some job =>
      if ← Running.waitInterrupted (some job.number) then
        let state ← get
        match state.job? job.number with
        | some job =>
          set (state.setJob { job with awaited := true })
          waitForEach rest job.status
        | none => waitForEach rest status
      else return 128 + ((← get).pending.getLast?.getD 0 : Nat)

def waitCommand : Command := fun arguments => do
  let (_, names) ← options [] arguments
  if names.isEmpty then waitForAll patience else waitForEach names 127

/-! Signals -/

def signalName (signal : Nat) : List Char :=
  if signal = 0 then "EXIT".toList else ((Signal.name? signal).getD (toString signal)).toList

def signalNumber? (chars : List Char) : Option Nat :=
  match Tool.natural? chars with
  | some value => if value < Signal.limit then some value else none
  | none => none

/-- The signal that a number or a name stands for, from a number on. -/
def signalOf? (least : Nat) (chars : List Char) : Option Nat :=
  match signalNumber? chars with
  | some signal => some signal
  | none =>
    (List.range Signal.limit).find? fun signal =>
      least ≤ signal && (signalName signal).map Char.toLower = chars.map Char.toLower

def killUsage : List Char :=
  ("Usage: kill [-s sigspec | -signum | -sigspec] [pid | job]... or\n" ++
    "kill -l [exitstatus]").toList

def listSignals (arguments : List (List Char)) : Running Int := do
  match arguments with
  | [] =>
    Running.print ("0\n".toList ++ ((List.range Signal.limit).drop 1).flatMap fun signal =>
      signalName signal ++ ['\n'])
    return 0
  | word :: _ =>
    let number ← Running.orFail (numberOf word)
    let number := (if 128 < number then number - 128 else number).toNat
    if 0 < number && number < Signal.limit then
      Running.print (signalName number ++ ['\n'])
      return 0
    else Running.fail ("invalid signal number or exit status: ".toList ++ word)

def sendSignal (signal : Signal) : List (List Char) → Int → Running Int
  | [], status => return status
  | name :: rest, status => do
    let target : Int ←
      match name with
      | '%' :: _ => do
        let job ← jobNamed (some name) false
        pure (-((job.members.head?.map fun member => (member.pid : Int)).getD 0))
      | '-' :: digits => do pure (-(← Running.orFail (numberOf digits)))
      | _ => Running.orFail (numberOf name)
    match ← Running.ask (.kill target signal) with
    | .ok () => sendSignal signal rest status
    | .error errno =>
      Running.warn (errno.systemText.toList ++ ['\n'])
      sendSignal signal rest 1

def killWith (signal : Option Nat) (targets : List (List Char)) : Running Int := do
  if targets.isEmpty then Running.fail killUsage
  sendSignal (signal.getD Signal.terminate) targets 0

def killCommand : Command := fun arguments => do
  match arguments with
  | [] => Running.fail killUsage
  | ('-' :: name) :: rest =>
    match signalOf? 1 name with
    | some signal => killWith (some signal) rest
    | none =>
      let (given, targets) ← options [('l', false), ('s', true)] arguments
      let mut signal := none
      for (letter, value) in given do
        if letter = 's' then
          match signalOf? 1 value with
          | some found => signal := some found
          | none => Running.fail ("invalid signal number or name: ".toList ++ value)
      if given.any fun entry => entry.1 = 'l' then
        if signal.isSome then Running.fail killUsage
        listSignals targets
      else killWith signal targets
  | _ => killWith none arguments

def setTrap (action : Option (List Char)) (signal : Signal) : Running Unit := do
  let state ← get
  let others := state.traps.filter fun entry => entry.1 ≠ signal
  set { state with
    traps := match action with
      | some action => (signal, action) :: others
      | none => others }
  if signal ≠ 0 && !state.ignored.contains signal then
    Running.ask (.arrange signal (match action with
      | none => .standard
      | some [] => .ignore
      | some _ => .keep))

def setTraps (action : Option (List Char)) : List (List Char) → Running Int
  | [] => return 0
  | name :: rest => do
    match signalOf? 0 name with
    | none =>
      Running.say ("trap: ".toList ++ name ++ ": bad trap\n".toList)
      return 1
    | some signal =>
      setTrap action signal
      setTraps action rest

def trapCommand : Command := fun arguments => do
  let (_, words) ← options [] arguments
  match words with
  | [] =>
    let traps := (← get).traps
    Running.print ((List.range Signal.limit).flatMap fun signal =>
      match traps.find? fun entry => entry.1 = signal with
      | some (_, action) =>
        "trap -- ".toList ++ singleQuote action ++ ' ' :: signalName signal ++ ['\n']
      | none => [])
    return 0
  | [name] => setTraps none [name]
  | first :: rest =>
    if (signalNumber? first).isSome then setTraps none words
    else setTraps (if first = ['-'] then none else some first) rest

/-! The directory -/

/-- Leave out the last part of a path, of which so much stays in any case. -/
def dropLastPart (least : Nat) (path : List Char) : List Char :=
  if path.length ≤ least then path
  else
    let cut := (path.dropLast.reverse.dropWhile (· ≠ '/')).reverse
    if cut.length < least then path.take least else cut

def partsOf (path : List Char) : List (List Char) :=
  ((Bytes.split '/' (Bytes.ofChars path)).map Bytes.toChars).filter fun part => !part.isEmpty

/-- The path that another path leads to from a directory, by the names alone. -/
def pathFrom? (directory path : List Char) : Option (List Char) :=
  let absolute := path.head? = some '/'
  if !absolute && directory.isEmpty then none
  else
    let doubled : Bool :=
      match if absolute then path else directory with
      | '/' :: '/' :: c :: _ => c ≠ '/'
      | ['/', '/'] => absolute
      | _ => false
    let least := if doubled then 2 else 1
    let start :=
      if absolute then List.replicate least '/'
      else if directory.getLast? = some '/' then directory
      else directory ++ ['/']
    let full := (partsOf path).foldl (fun built part =>
      if part = ['.'] then built
      else if part = ['.', '.'] then dropLastPart least built
      else built ++ part ++ ['/']) start
    some (if least < full.length then full.dropLast else full)

def realDirectory : Running (List Char) := do
  match ← Running.ask .currentDirectory with
  | .ok path => return path.toChars
  | .error errno =>
    Running.warn ("getcwd() failed: ".toList ++ errno.systemText.toList)
    return []

def noteDirectory (path : Option (List Char)) (keepOld : Bool) : Running Unit := do
  let old := (← get).directory
  if keepOld then Running.change fun state => state.assign "OLDPWD".toList old true
  match path with
  | some path => modify fun state => { state with directory := path, realDirectory := [] }
  | none =>
    let real ← realDirectory
    modify fun state => { state with directory := real, realDirectory := real }
  Running.change fun state => state.assign "PWD".toList state.directory true

def wantsReal (given : List (Char × List Char)) : Bool := (given.getLast?.map Prod.fst) = some 'P'

def changeDirectory (real : Bool) (target : List Char) : Running Bool := do
  let directory := (← get).directory
  let path := if real then none else pathFrom? directory target
  match ← Running.ask (.changeDirectory (Bytes.ofChars (path.getD target))) with
  | .error _ => return false
  | .ok () =>
    noteDirectory path true
    return true

def isAnchored (path : List Char) : Bool :=
  match path with
  | '/' :: _ => true
  | ['.'] => true
  | '.' :: '/' :: _ => true
  | ['.', '.'] => true
  | '.' :: '.' :: '/' :: _ => true
  | _ => false

/-- The first directory with a name below the places of a search path; an answer says whether it has
to be shown. -/
def searchDirectory (name : List Char) : List (List Char) → Running (Option (List Char × Bool))
  | [] => return none
  | place :: rest => do
    let path := if place.isEmpty then name else place ++ '/' :: name
    match ← Running.ask (.stat (Bytes.ofChars path) true) with
    | .ok status =>
      if status.kind = .directory then return some (path, !place.isEmpty)
      else searchDirectory name rest
    | .error _ => searchDirectory name rest

def cdCommand : Command := fun arguments => do
  let (given, words) ← options [('L', false), ('P', false)] arguments
  let real := wantsReal given
  let state ← get
  let (target, back) :=
    match words with
    | [] => ((state.lookup "HOME".toList).getD [], false)
    | ['-'] :: _ => ((state.lookup "OLDPWD".toList).getD [], true)
    | word :: _ => (word, false)
  let places :=
    match state.lookup "CDPATH".toList with
    | some path => (Bytes.split ':' (Bytes.ofChars path)).map Bytes.toChars
    | none => []
  let found ←
    if isAnchored target then pure none
    else searchDirectory (if target.isEmpty then ['.'] else target) places
  let path := (found.map Prod.fst).getD (if target.isEmpty then ['.'] else target)
  if ← changeDirectory real path then
    if back || (found.map Prod.snd).getD false then Running.print ((← get).directory ++ ['\n'])
    return 0
  else Running.fail ("can't cd to ".toList ++ target)

def pwdCommand : Command := fun arguments => do
  let (given, _) ← options [('L', false), ('P', false)] arguments
  if wantsReal given then
    if (← get).realDirectory.isEmpty then
      let real ← realDirectory
      modify fun state => { state with realDirectory := real }
    Running.print ((← get).realDirectory ++ ['\n'])
  else Running.print ((← get).directory ++ ['\n'])
  return 0

/-! The rest -/

def maskLetters (mask : Nat) : List Char :=
  let digit (place : Nat) : List Char :=
    let free := 7 - mask / Nat.pow 8 place % 8
    (if free / 4 % 2 = 1 then ['r'] else []) ++ (if free / 2 % 2 = 1 then ['w'] else []) ++
      (if free % 2 = 1 then ['x'] else [])
  "u=".toList ++ digit 2 ++ ",g=".toList ++ digit 1 ++ ",o=".toList ++ digit 0

/-- The mask that a text in letters makes of another one, by its parts. -/
def maskOf? (mask : Nat) (text : List Char) : Option Nat := do
  let mut allowed := 511 - mask % 512
  for part in (Bytes.split ',' (Bytes.ofChars text)).map Bytes.toChars do
    let who := part.takeWhile fun c => "ugoa".toList.contains c
    let rest := part.drop who.length
    let places := if who.isEmpty || who.contains 'a' then [0, 1, 2]
      else (if who.contains 'u' then [2] else []) ++ (if who.contains 'g' then [1] else []) ++
        (if who.contains 'o' then [0] else [])
    match rest with
    | sign :: letters =>
      if !letters.all (fun c => "rwxXst".toList.contains c) then none
      let bits :=
        (if letters.contains 'r' then 4 else 0) + (if letters.contains 'w' then 2 else 0) +
        (if letters.contains 'x' then 1 else 0)
      for place in places do
        let old := allowed / Nat.pow 8 place % 8
        let next ←
          match sign with
          | '=' => some bits
          | '+' => some (old ||| bits)
          | '-' => some (old &&& (7 - bits))
          | _ => none
        allowed := allowed - old * Nat.pow 8 place + next * Nat.pow 8 place
    | [] => none
  return 511 - allowed

def umaskCommand : Command := fun arguments => do
  let (given, words) ← options [('S', false)] arguments
  let mask := (← get).mask
  match words with
  | [] =>
    if given.isEmpty then
      let digits := Nat.toDigits 8 mask
      Running.print (List.replicate (4 - digits.length) '0' ++ digits ++ ['\n'])
    else Running.print (maskLetters mask ++ ['\n'])
  | word :: _ =>
    if word.head?.any Char.isDigit then
      if word.all (Tool.isDigitOf 8) then
        modify fun state => { state with mask := Tool.valueOf 8 word % 512 }
      else Running.fail (illegalNumber word)
    else
      match maskOf? mask word with
      | some mask => modify fun state => { state with mask }
      | none => Running.fail ("Illegal mode: ".toList ++ word)
  return 0

def timesCommand : Command := fun _ => do
  let line := "0m0.000000s 0m0.000000s\n".toList
  Running.print (line ++ line)
  return 0

/-- The limits are not shown by their sizes, for there are none. -/
def ulimitCommand : Command := fun arguments => do
  if (arguments.filter fun argument => argument.head? ≠ some '-').isEmpty then
    Running.print "unlimited\n".toList
  return 0

end CommandShell.Interpreter
