import CommandShell.Tool.Interpreter.Fields
import CommandShell.Tool.Lines
import CommandShell.Tool.Pattern

/-!
`grep`, which prints the lines that match patterns.
-/

namespace CommandShell.Tool

inductive Extent where
  | part
  | word
  | line
  deriving DecidableEq, Repr

structure Matcher where
  patterns : List Pattern
  anyCase : Bool
  extent : Extent

namespace Matcher

def endsAt (matcher : Matcher) (text : Array Char) (start : Nat) : List Nat :=
  let same (a b : Char) : Bool := a = b || (matcher.anyCase && a.toLower = b.toLower)
  matcher.patterns.flatMap fun pattern =>
    (pattern.ends same text { position := start }).map Pattern.Place.position

def isWord (text : Array Char) (start stop : Nat) : Bool :=
  !((Pattern.before? text start).any Pattern.isWordChar) && !((text[stop]?).any Pattern.isWordChar)

def matchAt? (matcher : Matcher) (text : Array Char) (start : Nat) : Option Nat :=
  let ends := matcher.endsAt text start
  match matcher.extent with
  | .part => ends.max?
  | .line => if start = 0 && ends.contains text.size then some text.size else none
  | .word =>
    match ends.max? with
    | none => none
    | some longest =>
      if isWord text start longest then some longest
      else (ends.filter fun stop => start < stop && isWord text start stop).max?

/-- The first match from a position on, among so many positions. -/
def findFrom (matcher : Matcher) (text : Array Char) (start : Nat) : Nat → Option (Nat × Nat)
  | 0 => none
  | positions + 1 =>
    match matcher.matchAt? text start with
    | some stop => some (start, stop)
    | none => findFrom matcher text (start + 1) positions

def find? (matcher : Matcher) (text : Array Char) (start : Nat) : Option (Nat × Nat) :=
  matcher.findFrom text start (text.size + 1 - start)

/-- All matches from a position on that are not empty, in so many steps. -/
def matchesFrom (matcher : Matcher) (text : Array Char) (start : Nat) : Nat → List (Nat × Nat)
  | 0 => []
  | steps + 1 =>
    match matcher.find? text start with
    | none => []
    | some (first, stop) =>
      if stop = first then matchesFrom matcher text (first + 1) steps
      else (first, stop) :: matchesFrom matcher text stop steps

end Matcher

inductive Shown where
  | lines
  | parts
  | count
  /-- The name of the file, if a line matches or if none does. -/
  | name (present : Bool)
  | nothing
  deriving DecidableEq, Repr

structure SearchStyle where
  matcher : Matcher
  inverse : Bool
  shown : Shown
  numbers : Bool
  offsets : Bool
  names : Bool
  most : Option Nat
  before : Nat
  after : Nat
  text : Bool
  /-- Whether nothing is selected in files that are no text. -/
  skipBinary : Bool
  lineEnd : UInt8
  gap : Option Bytes
  painted : Bool
  aligned : Bool
  nullNames : Bool
  inputName : Bytes
  atOnce : Bool
  separated : Bool

/-- Bytes between escape sequences that make them stand out, in the way that a text says. -/
def SearchStyle.paint (style : SearchStyle) (way : String) (bytes : Bytes) : Bytes :=
  if style.painted then
    Bytes.ofText ("\x1b[" ++ way ++ "m\x1b[K") ++ bytes ++ Bytes.ofText "\x1b[m\x1b[K"
  else bytes

structure SearchState where
  line : Nat := 0
  offset : Nat := 0
  selected : Nat := 0
  /-- How many lines are still to be printed behind the last one that was selected. -/
  pending : Nat := 0
  /-- The last lines that were not printed, the latest first, with their numbers and offsets. -/
  held : List (Nat × Nat × Bytes) := []
  lastPrinted : Nat := 0
  /-- Where the last selected line ended. -/
  afterSelected : Nat := 0
  output : List Bytes := []
  binary : Bool := false
  /-- Whether a line was selected in a file that is no text. -/
  binaryMatch : Bool := false
  stopped : Bool := false
  /-- Whether a line was printed, of this file or of one before it. -/
  used : Bool := false
  started : Bytes := []

namespace SearchState

def shownName (style : SearchStyle) (name : Bytes) (separator : String) : Bytes :=
  style.paint "35" name ++
    (if style.nullNames then [0] else style.paint "36" (Bytes.ofText separator))

def heading (style : SearchStyle) (name : Bytes) (separator : String) (line offset : Nat)
    (empty : Bool) :
    Bytes :=
  let number (value : Nat) : Bytes :=
    style.paint "32" (decimal value) ++ style.paint "36" (Bytes.ofText separator)
  (if style.names then shownName style name separator else []) ++
    (if style.numbers then number line else []) ++
    (if style.offsets then number offset else []) ++
    (if style.aligned && !empty && (style.names || style.numbers || style.offsets) then
      Bytes.ofText "\t"
    else [])

def put (state : SearchState) (bytes : Bytes) : SearchState :=
  { state with output := bytes :: state.output }

def paintLine (style : SearchStyle) (bytes : Bytes) : Bytes :=
  let text := bytes.toChars.toArray
  let (shown, place) := (style.matcher.matchesFrom text 0 (text.size + 1)).foldl
    (fun (shown, place) (first, stop) =>
      (shown ++ (bytes.drop place).take (first - place) ++
        style.paint "01;31" ((bytes.drop first).take (stop - first)), stop)) (([] : Bytes), 0)
  shown ++ bytes.drop place

def partLines (style : SearchStyle) (name : Bytes) (line offset : Nat) (bytes : Bytes) : Bytes :=
  let text := bytes.toChars.toArray
  (style.matcher.matchesFrom text 0 (text.size + 1)).flatMap fun (first, stop) =>
    heading style name ":" line (offset + first) false ++
      style.paint "01;31" ((bytes.drop first).take (stop - first)) ++ [style.lineEnd]

def putLine (style : SearchStyle) (name : Bytes) (selected : Bool) (state : SearchState)
    (line offset : Nat) (bytes : Bytes) : SearchState :=
  let apart :=
    style.separated && state.used && (state.lastPrinted = 0 || state.lastPrinted + 1 < line)
  let state :=
    match apart, style.gap with
    | true, some gap => state.put (style.paint "36" gap ++ Bytes.ofText "\n")
    | _, _ => state
  let shown :=
    if style.shown = .parts then
      if selected && !style.inverse then partLines style name line offset bytes else []
    else
      heading style name (if selected then ":" else "-") line offset bytes.isEmpty ++
        (if style.painted && selected != style.inverse then paintLine style bytes else bytes) ++
        [style.lineEnd]
  { state.put shown with lastPrinted := line, used := true }

def isFull (style : SearchStyle) (state : SearchState) : Bool :=
  style.most.any (· ≤ state.selected)

def takeLine (style : SearchStyle) (name : Bytes) (state : SearchState)
    (bytes : Bytes) : SearchState :=
  let line := state.line + 1
  let offset := state.offset
  let next := { state with line, offset := offset + bytes.length + 1 }
  let text := bytes.toChars.toArray
  let selected := (style.matcher.find? text 0).isSome != style.inverse
  let showsLines := style.shown = .lines || style.shown = .parts
  if state.isFull style then
    if state.pending = 0 then { state with stopped := true }
    else { next.putLine style name false line offset bytes with pending := state.pending - 1 }
  else if selected then
    let next := { next with selected := state.selected + 1, afterSelected := next.offset }
    match style.shown with
    | .nothing => { next with stopped := true }
    | .name _ => { next with stopped := true }
    | .count => { next with stopped := next.isFull style }
    | _ =>
      if state.binary then { next with binaryMatch := true, stopped := true }
      else
        let next := state.held.reverse.foldl (fun next (line, offset, bytes) =>
          next.putLine style name false line offset bytes) next
        let next := next.putLine style name true line offset bytes
        { next with
          held := [], pending := style.after, stopped := next.isFull style && style.after = 0 }
  else if showsLines && 0 < state.pending && !state.binary then
    { next.putLine style name false line offset bytes with pending := state.pending - 1 }
  else if showsLines && 0 < style.before then
    { next with held := ((line, offset, bytes) :: state.held).take style.before }
  else next

def takeLines (style : SearchStyle) (name : Bytes) :
    SearchState → List Bytes → SearchState
  | state, [] => state
  | state, bytes :: rest =>
    if state.stopped then state
    else takeLines style name (state.takeLine style name bytes) rest

def splitLines (lineEnd : UInt8) (lines : List Bytes) (line : Bytes) : Bytes → List Bytes × Bytes
  | [] => (lines.reverse, line.reverse)
  | b :: rest =>
    if b = lineEnd then splitLines lineEnd (line.reverse :: lines) [] rest
    else splitLines lineEnd lines (b :: line) rest

def takeBytes (style : SearchStyle) (name : Bytes) (state : SearchState)
    (bytes : Bytes) : SearchState :=
  let binary := state.binary || (!style.text && style.lineEnd ≠ 0 && bytes.contains 0)
  let (lines, started) := splitLines style.lineEnd [] [] (state.started ++ bytes)
  if binary && style.skipBinary then { state with selected := 0, stopped := true }
  else takeLines style name { state with binary, started } lines

end SearchState

/-- Read to the end or until enough was read, in so many rounds. -/
def searchInput (invocation : Invocation) (style : SearchStyle) (name : Bytes)
    (descriptor : Descriptor) :
    Nat → Bytes → SearchState → Steps (Except Errno Unit × Bytes × SearchState)
  | 0, held, state => return (.ok (), held, state)
  | rounds + 1, held, state => do
    match ← Steps.ask (.read descriptor 98304) with
    | .error errno => return (.error errno, held, state)
    | .ok bytes =>
      let state :=
        if !bytes.isEmpty then state.takeBytes style name bytes
        else if state.started.isEmpty then { state with stopped := true }
        else
          { state.takeLine style name state.started with started := [], stopped := true }
      let held ← invocation.gather 2 held state.output.reverse.flatten
      let held ←
        if style.atOnce then do
          invocation.printOr 2 held
          pure []
        else pure held
      let state := { state with output := [] }
      if state.stopped then return (.ok (), held, state)
      searchInput invocation style name descriptor rounds held state

/-- What came of a search so far: whether a line was selected, whether something went wrong, whether
a line was printed, and the output that is held back. -/
structure SearchResult where
  selected : Bool := false
  failed : Bool := false
  used : Bool := false
  held : Bytes := []

def SearchResult.complain (invocation : Invocation) (result : SearchResult) (message : Bytes) :
    Steps SearchResult := do
  invocation.printOr 2 result.held
  invocation.complain message
  return { result with held := [] }

def SearchResult.fail (invocation : Invocation) (silent : Bool) (name : Bytes)
    (result : SearchResult) (message : String) : Steps SearchResult := do
  let result ←
    if silent then pure result
    else result.complain invocation (name ++ Bytes.ofText (": " ++ message))
  return { result with failed := true }

def searchOpen (invocation : Invocation) (style : SearchStyle) (silent : Bool) (name : Bytes)
    (descriptor : Descriptor) (result : SearchResult) : Steps SearchResult := do
  let start :=
    match ← Steps.ask (.position descriptor) with | .ok position => position | .error _ => 0
  let (reading, held, state) ←
    if style.most = some 0 then pure (.ok (), result.held, ({ used := result.used } : SearchState))
    else searchInput invocation style name descriptor patience result.held { used := result.used }
  let selected := 0 < state.selected
  let result := { result with held, used := state.used, selected := result.selected || selected }
  let result ←
    match reading with
    | .ok () => pure result
    | .error errno => result.fail invocation silent name errno.systemText
  let result ←
    if state.binaryMatch then
      result.complain invocation (name ++ Bytes.ofText ": binary file matches")
    else pure result
  let summary :=
    match style.shown with
    | .count =>
      (if style.names then SearchState.shownName style name ":" else []) ++
        decimal state.selected ++ Bytes.ofText "\n"
    | .name present =>
      if selected = present then style.paint "35" name ++ [if style.nullNames then 0 else newline]
      else []
    | _ => []
  let held ← invocation.gather 2 result.held summary
  if descriptor = 0 && state.isFull style then
    let _ ← Steps.ask (.seek 0 (start + state.afterSelected))
  return { result with held }

/-- All files below a path, in the order of their names, in so many steps down. -/
def filesBelow : Nat → Bytes → Steps (List Bytes)
  | 0, path => return [path]
  | steps + 1, path => do
    match ← Steps.ask (.stat path false) with
    | .ok status =>
      if status.kind = .directory then
        match ← Steps.ask (.list path) with
        | .ok names =>
          let mut found := []
          for name in names do
            found := found ++ (← filesBelow steps (path ++ Bytes.ofText "/" ++ name))
          return found
        | .error _ => return [path]
      else return [path]
    | .error _ => return [path]

structure Selection where
  /-- Patterns for names of files, with whether they are for those that are left out. -/
  files : List (Bool × List Char) := []
  directories : List (List Char) := []
  skipDirectories : Bool := false

/-- Whether a name or an end of it behind a slash has the form of a pattern. -/
def fitsPattern (pattern name : List Char) : Bool :=
  let wild := pattern.map fun c => (⟨c, false⟩ : Interpreter.Wild)
  let ends := (List.range name.length).filter fun index => name[index]? = some '/'
  Interpreter.Wild.isMatch wild name ||
    ends.any fun index => Interpreter.Wild.isMatch wild (name.drop (index + 1))

/-- Whether a file is left out: the last pattern that its name fits decides, and without one the
first pattern does. -/
def Selection.omits (selection : Selection) (path : Bytes) : Bool :=
  match (selection.files.reverse.find? fun entry => fitsPattern entry.2 path.toChars),
    selection.files.head? with
  | some (leaveOut, _), _ => leaveOut
  | none, some (leaveOut, _) => !leaveOut
  | none, none => false

/-- The number of an open file, if it is one that can be read again. -/
def regularInode? (descriptor : Descriptor) : Steps (Option Nat) := do
  match ← Steps.ask (.describe descriptor) with
  | .ok status => return if status.kind = .regular then some status.inode else none
  | .error _ => return none

/-- Search files one after the other, but not the one that the output goes to. -/
def searchFiles (invocation : Invocation) (style : SearchStyle) (silent : Bool)
    (selection : Selection) (output : Option Nat) : List Bytes → SearchResult → Steps SearchResult
  | [], result => do
    invocation.printOr 2 result.held
    return result
  | path :: rest, result => do
    if result.selected && style.shown = .nothing then return result
    let name := if path = hyphen then style.inputName else path
    match ← openInput path with
    | .error errno =>
      searchFiles invocation style silent selection output rest
        (← result.fail invocation silent name errno.systemText)
    | .ok descriptor =>
      let isDirectory : Bool := match ← Steps.ask (.describe descriptor) with
        | .ok status => status.kind = .directory
        | .error _ => false
      let omitted :=
        if isDirectory then
          selection.skipDirectories || selection.directories.any fun pattern =>
            fitsPattern pattern path.toChars
        else path ≠ hyphen && selection.omits path
      let loops ←
        if output.isSome && [Shown.lines, .parts].contains style.shown && style.most ≠ some 1 then
          pure ((← regularInode? descriptor) == output)
        else pure false
      let result ←
        if omitted then pure result
        else if loops then result.fail invocation silent name "input file is also the output"
        else searchOpen invocation style silent name descriptor result
      closeInput path descriptor
      searchFiles invocation style silent selection output rest result

def grepRules : List OptionRule :=
  [{ key := 'G', word := "basic-regexp" }, { key := 'E', word := "extended-regexp" },
    { key := 'F', word := "fixed-regexp", short := false }, { key := 'F', word := "fixed-strings" },
    { key := 'P', word := "perl-regexp" }, { key := 'A', word := "after-context", needs := .value },
    { key := 'B', word := "before-context", needs := .value },
    { key := '4', word := "binary-files", needs := .value, short := false },
    { key := 'b', word := "byte-offset" }, { key := 'C', word := "context", needs := .value },
    { key := '2', word := "color", needs := .maybe, short := false },
    { key := '2', word := "colour", needs := .maybe, short := false },
    { key := 'c', word := "count" }, { key := 'D', word := "devices", needs := .value },
    { key := 'd', word := "directories", needs := .value },
    { key := '5', word := "exclude", needs := .value, short := false },
    { key := '7', word := "exclude-dir", needs := .value, short := false },
    { key := 'f', word := "file", needs := .value }, { key := 'l', word := "files-with-matches" },
    { key := 'L', word := "files-without-match" },
    { key := '8', word := "group-separator", needs := .value, short := false },
    { key := '6', word := "include", needs := .value, short := false },
    { key := 'i', word := "ignore-case" }, { key := '1', word := "no-ignore-case", short := false },
    { key := 'T', word := "initial-tab" },
    { key := '3', word := "label", needs := .value, short := false },
    { key := 'u', word := "line-buffered", short := false }, { key := 'n', word := "line-number" },
    { key := 'x', word := "line-regexp" }, { key := 'm', word := "max-count", needs := .value },
    { key := 'h', word := "no-filename" },
    { key := '9', word := "no-group-separator", short := false },
    { key := 's', word := "no-messages" }, { key := 'Z', word := "null" },
    { key := 'z', word := "null-data" }, { key := 'o', word := "only-matching" },
    { key := 'q', word := "quiet" }, { key := 'r', word := "recursive" },
    { key := 'R', word := "dereference-recursive" },
    { key := 'e', word := "regexp", needs := .value }, { key := 'v', word := "invert-match" },
    { key := 'q', word := "silent", short := false }, { key := 'a', word := "text" },
    { key := 'U', word := "binary" }, { key := 'H', word := "with-filename" },
    { key := 'w', word := "word-regexp" }, { key := 'y' }, { key := 'I' }]

def Parsed.last? (parsed : Parsed) (keys : List Char) : Option Char :=
  (parsed.options.reverse.find? fun given => keys.contains given.key).map Given.key

/-- A text as the lines it consists of. A line break at its end starts no other line. -/
def patternLines (bytes : Bytes) : List Bytes :=
  let (lines, last) := SearchState.splitLines newline [] [] bytes
  lines ++ [last]

/-- The pattern that stands for nothing but its own characters. -/
def fixedPattern (anyCase : Bool) (chars : List Char) : Pattern :=
  let reader : PatternReader := { rest := [], extended := false, anyCase }
  chars.foldr (fun c pattern => .both (reader.character c) pattern) .empty

def grepUsage (invocation : Invocation) : Bytes :=
  let name := Bytes.ofChars ((invocation.name.toChars.reverse.takeWhile (· ≠ '/')).reverse)
  Bytes.ofText "Usage: " ++ name ++ Bytes.ofText " [OPTION]... PATTERNS [FILE]...\nTry '" ++ name ++
    Bytes.ofText " --help' for more information.\n"

def contextLength? (value : Bytes) : Option Nat :=
  let number := leading (some 10) value.toChars
  if number.found && number.rest.isEmpty && 0 ≤ number.value then some number.value.toNat else none

def patternFiles (invocation : Invocation) : List Bytes → Steps (Option (List Bytes))
  | [] => return some []
  | path :: rest => do
    match ← openInput path with
    | .error errno =>
      invocation.complain (path ++ Bytes.ofText (": " ++ errno.systemText))
      return none
    | .ok descriptor =>
      let (_, bytes) ← Steps.readToEnd descriptor
      closeInput path descriptor
      let lines :=
        if bytes.isEmpty then []
        else if bytes.getLast? = some newline then patternLines bytes.dropLast
        else patternLines bytes
      match ← patternFiles invocation rest with
      | some others => return some (lines ++ others)
      | none => return none

def readPatterns (kind : Option Char) (anyCase : Bool) (lines : List Bytes) :
    Except String (List Pattern × List String) := do
  let mut patterns := []
  let mut warnings := []
  for line in lines do
    if kind = some 'F' then patterns := patterns ++ [fixedPattern anyCase line.toChars]
    else
      let found ← readPattern (kind = some 'E' || kind = some 'P') anyCase line.toChars
      let pattern := if found.pattern.usesCopies then found.pattern else found.pattern.withoutGroups
      patterns := patterns ++ [pattern]
      warnings := warnings ++ found.warnings
  return (patterns, warnings)

/-- The options and other arguments, where digits that are options say how many lines around a
selected one are printed. -/
def withContextDigits : List Bytes → List Bytes
  | [] => []
  | argument :: rest =>
    match argument.toChars with
    | ['-', '-'] => argument :: rest
    | '-' :: c :: letters =>
      if c.isDigit && letters.all Char.isDigit then
        Bytes.ofChars ('-' :: 'C' :: c :: letters) :: withContextDigits rest
      else if c ≠ '-' && ['e', 'f', 'm', 'A', 'B', 'C', 'D', 'd'].any fun key =>
          (c :: letters).getLast? = some key then
        match rest with
        | value :: others => argument :: value :: withContextDigits others
        | [] => [argument]
      else argument :: withContextDigits rest
    | _ => argument :: withContextDigits rest
  termination_by arguments => arguments.length

def directoryChoices : List (List String) := [["read"], ["recurse"], ["skip"]]

def grepObjection (invocation : Invocation) : Objection := fun given =>
  let fail (message : Bytes) : Option (Steps Int) := some (invocation.fail message 2)
  let text := String.ofList given.value.toChars
  match given.key with
  | 'd' =>
    if choose directoryChoices given.value matches .ok _ then none
    else
      some do
        let kind :=
          if choose directoryChoices given.value = .ambiguous then "ambiguous" else "invalid"
        invocation.complain (Bytes.ofText (kind ++ " argument ") ++ given.value.plainQuoted ++
          Bytes.ofText " for '--directories'")
        Invocation.say
          (Bytes.ofText "Valid arguments are:\n  - 'read'\n  - 'recurse'\n  - 'skip'\n")
        Invocation.say (grepUsage invocation)
        return 2
  | 'D' =>
      if ["read", "skip"].contains text then none else fail (Bytes.ofText "unknown devices method")
  | '4' =>
    if ["binary", "text", "without-match"].contains text then none
    else fail (Bytes.ofText "unknown binary-files type")
  | 'm' =>
    let number := leading (some 10) given.value.toChars
    if number.found && number.rest.isEmpty then none else fail (Bytes.ofText "invalid max count")
  | key =>
    if ['A', 'B', 'C'].contains key && (contextLength? given.value).isNone then
      fail (given.value ++ Bytes.ofText ": invalid context length argument")
    else none

/-- What is wrong with the options, if anything. Only one kind of pattern may be asked for. -/
def firstObjection? (invocation : Invocation) (kind : Option Char) : List Given → Option (Steps Int)
  | [] => none
  | given :: rest =>
    if ['E', 'F', 'G', 'P'].all (· ≠ given.key) then
      (grepObjection invocation given).orElse fun _ => firstObjection? invocation kind rest
    else if kind.all (· = given.key) then firstObjection? invocation (some given.key) rest
    else some (invocation.fail (Bytes.ofText "conflicting matchers specified") 2)

def grepWith (invocation : Invocation) (parsed : Parsed) : Steps Int := do
  let anyOf (keys : List Char) : Bool := keys.any parsed.has
  let textOf (key : Char) : Option String :=
    (parsed.value? key).map fun value => String.ofList value.toChars
  let values (key : Char) : List Bytes :=
    (parsed.options.filter fun given => given.key = key).map Given.value
  let (given, operands) :=
    if anyOf ['e', 'f'] then (values 'e', parsed.operands)
    else (parsed.operands.take 1, parsed.operands.drop 1)
  if !anyOf ['e', 'f'] && given.isEmpty then
    Invocation.say (grepUsage invocation)
    return 2
  match ← patternFiles invocation (values 'f') with
  | none => return 2
  | some more =>
    let anyCase := (parsed.last? ['i', 'y', '1']).any (· ≠ '1')
    let lines := given.flatMap patternLines ++ more
    -- Without any pattern nothing matches, which is to say that what matches the empty one is not
    -- selected.
    let noPattern := lines.isEmpty
    let inverse := anyOf ['v'] != noPattern
    let extent : Extent :=
      if noPattern then .part else if anyOf ['x'] then .line else if anyOf ['w'] then .word
      else .part
    let most := (parsed.value? 'm').bind fun value =>
      let count := (leading (some 10) value.toChars).value
      if count < 0 then none else some count.toNat
    let shown : Shown :=
      if anyOf ['q'] then .nothing
      else
        match parsed.last? ['l', 'L'] with
        | some key => .name (key = 'l')
        | none => if anyOf ['c'] then .count else if anyOf ['o'] then .parts else .lines
    let impossible := most = some 0 || (lines.all List.isEmpty && inverse && extent = .part)
    if impossible && shown ≠ .name false then return 1
    match readPatterns (parsed.last? ['E', 'F', 'G', 'P']) anyCase (if noPattern then [[]]
      else lines) with
    | .error message => invocation.fail (Bytes.ofText message) 2
    | .ok (patterns, warnings) =>
      for warning in warnings do
        invocation.complain (Bytes.ofText ("warning: " ++ warning))
      let recursive :=
        match (parsed.options.reverse.find? fun given => ['r', 'R', 'd'].contains given.key) with
        | some given => given.key ≠ 'd' || choose directoryChoices given.value = .ok "recurse"
        | none => false
      let paths ←
        if operands.isEmpty then
          if recursive then do
            pure ((← filesBelow patience (Bytes.ofText ".")).map fun path => path.drop 2)
          else pure [hyphen]
        else if recursive then do
          let mut found := []
          for path in operands do
            found := found ++ (← filesBelow patience path)
          pure found
        else pure operands
      let context (key : Char) : Nat :=
        (((parsed.value? key).orElse fun _ => parsed.value? 'C').bind contextLength?).getD 0
      let binary := (parsed.options.reverse.findSome? fun given =>
        match given.key with
        | 'a' => some "text"
        | 'I' => some "without-match"
        | '4' => some (String.ofList given.value.toChars)
        | _ => none).getD "binary"
      let style : SearchStyle :=
        { matcher := { patterns, anyCase, extent }, inverse, shown, numbers := anyOf ['n'],
          offsets := anyOf ['b'],
          names := match parsed.last? ['H', 'h'] with
            | some key => key = 'H'
            | none => 1 < operands.length || (recursive && paths ≠ operands),
          most, before := context 'B', after := context 'A', text := binary = "text",
          skipBinary := binary = "without-match", atOnce := anyOf ['u'],
          separated := anyOf ['A', 'B', 'C'],
          lineEnd := if anyOf ['z'] then 0 else newline,
          gap := match parsed.options.reverse.find? fun given => ['8', '9'].contains given.key with
            | some given => if given.key = '8' then some given.value else none
            | none => some (Bytes.ofText "--"),
          painted := ["always", "yes", "force"].any fun word => textOf '2' = some word,
          aligned := anyOf ['T'], nullNames := anyOf ['Z'],
          inputName := (parsed.value? '3').getD (Bytes.ofText "(standard input)") }
      let selection : Selection :=
        { files := parsed.options.filterMap fun given =>
            if given.key = '5' then some (true, given.value.toChars)
            else if given.key = '6' then some (false, given.value.toChars)
            else none,
          directories := (values '7').map Bytes.toChars,
          skipDirectories := (parsed.value? 'd').any fun value =>
            !recursive && choose directoryChoices value = .ok "skip" }
      let result ← searchFiles invocation style (anyOf ['s']) selection (← regularInode? 1) paths {}
      return if result.selected && (style.shown = .nothing || !result.failed) then 0
        else if result.failed then 2
        else 1

def grep (invocation : Invocation) : Steps Int :=
  match parseFrom (grepRules ++ standardRules) true {} 0
    (withContextDigits invocation.arguments) with
  | .error misread =>
    (firstObjection? invocation none misread.before.options).getD do
      invocation.complain misread.message
      Invocation.say (grepUsage invocation)
      return 2
  | .ok parsed =>
    (firstObjection? invocation none parsed.options).getD (grepWith invocation parsed)

end CommandShell.Tool
