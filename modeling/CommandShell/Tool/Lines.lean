import CommandShell.Tool.Basic
import CommandShell.Tool.Number

/-!
Programs that print files or parts of them, or count what is in them: `cat`, `head`, `tail` and
`wc`.
-/

namespace CommandShell.Tool

def newline : UInt8 := Bytes.byte '\n'

/-! `cat` -/

structure CatStyle where
  numbers : Bool
  filledOnly : Bool
  squeeze : Bool
  lineEnds : Bool
  tabs : Bool
  visible : Bool

structure CatState where
  /-- How many line breaks came last; at the start, one. -/
  breaks : Nat := 1
  line : Nat := 0
  /-- Whether the last character was a return that is still to be printed. -/
  pendingReturn : Bool := false

def visibleChar (c : Char) : List Char :=
  let n := c.toNat
  let plain (n : Nat) : List Char :=
    if n < 32 then ['^', Char.ofNat (n + 64)] else if n = 127 then ['^', '?'] else [Char.ofNat n]
  if n < 128 then plain n else ['M', '-'] ++ plain (n - 128)

def catChar (style : CatStyle) (state : CatState) (c : Char) : List Char × CatState :=
  if c = '\n' then
    let breaks := state.breaks + 1
    if style.squeeze && 2 < breaks then ([], { state with breaks := 3, pendingReturn := false })
    else
      let (number, line) :=
        if style.numbers && !style.filledOnly && 1 ≤ state.breaks then lineNumber (state.line + 1)
        else ([], state.line)
      let returned :=
        if !state.pendingReturn then []
        else if style.lineEnds && !style.visible then ['^', 'M'] else ['\r']
      (number ++ returned ++ (if style.lineEnds then ['$', '\n'] else ['\n']),
        { breaks := min breaks 3, line, pendingReturn := false })
  else
    let (number, line) :=
      if style.numbers && 1 ≤ state.breaks then lineNumber (state.line + 1) else ([], state.line)
    let returned := if state.pendingReturn then ['\r'] else []
    let state : CatState := { breaks := 0, line, pendingReturn := false }
    if c = '\r' && style.lineEnds && !style.visible then
      (number ++ returned, { state with pendingReturn := true })
    else
      let shown :=
        if c = '\t' then if style.tabs then ['^', 'I'] else ['\t']
        else if style.visible then visibleChar c
        else [c]
      (number ++ returned ++ shown, state)
where
  lineNumber (line : Nat) : List Char × Nat :=
    let digits := decimalChars line
    (List.replicate (6 - digits.length) ' ' ++ digits ++ ['\t'], line)

def catBytes (style : CatStyle) (state : CatState) (bytes : Bytes) : Bytes × CatState :=
  let (pieces, state) := bytes.toChars.foldl (fun (pieces, state) c =>
    let (chars, state) := catChar style state c
    (chars :: pieces, state)) (([] : List (List Char)), state)
  (Bytes.ofChars pieces.reverse.flatten, state)

/-- Whether a file is the one that the output goes to, with something in it before the end of
that. -/
def isOutput (descriptor : Descriptor) : Steps Bool := do
  match ← Steps.ask (.describe descriptor), ← Steps.ask (.describe 1) with
  | .ok input, .ok output =>
    if input.kind ≠ .regular || input.inode ≠ output.inode then return false
    match ← Steps.ask (.position descriptor), ← Steps.ask (.position 1) with
    | .ok position, .ok place => return position < max place output.size
    | _, _ => return false
  | _, _ => return false

def cat (invocation : Invocation) : Steps Int :=
  withOptions invocation
    [{ key := 'A', word := "show-all" }, { key := 'b', word := "number-nonblank" }, { key := 'e' },
      { key := 'E', word := "show-ends" }, { key := 'n', word := "number" },
      { key := 's', word := "squeeze-blank" }, { key := 't' }, { key := 'T', word := "show-tabs" },
      { key := 'u' }, { key := 'v', word := "show-nonprinting" }] true 1 fun parsed => do
    let any (keys : List Char) : Bool := keys.any parsed.has
    let style : CatStyle :=
      { numbers := any ['n', 'b'], filledOnly := any ['b'], squeeze := any ['s'],
        lineEnds := any ['A', 'e', 'E'], tabs := any ['A', 't', 'T'],
        visible := any ['A', 'e', 't', 'v'] }
    let plain := !any ['A', 'b', 'e', 'E', 'n', 's', 't', 'T', 'v']
    let paths := if parsed.operands.isEmpty then [hyphen] else parsed.operands
    if let .error errno ← Steps.ask (.describe 1) then
      return (← invocation.fail (Bytes.ofText ("standard output: " ++ errno.systemText)) 1)
    let mut state : CatState := {}
    let mut code : Int := 0
    for path in paths do
      let refuse (errno : Errno) : Steps Unit :=
        invocation.complain (path.shown ++ Bytes.ofText (": " ++ errno.systemText))
      match ← openInput path with
      | .error errno =>
        refuse errno
        code := 1
      | .ok descriptor =>
        if ← isOutput descriptor then
          invocation.complain (path.shown ++ Bytes.ofText ": input file is output file")
          code := 1
        else
          let (result, next) ← Steps.foldInput descriptor 131072 (fun state bytes => do
            if plain then
              invocation.print bytes
              return state
            else
              let (bytes, state) := catBytes style state bytes
              invocation.print bytes
              return state) patience state
          state := next
          if let .error errno := result then
            refuse errno
            code := 1
        closeInput path descriptor
    if state.pendingReturn then invocation.print (Bytes.ofText "\r")
    closeStandardInput invocation paths "closing standard input" code

/-! `head` and `tail` -/

structure Portion where
  lines : Bool
  count : Nat
  inverse : Bool

def pieceSize : Nat := 8192

/-- The start of some bytes with at most so many line breaks, and how many are missing. -/
def takeLines (lineEnd : UInt8) (count : Nat) (read : Bytes) : Bytes → Bytes × Nat
  | [] => (read.reverse, count)
  | b :: rest =>
    match count with
    | 0 => (read.reverse, 0)
    | left + 1 => takeLines lineEnd (if b = lineEnd then left else count) (b :: read) rest

def splitLines (lineEnd : UInt8) (read : List Bytes) (line : Bytes) : Bytes → List Bytes
  | [] => (if line.isEmpty then read else line.reverse :: read).reverse
  | b :: rest =>
    if b = lineEnd then splitLines lineEnd ((b :: line).reverse :: read) [] rest
    else splitLines lineEnd read (b :: line) rest

/-- Go back in a file over bytes that were read too far, if that can be done. -/
def goBack (descriptor : Descriptor) (count : Nat) : Steps Unit := do
  if count = 0 then return ()
  match ← Steps.ask (.position descriptor) with
  | .ok position =>
    let _ ← Steps.ask (.seek descriptor (position - count))
  | .error _ => return ()

/-- Print the first lines or bytes behind those that are held back. Answers what is held back
then. -/
def headStart (invocation : Invocation) (lineEnd : UInt8) (lines : Bool) (descriptor : Descriptor) :
    Nat → Nat → Bytes → Steps (Except Errno Unit × Bytes)
  | 0, _, held => return (.ok (), held)
  | rounds + 1, count, held => do
    if count = 0 then return (.ok (), held)
    match ← Steps.ask (.read descriptor (if lines then pieceSize else min pieceSize count)) with
    | .error errno => return (.error errno, held)
    | .ok bytes =>
      if bytes.isEmpty then return (.ok (), held)
      if lines then
        let (start, left) := takeLines lineEnd count [] bytes
        let held ← invocation.gather 1 held start
        if left = 0 then
          goBack descriptor (bytes.length - start.length)
          return (.ok (), held)
        headStart invocation lineEnd lines descriptor rounds left held
      else
        let held ← invocation.gather 1 held bytes
        headStart invocation lineEnd lines descriptor rounds (count - bytes.length) held

/-- What is left of some bytes without their last lines or bytes. -/
def withoutEnd (lineEnd : UInt8) (lines : Bool) (count : Nat) (bytes : Bytes) : Bytes :=
  if lines then
    let all := splitLines lineEnd [] [] bytes
    (all.take (all.length - count)).flatten
  else bytes.take (bytes.length - count)

def headAllBut (invocation : Invocation) (lineEnd : UInt8) (lines : Bool) (descriptor : Descriptor)
    (count : Nat) (held : Bytes) : Steps (Except Errno Unit × Bytes) := do
  let (result, bytes) ← Steps.readToEnd descriptor
  let start := withoutEnd lineEnd lines count bytes
  let held ← invocation.gather 1 held start
  goBack descriptor (bytes.length - start.length)
  return (result, held)

def shownName (path : Bytes) : Bytes :=
  if path = hyphen then Bytes.ofText "standard input" else path

def header (first : Bool) (path : Bytes) : Bytes :=
  Bytes.ofText (if first then "==> " else "\n==> ") ++ shownName path ++ Bytes.ofText " <==\n"

inductive Printed where
  | done
  | unknown (errno : Errno)
  /-- The file could not be read, and whether that ends the program. -/
  | broken (errno : Errno) (ends : Bool)

def Printed.ofResult : Except Errno Unit → Printed
  | .ok () => .done
  | .error errno => .broken errno false

/-- Print a portion of each file. What is held back is printed before a message and at the end. -/
def printPortions (invocation : Invocation) (headers : Bool)
    (portion : Descriptor → Bytes → Steps (Printed × Bytes)) (first : Bool) (code : Int)
    (held : Bytes) :
    List Bytes → Steps Int
  | [] => do
    invocation.print held
    return code
  | path :: paths => do
    match ← openInput path with
    | .error errno =>
      invocation.print held
      invocation.complain (Bytes.ofText "cannot open " ++ path.quoted ++
        Bytes.ofText (" for reading: " ++ errno.systemText))
      printPortions invocation headers portion first 1 [] paths
    | .ok descriptor =>
      let held ← if headers then invocation.gather 1 held (header first path) else pure held
      let (printed, held) ← portion descriptor held
      closeInput path descriptor
      let complain (what : String) (errno : Errno) : Steps Unit := do
        invocation.print held
        invocation.complain (Bytes.ofText what ++ (shownName path).quoted ++
          Bytes.ofText (": " ++ errno.systemText))
      match printed with
      | .done => printPortions invocation headers portion false code held paths
      | .unknown errno =>
        complain "cannot fstat " errno
        printPortions invocation headers portion false 1 [] paths
      | .broken errno ends =>
        complain "error reading " errno
        if ends then
          let never ← Steps.ask (.exit 1)
          nomatch never
        printPortions invocation headers portion false 1 [] paths

def portions (invocation : Invocation) (parsed : Parsed)
    (portion : Descriptor → Bytes → Steps (Printed × Bytes)) : Steps Int := do
  let paths := if parsed.operands.isEmpty then [hyphen] else parsed.operands
  let mode := (parsed.options.filter fun given => given.key = 'q' || given.key = 'v').getLast?
  let headers := match mode with | some given => given.key = 'v' | none => 1 < paths.length
  let code ← printPortions invocation headers portion true 0 [] paths
  closeStandardInput invocation paths "-" code

def refuseAmount (invocation : Invocation) (lines : Bool) (text : Bytes) (tooLarge : Bool) :
    Steps Int :=
  invocation.fail
    (Bytes.ofText ("invalid number of " ++ (if lines then "lines" else "bytes") ++ ": ") ++
    text.plainQuoted ++
    Bytes.ofText (if tooLarge then ": " ++ Errno.tooLarge.systemText else "")) 1

/-- The options of `head` and `tail`. Digits are options only to be refused. -/
def portionRules : List OptionRule :=
  [{ key := 'c', word := "bytes", needs := .value },
    { key := 'n', word := "lines", needs := .value },
    { key := 'q', word := "quiet" }, { key := 'q', word := "silent", short := false },
    { key := 'v', word := "verbose" }, { key := 'z', word := "zero-terminated" }] ++
    "0123456789".toList.map fun c => { key := c }

def unsignedAmount (text : Bytes) : Bytes :=
  if text.head? = some (Bytes.byte '-') then text.drop 1 else text

def objectToAmount (invocation : Invocation) (given : Given) : Option (Steps Int) :=
  if given.key = 'n' || given.key = 'c' then
    let text := unsignedAmount given.value
    match amount text.toChars with
    | .ok _ => none
    | .invalid => some (refuseAmount invocation (given.key = 'n') text false)
    | .tooLarge => some (refuseAmount invocation (given.key = 'n') text true)
  else none

/-- The last amount of lines or bytes that was given, or ten lines. -/
def givenAmount (parsed : Parsed) : Given × Nat :=
  match (parsed.options.filter fun given => given.key = 'n' || given.key = 'c').getLast? with
  | none => (⟨'n', []⟩, 10)
  | some given =>
    match amount (unsignedAmount given.value).toChars with
    | .ok count => (given, count)
    | _ => (given, 10)

def headNumber (digits letters : List Char) : Except Char (List Given) := do
  let bad := letters.find? fun c => !(c ∈ ['c', 'b', 'k', 'm', 'l', 'q', 'v', 'z'])
  match bad with
  | some c => .error c
  | none =>
    let unit := letters.filter fun c => c ∈ ['b', 'k', 'm']
    let bytes := (letters.filter fun c => c ∈ ['c', 'b', 'k', 'm', 'l']).getLast?
    let key := match bytes with | some 'l' => 'n' | some _ => 'c' | none => 'n'
    .ok (⟨key, Bytes.ofChars (digits ++ unit.take 1)⟩ ::
      (letters.filter fun c => c ∈ ['q', 'v', 'z']).map fun c => ⟨c, []⟩)

def headWith (invocation : Invocation) (given : List Given) : Steps Int :=
  let object (given : Given) : Option (Steps Int) :=
    if given.key.isDigit then
      some (invocation.misuse
        (Bytes.ofText "invalid trailing option -- " ++ Bytes.ofChars [given.key]) 1)
    else objectToAmount invocation given
  (given.findSome? object).getD (withChecked invocation portionRules true 1 object fun parsed =>
    let parsed := { parsed with options := given ++ parsed.options }
    let lineEnd : UInt8 := if parsed.has 'z' then 0 else newline
    let (given, count) := givenAmount parsed
    portions invocation parsed fun descriptor held => do
      let (result, held) ←
        if given.value.head? = some (Bytes.byte '-') then
          headAllBut invocation lineEnd (given.key = 'n') descriptor count held
        else headStart invocation lineEnd (given.key = 'n') descriptor patience count held
      return (.ofResult result, held))

def head (invocation : Invocation) : Steps Int := do
  match invocation.arguments with
  | first :: rest =>
    match first.toChars with
    | '-' :: c :: letters =>
      if c.isDigit then
        let chars := c :: letters
        let digits := chars.takeWhile Char.isDigit
        match headNumber digits (chars.drop digits.length) with
        | .error c =>
          invocation.misuse (Bytes.ofText "invalid trailing option -- " ++ Bytes.ofChars [c]) 1
        | .ok given => headWith { invocation with arguments := rest } given
      else headWith invocation []
    | _ => headWith invocation []
  | [] => headWith invocation []

/-- Print the end of a file. What is printed to its end without a look at it ends the program if it
cannot be read. -/
def tailEnd (invocation : Invocation) (lineEnd : UInt8) (portion : Portion)
    (descriptor : Descriptor) (held : Bytes) : Steps (Printed × Bytes) := do
  match ← Steps.ask (.describe descriptor) with
  | .error errno => return (.unknown errno, held)
  | .ok status =>
    let (result, bytes) ← Steps.readToEnd descriptor
    let lines := splitLines lineEnd [] [] bytes
    let skipped := portion.count - 1
    let held ← invocation.gather 1 held
      (if portion.inverse then
        if portion.lines then (lines.drop skipped).flatten else bytes.drop skipped
      else if portion.lines then (lines.drop (lines.length - portion.count)).flatten
      else bytes.drop (bytes.length - portion.count))
    match result with
    | .ok () => return (.done, held)
    | .error errno =>
      let blind :=
        if portion.lines then portion.inverse && skipped = 0 else status.kind = .directory
      return (.broken errno blind, held)

def tailWith (invocation : Invocation) (given : List Given) : Steps Int :=
  let object (given : Given) : Option (Steps Int) :=
    if given.key.isDigit then
      some (invocation.fail
        (Bytes.ofText "option used in invalid context -- " ++ Bytes.ofChars [given.key]) 1)
    else objectToAmount invocation given
  (given.findSome? object).getD
    (withChecked invocation (portionRules ++ [{ key := 'f', word := "follow", needs := .nothing }])
      true 1 object fun parsed => do
    let parsed := { parsed with options := given ++ parsed.options }
    let lineEnd : UInt8 := if parsed.has 'z' then 0 else newline
    let (given, count) := givenAmount parsed
    let inverse := parsed.options.any fun given =>
      (given.key = 'n' || given.key = 'c') && given.value.head? = some (Bytes.byte '+')
    if count = 0 && !inverse then return 0
    portions invocation parsed (tailEnd invocation lineEnd ⟨given.key = 'n', count, inverse⟩))

/-- What is printed by `tail` with an option that is a number, if it may be given that way. -/
def tailNumber? (first : Bytes) (others : Nat) : Option (List Given) :=
  match first.toChars with
  | sign :: rest =>
    let digits := rest.takeWhile Char.isDigit
    let behind := rest.drop digits.length
    let plain := sign = '+' || (sign = '-' && !rest.isEmpty && rest ≠ ['c'])
    if !plain || 1 < others then none
    else
      let shown := if digits.isEmpty then ['1', '0'] else digits
      let mark := if sign = '+' then ['+'] else []
      match behind with
      | [] => some [⟨'n', Bytes.ofChars (mark ++ shown)⟩]
      | ['l'] => some [⟨'n', Bytes.ofChars (mark ++ shown)⟩]
      | ['c'] => some [⟨'c', Bytes.ofChars (mark ++ shown)⟩]
      | ['b'] => some [⟨'c', Bytes.ofChars (mark ++ shown ++ ['b'])⟩]
      | _ => none
  | [] => none

def tail (invocation : Invocation) : Steps Int := do
  match invocation.arguments with
  | first :: rest =>
    let named := match rest with
      | path :: _ => path.head? = some (Bytes.byte '-') && 1 < path.length
      | [] => false
    match if named then none else tailNumber? first rest.length with
    | some given => tailWith { invocation with arguments := rest } given
    | none =>
      match first.toChars with
      | '-' :: c :: _ =>
        if c.isDigit then
          invocation.fail (Bytes.ofText "option used in invalid context -- " ++ Bytes.ofChars [c]) 1
        else tailWith invocation []
      | _ => tailWith invocation []
  | [] => tailWith invocation []

/-! `wc` -/

structure Counts where
  lines : Nat := 0
  words : Nat := 0
  bytes : Nat := 0
  longest : Nat := 0
  deriving Repr

namespace Counts

def add (a b : Counts) : Counts :=
  ⟨a.lines + b.lines, a.words + b.words, a.bytes + b.bytes, max a.longest b.longest⟩

structure Running where
  counts : Counts := {}
  inWord : Bool := false
  column : Nat := 0

def Running.endWord (running : Running) : Running :=
  { running with
    counts :=
      { running.counts with words := running.counts.words + (if running.inWord then 1 else 0) }
    inWord := false }

def Running.endLine (running : Running) : Running :=
  { running with
    counts := { running.counts with longest := max running.counts.longest running.column }
    column := 0 }

def Running.byte (running : Running) (b : UInt8) : Running :=
  let c := Char.ofNat b.toNat
  let running :=
    { running with counts := { running.counts with bytes := running.counts.bytes + 1 } }
  if c = '\n' then
    let running := running.endWord.endLine
    { running with counts := { running.counts with lines := running.counts.lines + 1 } }
  else if c = '\r' || c = '\x0c' then running.endWord.endLine
  else if c = '\t' then { running.endWord with column := running.column / 8 * 8 + 8 }
  else if c = ' ' then { running.endWord with column := running.column + 1 }
  else if c = '\x0b' then running.endWord
  else if Quote.isPrintable c then { running with inWord := true, column := running.column + 1 }
  else running

end Counts

structure Wanted where
  lines : Bool
  words : Bool
  chars : Bool
  bytes : Bool
  longest : Bool

namespace Wanted

def count (wanted : Wanted) : Nat :=
  [wanted.lines, wanted.words, wanted.chars, wanted.bytes, wanted.longest].countP id

def line (wanted : Wanted) (width : Nat) (counts : Counts) (name : Bytes) : Bytes :=
  let numbers :=
    [(wanted.lines, counts.lines), (wanted.words, counts.words), (wanted.chars, counts.bytes),
      (wanted.bytes, counts.bytes), (wanted.longest, counts.longest)]
  let texts := (numbers.filter Prod.fst).map fun (_, n) =>
    let digits := decimalChars n
    List.replicate (width - digits.length) ' ' ++ digits
  Bytes.ofChars ([' '].intercalate texts) ++
    (if name.isEmpty then [] else Bytes.ofText " " ++ name) ++ Bytes.ofText "\n"

end Wanted

def pageSize : Nat := 4096

/-- How many bytes are left in a file. Where its size tells, it is not read. -/
def countBytes (descriptor : Descriptor) : Steps (Except Errno Unit × Counts) := do
  let regular ←
    match ← Steps.ask (.describe descriptor), ← Steps.ask (.position descriptor) with
    | .ok status, .ok position =>
      pure (if status.kind = .regular then some (status.size, position) else none)
    | _, _ => pure none
  let readFrom (start : Nat) : Steps (Except Errno Unit × Counts) := do
    let (result, size) ←
      Steps.foldInput descriptor 16384 (fun size bytes => return size + bytes.length) patience start
    return (result, { bytes := size })
  match regular with
  | none => readFrom 0
  | some (size, position) =>
    if size % pageSize ≠ 0 then return (.ok (), { bytes := size - position })
    else
      let high := size - size % (pageSize + 1)
      if position < high then
        let _ ← Steps.ask (.seek descriptor (position + high))
        readFrom (high - position)
      else readFrom 0

def countFile (wanted : Wanted) (descriptor : Descriptor) : Steps (Except Errno Unit × Counts) := do
  if wanted.count = 1 && wanted.bytes then countBytes descriptor
  else
    let (result, running) ← Steps.foldInput descriptor 16384
      (fun (running : Counts.Running) bytes => return bytes.foldl Counts.Running.byte running)
      patience {}
    return (result, running.endWord.endLine.counts)

/-- How wide the columns are: as wide as the sum of the sizes of all files, and at least seven where
one of them has no size. -/
def columnWidth (wanted : Wanted) (paths : List Bytes) : Steps Nat := do
  if paths.length = 1 && wanted.count = 1 then return 1
  let mut total := 0
  let mut least := 1
  for path in paths do
    let status ← if path = hyphen then Steps.ask (.describe 0) else Steps.ask (.stat path true)
    match status with
    | .ok status => if status.kind = .regular then total := total + status.size else least := 7
    | .error _ => pure ()
  return max least (decimalChars total).length

def totalChoices : List (List String) := [["auto"], ["always"], ["only"], ["never"]]

/-- Print a line of `wc`, at once. An error at this point is told without its reason, unless there
is no output at all. -/
def printCounts (invocation : Invocation) (line : Bytes) : Steps Unit := do
  match ← Steps.ask (.write 1 line) with
  | .ok () => return ()
  | .error errno =>
    let reason := if errno = .badDescriptor then ": " ++ errno.systemText else ""
    invocation.complain (Bytes.ofText ("write error" ++ reason))
    let never ← Steps.ask (.exit 1)
    nomatch never

def wc (invocation : Invocation) : Steps Int :=
  withChecked invocation
    [{ key := 'c', word := "bytes" }, { key := 'm', word := "chars" },
      { key := 'l', word := "lines" },
      { key := 'w', word := "words" }, { key := 'L', word := "max-line-length" },
      { key := 't', word := "total", needs := .value, short := false }] true 1
    (fun given =>
      if given.key = 't' then objectToChoice invocation totalChoices "total" 1 given.value
      else none)
    fun parsed => do
    let all := !parsed.options.any fun given => given.key ≠ 't'
    let wanted : Wanted :=
      { lines := all || parsed.has 'l', words := all || parsed.has 'w', chars := parsed.has 'm',
        bytes := all || parsed.has 'c', longest := parsed.has 'L' }
    let sum := choose totalChoices ((parsed.value? 't').getD (Bytes.ofText "auto"))
    let paths := if parsed.operands.isEmpty then [hyphen] else parsed.operands
    let width ← if sum = .ok "only" then pure 1 else columnWidth wanted paths
    let mut total : Counts := {}
    let mut code : Int := 0
    for path in paths do
      let (name, shown) :=
        if parsed.operands.isEmpty then ([], (Bytes.ofText "standard input").shown)
        else if path.contains newline then (path.shown, path.shown)
        else (path, path.shown)
      if path.isEmpty then
        invocation.complain (Bytes.ofText "invalid zero-length file name")
        code := 1
      else
        match ← openInput path with
        | .error errno =>
          invocation.complain (shown ++ Bytes.ofText (": " ++ errno.systemText))
          code := 1
        | .ok descriptor =>
          let (result, counts) ← countFile wanted descriptor
          closeInput path descriptor
          if let .error errno := result then
            invocation.complain (shown ++ Bytes.ofText (": " ++ errno.systemText))
            code := 1
          total := total.add counts
          if sum ≠ .ok "only" then printCounts invocation (wanted.line width counts name)
    if sum = .ok "always" || (sum = .ok "auto" && 1 < paths.length) then
      printCounts invocation (wanted.line width total (Bytes.ofText "total"))
    if sum = .ok "only" then printCounts invocation (wanted.line width total [])
    closeStandardInput invocation paths "-" code

end CommandShell.Tool
