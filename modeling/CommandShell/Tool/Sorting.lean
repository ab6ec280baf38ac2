import CommandShell.Tool.Search

/-!
`sort`, which puts lines in order.
-/

namespace CommandShell.Tool

inductive Comparison where
  | bytes
  | numeric
  | general
  | human
  | month
  /-- Equal texts stand together. -/
  | grouped
  /-- By the numbers in them, as versions of a file are named. -/
  | version
  deriving DecidableEq, Repr

structure KeyStyle where
  asked : List Comparison := []
  reverse : Bool := false
  fold : Bool := false
  /-- Whether only blanks, letters and digits count. -/
  dictionary : Bool := false
  printable : Bool := false
  skipStart : Bool := false
  skipEnd : Bool := false
  deriving DecidableEq, Repr

def KeyStyle.comparison (style : KeyStyle) : Comparison :=
  ([Comparison.numeric, .general, .human, .month, .grouped, .version].find?
    style.asked.contains).getD .bytes

/-- A part of a line by which lines are compared, from a field and a character in it to another. -/
structure SortKey where
  startField : Nat := 0
  startChar : Nat := 0
  /-- The field and the character before which it ends; without a character the field belongs to
  it. -/
  stop : Option (Nat × Nat) := none
  style : KeyStyle := {}

structure SortStyle where
  keys : List SortKey
  whole : KeyStyle
  separator : Option Char
  stable : Bool
  unique : Bool

def isFieldBlank (c : Char) : Bool := c = ' ' || c = '\t' || c = '\n'

/-- What is left of a line behind so many fields. If fields end in a character, `beyond` says
whether the one behind the last of them belongs to it. -/
def dropFields (separator : Option Char) (beyond : Bool) : Nat → List Char → List Char
  | 0, chars => chars
  | fields + 1, chars =>
    match separator with
    | some mark =>
      let rest := chars.dropWhile (· ≠ mark)
      if fields = 0 && !beyond then rest else dropFields separator beyond fields (rest.drop 1)
    | none =>
      dropFields separator beyond fields ((chars.dropWhile isFieldBlank).dropWhile fun c =>
        !isFieldBlank c)

def SortKey.part (separator : Option Char) (key : SortKey) (line : List Char) : List Char :=
  let start := dropFields separator true key.startField line
  let start := if key.style.skipStart then start.dropWhile isFieldBlank else start
  let start := start.drop key.startChar
  match key.stop with
  | none => start
  | some (field, char) =>
    let rest :=
      if char = 0 then dropFields separator false (field + 1) line
      else
        let rest := dropFields separator true field line
        let rest := if key.style.skipEnd then rest.dropWhile isFieldBlank else rest
        rest.drop char
    start.take (start.length - rest.length)

def compareChars : List Char → List Char → Ordering
  | [], [] => .eq
  | [], _ => .lt
  | _, [] => .gt
  | a :: as, b :: bs => if a = b then compareChars as bs else if a < b then .lt else .gt

/-- The number that a text starts with, as a whole number of parts of which so many digits make
one. -/
def numericValue (chars : List Char) : Int × Nat :=
  let chars := chars.dropWhile isFieldBlank
  let (negative, digits) :=
    match chars with
    | '-' :: rest => (true, rest)
    | _ => (false, chars)
  let whole := digits.takeWhile Char.isDigit
  let rest := digits.drop whole.length
  let part := if rest.head? = some '.' then (rest.drop 1).takeWhile Char.isDigit else []
  let value : Int := valueOf 10 (whole ++ part)
  (if negative then -value else value, part.length)

def compareNumeric (a b : Int × Nat) : Ordering :=
  compare (a.1 * Nat.pow 10 b.2) (b.1 * Nat.pow 10 a.2)

def humanUnit (chars : List Char) : Nat :=
  let chars := chars.dropWhile isFieldBlank
  let digits := if chars.head? = some '-' then chars.drop 1 else chars
  match (digits.dropWhile fun c => c.isDigit || c = '.').head? with
  | some c => if c = 'm' then 0 else (unitPower? c).getD 0
  | none => 0

/-- The order of two numbers with units: a greater unit is more. -/
def compareHuman (a b : List Char) : Ordering :=
  let rank (chars : List Char) : Int :=
    let value := (numericValue chars).1
    if value = 0 then 0
    else if value < 0 then -((humanUnit chars : Int) + 1) else (humanUnit chars : Int) + 1
  (compare (rank a) (rank b)).then (compareNumeric (numericValue a) (numericValue b))

def monthRank (chars : List Char) : Nat :=
  let name := String.ofList (((chars.dropWhile isFieldBlank).take 3).map Char.toUpper)
  (["JAN", "FEB", "MAR", "APR", "MAY", "JUN", "JUL", "AUG", "SEP", "OCT", "NOV", "DEC"].findIdx?
    (· = name)
    |>.map (· + 1)).getD 0

/-- The order of two numbers with fractions: what is no number comes first. -/
def compareGeneral (a b : List Char) : Ordering :=
  let rank (chars : List Char) : Nat × Int × Nat :=
    match measure? chars with
    | none => (0, 0, 1)
    | some (.undefined, _) => (1, 0, 1)
    | some (.infinite true, _) => (2, 0, 1)
    | some (.finite numerator denominator, _) => (3, numerator, denominator)
    | some (.infinite false, _) => (4, 0, 1)
  let (x, n, d) := rank a
  let (y, m, e) := rank b
  (compare x y).then (compare (n * (e : Int)) (m * (d : Int)))

/-- How a character that is no digit is ranked in the name of a version; the end comes before all
but a tilde. -/
def versionRank : List Char → Int
  | [] => -1
  | c :: _ =>
    if c.isDigit then 0 else if c.isAlpha then c.toNat else if c = '~' then -2 else c.toNat + 256

/-- The order of the starts of two texts up to a digit, and what is left of them if they are
equal. -/
def compareWords : Nat → List Char → List Char → Ordering × List Char × List Char
  | 0, a, b => (.eq, a, b)
  | steps + 1, a, b =>
    let digitNext (chars : List Char) : Bool := chars.head?.all Char.isDigit
    if digitNext a && digitNext b then (.eq, a, b)
    else if versionRank a = versionRank b then compareWords steps (a.drop 1) (b.drop 1)
    else (compare (versionRank a) (versionRank b), a, b)

/-- The order of two texts by words and numbers in turn, in so many turns at most. -/
def compareTurns : Nat → List Char → List Char → Ordering
  | 0, _, _ => .eq
  | turns + 1, a, b =>
    if a.isEmpty && b.isEmpty then .eq
    else
      match compareWords (a.length + b.length) a b with
      | (.eq, a, b) =>
        let numberOf (chars : List Char) : Nat := valueOf 10 (chars.takeWhile Char.isDigit)
        match compare (numberOf a) (numberOf b) with
        | .eq => compareTurns turns (a.dropWhile Char.isDigit) (b.dropWhile Char.isDigit)
        | order => order
      | (order, _, _) => order

/-- The length of a name without the endings that start with a point and a letter, where so much of
it was seen and may end before here. -/
def stemLength : Nat → Nat → List Char → Nat
  | 0, _, _ => 0
  | steps + 1, seen, chars =>
    match chars with
    | [] => seen
    | _ :: rest =>
      let behind := endings rest.length rest
      if behind.isEmpty then seen + 1
      else stemLength steps (seen + chars.length - behind.length) behind
where
  endings : Nat → List Char → List Char
    | 0, chars => chars
    | steps + 1, chars =>
      match chars with
      | '.' :: c :: rest =>
        if c.isAlpha || c = '~' then endings steps (rest.dropWhile fun c => c.isAlphanum || c = '~')
        else chars
      | _ => chars

def compareVersions (a b : List Char) : Ordering :=
  let rank (chars : List Char) : Nat :=
    match chars with
    | [] => 0
    | ['.'] => 1
    | ['.', '.'] => 2
    | '.' :: _ => 3
    | _ => 4
  match compare (rank a) (rank b) with
  | .eq =>
    let stem (chars : List Char) := chars.take (stemLength (chars.length + 1) 0 chars)
    let turns := a.length + b.length
    (compareTurns turns (stem a) (stem b)).then (compareTurns turns a b)
  | order => order

def KeyStyle.relevant (style : KeyStyle) (chars : List Char) : List Char :=
  let chars := chars.filter fun c =>
    (!style.dictionary || isFieldBlank c || c.isAlphanum) &&
      (!style.printable || isInClass "print" c)
  if style.fold then chars.map Char.toUpper else chars

def KeyStyle.compare (style : KeyStyle) (a b : List Char) : Ordering :=
  let order :=
    match style.comparison with
    | .bytes => compareChars (style.relevant a) (style.relevant b)
    | .numeric => compareNumeric (numericValue a) (numericValue b)
    | .general => compareGeneral a b
    | .human => compareHuman a b
    | .month => Ord.compare (monthRank a) (monthRank b)
    | .grouped => compareChars (style.relevant a) (style.relevant b)
    | .version => compareVersions (style.relevant a) (style.relevant b)
  if style.reverse then order.swap else order

def SortStyle.compareKeys (style : SortStyle) (a b : List Char) : Ordering :=
  style.keys.foldl (fun order key =>
    order.then (key.style.compare (key.part style.separator a) (key.part style.separator b))) .eq

def SortStyle.compare (style : SortStyle) (a b : List Char) : Ordering :=
  let order := style.compareKeys a b
  if style.stable || style.unique then order
  else
    order.then (if style.whole.reverse then (compareChars a b).swap else compareChars a b)

def SortStyle.sorted (style : SortStyle) (lines : List (List Char)) : List (List Char) :=
  lines.mergeSort fun a b => style.compare a b != .gt

def SortStyle.distinct (style : SortStyle) (last : Option (List Char)) :
    List (List Char) → List (List Char)
  | [] => []
  | line :: rest =>
    if last.any fun other => style.compareKeys other line = .eq then style.distinct last rest
    else line :: style.distinct (some line) rest

/-- Take the first of the first lines of some lists, again and again. -/
def SortStyle.merged (style : SortStyle) : Nat → List (List (List Char)) → List (List Char)
  | 0, _ => []
  | steps + 1, lists =>
    let heads := lists.zipIdx.filterMap fun (lines, i) => lines.head?.map fun line => (line, i)
    match heads with
    | [] => []
    | first :: others =>
      let (line, i) := others.foldl (fun best other =>
        if style.compare best.1 other.1 = .gt then other else best) first
      line :: style.merged steps (lists.modify i (List.drop 1))

def SortStyle.disorder? (style : SortStyle) (number : Nat) (last : Option (List Char)) :
    List (List Char) → Option (Nat × List Char)
  | [] => none
  | line :: rest =>
    let wrong := last.any fun other =>
      let order := style.compare other line
      order = .gt || (style.unique && order = .eq)
    if wrong then some (number, line) else style.disorder? (number + 1) (some line) rest

/-! Keys in arguments -/

def KeyStyle.ask (style : KeyStyle) (comparison : Comparison) : KeyStyle :=
  { style with asked := style.asked ++ [comparison] }

def KeyStyle.letter? (style : KeyStyle) (atStart atEnd : Bool) (c : Char) : Option KeyStyle :=
  match c with
  | 'b' =>
    some { style with skipStart := style.skipStart || atStart, skipEnd := style.skipEnd || atEnd }
  | 'd' => some { style with dictionary := true }
  | 'f' => some { style with fold := true }
  | 'g' => some (style.ask .general)
  | 'h' => some (style.ask .human)
  | 'i' => some { style with printable := true }
  | 'M' => some (style.ask .month)
  | 'n' => some (style.ask .numeric)
  | 'r' => some { style with reverse := true }
  | 'R' => some (style.ask .grouped)
  | 'V' => some (style.ask .version)
  | _ => none

/-- Letters that say how a key is compared, as far as they go. -/
def KeyStyle.letters (style : KeyStyle) (atStart atEnd : Bool) : List Char → KeyStyle × List Char
  | [] => (style, [])
  | c :: rest =>
    match style.letter? atStart atEnd c with
    | some style => style.letters atStart atEnd rest
    | none => (style, c :: rest)

def keyNumber (place : String) (chars : List Char) : Except Bytes (Nat × List Char) :=
  let digits := chars.takeWhile Char.isDigit
  if digits.isEmpty then
    .error (Bytes.ofText (place ++ ": invalid count at start of ") ++ (Bytes.ofChars chars).quoted)
  else .ok (valueOf 10 digits, chars.drop digits.length)

def SortKey.read (spec : Bytes) : Except Bytes SortKey := do
  let wrong {α : Type} (message : String) : Except Bytes α :=
    .error (Bytes.ofText (message ++ ": invalid field specification ") ++ spec.quoted)
  let (field, rest) ← keyNumber "invalid number at field start" spec.toChars
  if field = 0 then wrong "field number is zero"
  let (char, rest) ←
    match rest with
    | '.' :: rest => do
      let (char, rest) ← keyNumber "invalid number after '.'" rest
      if char = 0 then wrong "character offset is zero"
      pure (char - 1, rest)
    | _ => pure (0, rest)
  let (style, rest) := KeyStyle.letters {} true false rest
  match rest with
  | [] => return { startField := field - 1, startChar := char, style }
  | ',' :: rest => do
    let (last, rest) ← keyNumber "invalid number after ','" rest
    if last = 0 then wrong "field number is zero"
    let (lastChar, rest) ←
      match rest with
      | '.' :: rest => keyNumber "invalid number after '.'" rest
      | _ => pure (0, rest)
    let (style, rest) := style.letters false true rest
    if !rest.isEmpty then wrong "stray character in field spec"
    return { startField := field - 1, startChar := char, stop := some (last - 1, lastChar), style }
  | _ => wrong "stray character in field spec"

/-! The program -/

def linesOf (lineEnd : UInt8) (bytes : Bytes) : List (List Char) :=
  let (lines, last) := SearchState.splitLines lineEnd [] [] bytes
  (if last.isEmpty then lines else lines ++ [last]).map Bytes.toChars

def sortInputs (invocation : Invocation) (lineEnd : UInt8) :
    List Bytes → Steps (Option (List (List (List Char))))
  | [] => return some []
  | path :: rest => do
    match ← openInput path with
    | .error errno =>
      invocation.complain
        (Bytes.ofText "open failed: " ++ path.shown ++ Bytes.ofText (": " ++ errno.systemText))
      return none
    | .ok descriptor =>
      let (result, bytes) ← Steps.readToEnd descriptor
      closeInput path descriptor
      match result with
      | .error errno =>
        invocation.complain (Bytes.ofText "read failed: " ++ path.shown ++
          Bytes.ofText (": " ++ errno.systemText))
        return none
      | .ok () =>
        match ← sortInputs invocation lineEnd rest with
        | some others => return some (linesOf lineEnd bytes :: others)
        | none => return none

def unreadable? : List Bytes → Steps (Option (Bytes × Errno))
  | [] => return none
  | path :: rest => do
    if path = hyphen then unreadable? rest
    else
      match ← Steps.ask (.stat path true) with
      | .ok _ => unreadable? rest
      | .error errno => return some (path, errno)

/-- What is wrong with ways to compare that are asked for together: all but the last two of them and
restrictions on what counts exclude each other. -/
def sortConflict? (styles : List KeyStyle) : Option String :=
  styles.findSome? fun style =>
    let asks (comparison : Comparison) : Bool := style.asked.contains comparison
    let restricted := style.dictionary || style.printable
    let ways :=
      [asks .numeric, asks .general, asks .human, asks .month,
        asks .version || asks .grouped || restricted]
    if 1 < ways.countP id then
      let letters :=
        [(style.dictionary, "d"), (style.fold, "f"), (asks .general, "g"), (asks .human, "h"),
          (style.printable && !style.dictionary, "i"), (asks .month, "M"), (asks .numeric, "n"),
          (asks .grouped, "R"), (asks .version, "V")]
      let given := String.join ((letters.filter Prod.fst).map Prod.snd)
      some ("options '-" ++ given ++ "' are incompatible")
    else none

def sortOutput (invocation : Invocation) (target : Option Bytes) (bytes : Bytes) : Steps Int := do
  let write (name : Bytes) (descriptor : Descriptor) : Steps Int := do
    if bytes.isEmpty then return 0
    match ← Steps.ask (.write descriptor bytes) with
    | .ok () => return 0
    | .error errno =>
      invocation.complain
        (Bytes.ofText "fflush failed: " ++ name ++ Bytes.ofText (": " ++ errno.systemText))
      invocation.fail (Bytes.ofText "write error") 2
  match target with
  | none => write (Bytes.ofText "standard output").shown 1
  | some path =>
    match ← Steps.ask (.open path { writable := true, create := true, truncate := true }) with
    | .error errno =>
      invocation.fail
        (Bytes.ofText "open failed: " ++ path.shown ++ Bytes.ofText (": " ++ errno.systemText)) 2
    | .ok descriptor => write path.shown descriptor

def sortWith (invocation : Invocation) (parsed : Parsed) (style : SortStyle) : Steps Int := do
  let lineEnd : UInt8 := if parsed.has 'z' then 0 else newline
  let paths := if parsed.operands.isEmpty then [hyphen] else parsed.operands
  let checking := parsed.has 'c' || parsed.has 'C'
  let target := parsed.value? 'o'
  if checking && target.isSome then
    let letter := if parsed.has 'c' then "c" else "C"
    return ← invocation.fail (Bytes.ofText ("options '-" ++ letter ++ "o' are incompatible")) 2
  if checking && 1 < paths.length then
    let letter := if parsed.has 'c' then "c" else "C"
    return ← invocation.fail (Bytes.ofText "extra operand " ++ (paths.getD 1 []).quoted ++
      Bytes.ofText (" not allowed with -" ++ letter)) 2
  if let some (path, errno) ← unreadable? paths then
    if !checking then
      return ← invocation.fail (Bytes.ofText "cannot read: " ++ path.shown ++
        Bytes.ofText (": " ++ errno.systemText)) 2
  if let some path := target then
    match ← Steps.ask (.open path { writable := true, create := true }) with
    | .ok descriptor =>
      let _ ← Steps.ask (.close descriptor)
    | .error errno =>
      return ← invocation.fail (Bytes.ofText "open failed: " ++ path.shown ++
        Bytes.ofText (": " ++ errno.systemText)) 2
  if !checking && !parsed.has 'm' && paths.contains hyphen then
    if let .error errno ← Steps.ask (.describe 0) then
      return ← invocation.fail (Bytes.ofText ("stat failed: -: " ++ errno.systemText)) 2
  match ← sortInputs invocation lineEnd paths with
  | none => return 2
  | some inputs =>
    let lines := inputs.flatten
    if checking then
      match style.disorder? 1 none lines with
      | none => return 0
      | some (number, line) =>
        if parsed.has 'c' then
          invocation.complain ((paths.headD hyphen).shown ++ Bytes.ofText ":" ++ decimal number ++
            Bytes.ofText ": disorder: " ++ Bytes.ofChars line)
        return 1
    else
      let ordered :=
        if parsed.has 'm' then style.merged (lines.length + 1) inputs else style.sorted lines
      let ordered := if style.unique then style.distinct none ordered else ordered
      sortOutput invocation target
        (ordered.flatMap fun line => Bytes.ofChars line ++ [lineEnd])

def sortRules : List OptionRule :=
  [{ key := 'b', word := "ignore-leading-blanks" }, { key := 'd', word := "dictionary-order" },
    { key := 'f', word := "ignore-case" }, { key := 'g', word := "general-numeric-sort" },
    { key := 'h', word := "human-numeric-sort" }, { key := 'i', word := "ignore-nonprinting" },
    { key := 'M', word := "month-sort" }, { key := 'n', word := "numeric-sort" },
    { key := 'R', word := "random-sort" }, { key := 'r', word := "reverse" },
    { key := 'V', word := "version-sort" }, { key := 'c' }, { key := 'C' },
    { key := 'k', word := "key", needs := .value }, { key := 'm', word := "merge" },
    { key := 'o', word := "output", needs := .value }, { key := 's', word := "stable" },
    { key := 'S', word := "buffer-size", needs := .value },
    { key := 't', word := "field-separator", needs := .value },
    { key := 'T', word := "temporary-directory", needs := .value },
    { key := 'u', word := "unique" }, { key := 'y', needs := .value },
    { key := 'z', word := "zero-terminated" },
    { key := '1', word := "parallel", needs := .value, short := false },
    { key := '2', word := "sort", needs := .value, short := false },
    { key := '3', word := "check", needs := .maybe, short := false },
    { key := '4', word := "compress-program", needs := .value, short := false },
    { key := '5', word := "random-source", needs := .value, short := false }]

def sortChoices : List (List String) :=
  [["general-numeric"], ["human-numeric"], ["month"], ["numeric"], ["random"], ["version"]]

def checkChoices : List (List String) := [["quiet", "silent"], ["diagnose-first"]]

/-- Options that are words with a value, as the letters that mean the same. -/
def Given.asLetter (given : Given) : Given :=
  match given.key with
  | '2' =>
    match choose sortChoices given.value with
    | .ok "general-numeric" => ⟨'g', []⟩
    | .ok "human-numeric" => ⟨'h', []⟩
    | .ok "month" => ⟨'M', []⟩
    | .ok "numeric" => ⟨'n', []⟩
    | .ok "random" => ⟨'R', []⟩
    | .ok _ => ⟨'V', []⟩
    | _ => given
  | '3' =>
    if given.value.isEmpty then ⟨'c', []⟩
    else
      match choose checkChoices given.value with
      | .ok "quiet" => ⟨'C', []⟩
      | .ok _ => ⟨'c', []⟩
      | _ => given
  | _ => given

def fieldMark (value : Bytes) : Except Bytes Char :=
  match value.toChars with
  | [] => .error (Bytes.ofText "empty tab")
  | [c] => .ok c
  | ['\\', '0'] => .ok '\x00'
  | _ => .error (Bytes.ofText "multi-character tab " ++ value.quoted)

/-- What is wrong with a number that says how much is used of something. -/
def resourceFault? (option : String) (units : Bool) (value : Bytes) : Option Bytes :=
  let number := leading (some 10) value.toChars
  let invalid := Bytes.ofText ("invalid " ++ option ++ " argument ") ++ value.plainQuoted
  if !number.found || (value.toChars.dropWhile isSpace).head? = some '-' then some invalid
  else
    let suffix := Bytes.ofText ("invalid suffix in " ++ option ++ " argument ") ++ value.plainQuoted
    if !units then
      if !number.rest.isEmpty then some suffix
      else if number.value = 0 then some (Bytes.ofText "number in parallel must be nonzero")
      else none
    else
      match number.rest with
      | ['%'] => none
      | ['b'] => none
      | [] => none
      | [c] =>
        match unitPower? c with
        | some power =>
          if amountLimit ≤ number.value.toNat * Nat.pow 1024 power then
            some (Bytes.ofText (option ++ " argument ") ++ value.plainQuoted ++
              Bytes.ofText " too large")
          else none
        | none => some suffix
      | _ => some suffix

def sortFault? (before : List Given) (given : Given) : Option Bytes :=
  let earlier (key : Char) : Option Bytes :=
    ((before.filter fun other => other.key = key).getLast?).map Given.value
  match given.key with
  | 'k' => match SortKey.read given.value with | .ok _ => none | .error message => some message
  | 't' =>
    match fieldMark given.value with
    | .error message => some message
    | .ok mark =>
      match (earlier 't').map fieldMark with
      | some (.ok other) => if other = mark then none else some (Bytes.ofText "incompatible tabs")
      | _ => none
  | 'o' =>
    if (earlier 'o').any (· ≠ given.value) then
      some (Bytes.ofText "multiple output files specified")
    else none
  | 'S' => resourceFault? "-S" true given.value
  | '1' => resourceFault? "--parallel" false given.value
  | 'c' =>
      if (earlier 'C').isSome then some (Bytes.ofText "options '-cC' are incompatible") else none
  | 'C' =>
      if (earlier 'c').isSome then some (Bytes.ofText "options '-cC' are incompatible") else none
  | _ => none

def sortObjection? (invocation : Invocation) (before : List Given) : List Given → Option (Steps Int)
  | [] => none
  | given :: rest =>
    let wrongWord :=
      if given.key = '2' then objectToChoice invocation sortChoices "sort" 1 given.value
      else if given.key = '3' && !given.value.isEmpty then
        objectToChoice invocation checkChoices "check" 1 given.value
      else none
    match wrongWord, sortFault? before given.asLetter with
    | some objection, _ => some objection
    | none, some message => some (invocation.fail message 2)
    | none, none => sortObjection? invocation (before ++ [given.asLetter]) rest

/-- A place of a key that is counted from zero: a field, a character if there is one, and
letters. -/
def oldPlace? (chars : List Char) : Option (Nat × Option Nat × List Char) :=
  let field := chars.takeWhile Char.isDigit
  if field.isEmpty then none
  else
    let rest := chars.drop field.length
    let (char, rest) : Option Nat × List Char :=
      match rest with
      | '.' :: behind =>
        let digits := behind.takeWhile Char.isDigit
        if digits.isEmpty then (none, rest)
        else (some (valueOf 10 digits), behind.drop digits.length)
      | _ => (none, rest)
    if (KeyStyle.letters {} true true rest).2.isEmpty then some (valueOf 10 field, char, rest)
    else none

/-- Write keys of the form `+1.2 -3.4`, which count from zero, in the usual form. -/
def withUsualKeys : List Bytes → List Bytes
  | [] => []
  | argument :: rest =>
    match argument.toChars with
    | ['-', '-'] => argument :: rest
    | '+' :: chars =>
      match oldPlace? chars with
      | none => argument :: withUsualKeys rest
      | some (field, char, letters) =>
        let start := decimalChars (field + 1) ++
          (match char with | some n => '.' :: decimalChars (n + 1) | none => []) ++ letters
        let key (stop : List Char) : Bytes := Bytes.ofChars (['-', 'k'] ++ start ++ stop)
        match rest with
        | [] => [key []]
        | next :: others =>
          match next.toChars with
          | '-' :: chars =>
            match oldPlace? chars with
            | some (field, char, letters) =>
              let stop :=
                match char with
                | some (n + 1) => decimalChars (field + 1) ++ '.' :: decimalChars (n + 1)
                | _ => decimalChars (max field 1)
              key (',' :: stop ++ letters) :: withUsualKeys others
            | none => key [] :: withUsualKeys (next :: others)
          | _ => key [] :: withUsualKeys (next :: others)
    | '-' :: chars =>
      if ['k', 'o', 't', 'S', 'T', 'y'].any fun c => chars.getLast? = some c then
        match rest with
        | value :: others => argument :: value :: withUsualKeys others
        | [] => [argument]
      else argument :: withUsualKeys rest
    | _ => argument :: withUsualKeys rest
  termination_by arguments => arguments.length

def sortStyle (parsed : Parsed) : Except Bytes SortStyle := do
  let values (key : Char) : List Bytes :=
    (parsed.options.filter fun given => given.key = key).map Given.value
  let whole := parsed.options.foldl (fun (style : KeyStyle) given =>
    (style.letter? true true given.key).getD style) {}
  let keys ← (values 'k').mapM SortKey.read
  let separator ← ((values 't').getLast?).mapM fieldMark
  let keys := keys.map fun key => if key.style = {} then { key with style := whole } else key
  let plain : KeyStyle := { reverse := whole.reverse }
  let keys := if keys.isEmpty && whole ≠ plain then [{ style := whole }] else keys
  if let some message := sortConflict? (keys.map SortKey.style) then .error (Bytes.ofText message)
  let unordered := keys.isEmpty
  let keys := if unordered && parsed.has 'u' then [{ style := whole }] else keys
  return {
    keys, whole, separator, stable := parsed.has 's' && !unordered, unique := parsed.has 'u' }

def sort (invocation : Invocation) : Steps Int :=
  match parseFrom (sortRules ++ standardRules) true {} 0 (withUsualKeys invocation.arguments) with
  | .error misread =>
    (sortObjection? invocation [] misread.before.options).getD (invocation.misuse misread.message 2)
  | .ok parsed =>
    (sortObjection? invocation [] parsed.options).getD
      (let parsed := { parsed with options := parsed.options.map Given.asLetter }
      match sortStyle parsed with
      | .error message => invocation.fail message 2
      | .ok style => sortWith invocation parsed style)

end CommandShell.Tool
