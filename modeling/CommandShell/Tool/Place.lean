import CommandShell.Tool.Basic
import CommandShell.Tool.Number

/-!
Programs about directories, files and time: `pwd`, `touch`, `mkdir`, `rmdir`, `ln` and `sleep`.
-/

namespace CommandShell.Tool

/-- Whether a path leads to the current directory and has no dots in it. -/
def isCurrent (path : Bytes) : Steps Bool := do
  let parts := Bytes.split '/' path
  if path.head? ≠ some (Bytes.byte '/') || parts.any
    (fun part => part = Files.dot || part = Files.dotDot) then
    return false
  match ← Steps.ask (.stat path true), ← Steps.ask (.stat Files.dot true) with
  | .ok there, .ok here => return there.inode = here.inode
  | _, _ => return false

def pwd (invocation : Invocation) : Steps Int :=
  withOptions invocation
    [{ key := 'L', word := "logical" }, { key := 'P', word := "physical" }] true 1 fun parsed => do
    if !parsed.operands.isEmpty then
      invocation.complain (Bytes.ofText "ignoring non-option arguments")
    let logical := (parsed.options.getLast?.map Given.key) = some 'L'
    let named := invocation.environment.findSome? fun record =>
      if (Bytes.ofText "PWD=").isPrefixOf record then some (record.drop 4) else none
    let known ←
      match named with
      | some path => if logical && (← isCurrent path) then pure (some path) else pure none
      | none => pure none
    match known with
    | some path =>
      invocation.print (path ++ Bytes.ofText "\n")
      return 0
    | none =>
      match ← Steps.ask .currentDirectory with
      | .ok path =>
        invocation.print (path ++ Bytes.ofText "\n")
        return 0
      | .error _ =>
        invocation.fail (Bytes.ofText "couldn't find directory entry in '..' with matching i-node")
          1

def refuse (invocation : Invocation) (what : String) (path : Bytes) (errno : Errno) : Steps Int :=
  invocation.fail
    (Bytes.ofText (what ++ " ") ++ path.quoted ++ Bytes.ofText (": " ++ errno.systemText)) 1

def touchPath (invocation : Invocation) (create follow : Bool) (path : Bytes) : Steps Int := do
  if path = hyphen then return 0
  let opened ←
    if create && follow then Steps.ask (.open path { writable := true, create := true })
    else pure (.error .noEntry)
  match opened with
  | .ok descriptor =>
    let _ ← Steps.ask (.close descriptor)
    return 0
  | .error reason =>
    match ← Steps.ask (.stat path follow) with
    | .ok _ => return 0
    | .error errno =>
      if !create then
        if errno = .noEntry then return 0 else refuse invocation "setting times of" path errno
      else if !follow || reason = .isDirectory then refuse invocation "setting times of" path errno
      else refuse invocation "cannot touch" path reason

/-- How many days a month has, at most if the year is not known. -/
def monthLength (year : Option Nat) (month : Nat) : Nat :=
  let isLong (year : Nat) : Bool := year % 4 = 0 && (year % 100 ≠ 0 || year % 400 = 0)
  if month = 2 then if year.all isLong then 29 else 28
  else if [4, 6, 9, 11].contains month then 30
  else 31

/-- Whether a text is a time: a year or none, month, day, hour and minute, and seconds behind a
point or none, all in two digits, but a year may have four. -/
def isTime (chars : List Char) : Bool :=
  let digits := chars.takeWhile (· ≠ '.')
  let seconds := chars.drop digits.length
  let year : Option Nat :=
    match digits.length with
    | 12 => some (valueOf 10 (digits.take 4))
    | 10 => some (valueOf 10 (digits.take 2) + (if valueOf 10 (digits.take 2) < 69 then 2000
        else 1900))
    | _ => none
  let part (index : Nat) : Nat := valueOf 10 ((digits.drop (digits.length - 8 + 2 * index)).take 2)
  [8, 10, 12].contains digits.length && digits.all Char.isDigit && 1 ≤ part 0 && part 0 ≤ 12 &&
    1 ≤ part 1 && part 1 ≤ monthLength year (part 0) && part 2 < 24 && part 3 < 60 &&
    match seconds with
    | [] => true
    | [_, a, b] => a.isDigit && b.isDigit && valueOf 10 [a, b] ≤ 60
    | _ => false

def timeChoices : List (List String) := [["atime", "access", "use"], ["mtime", "modify"]]

def touch (invocation : Invocation) : Steps Int :=
  withChecked invocation
    [{ key := 'a' }, { key := 'c', word := "no-create" },
      { key := 'd', word := "date", needs := .value },
      { key := 'f' }, { key := 'h', word := "no-dereference" }, { key := 'm' },
      { key := 'r', word := "reference", needs := .value }, { key := 't', needs := .value },
      { key := '1', word := "time", needs := .value, short := false }] true 1
    (fun given =>
      if given.key = 't' && !isTime given.value.toChars then
        some (invocation.fail (Bytes.ofText "invalid date format " ++ given.value.plainQuoted) 1)
      else if given.key = '1' then objectToChoice invocation timeChoices "time" 1 given.value
      else none)
    fun parsed => do
    if parsed.has 't' && (parsed.has 'r' || parsed.has 'd') then
      return ← invocation.misuse (Bytes.ofText "cannot specify times from more than one source") 1
    if let some path := parsed.value? 'r' then
      if let .error errno ← Steps.ask (.stat path (!parsed.has 'h')) then
        return ← refuse invocation "failed to get attributes of" path errno
    if parsed.operands.isEmpty then invocation.misuse (Bytes.ofText "missing file operand") 1
    else Steps.forEach (touchPath invocation (!parsed.has 'c') (!parsed.has 'h')) parsed.operands

/-- The directories on the way to a path, the first one first, and the path itself. -/
def stages (path : Bytes) : List Bytes :=
  let parts := Bytes.split '/' path
  let count := parts.length
  ((List.range count).map fun i => [Bytes.byte '/'].intercalate (parts.take (i + 1))).filter
    fun stage => !stage.isEmpty

/-- Make a directory and those on the way to it that are missing. -/
def makeStages (invocation : Invocation) : List Bytes → Steps Int
  | [] => return 0
  | stage :: rest => do
    match ← Steps.ask (.makeDirectory stage) with
    | .ok () => makeStages invocation rest
    | .error errno =>
      match ← Steps.ask (.stat stage true) with
      | .ok status =>
        if status.kind = .directory then makeStages invocation rest
        else
          refuse invocation "cannot create directory" stage
            (if rest.isEmpty then .alreadyExists else .notDirectory)
      | .error _ => refuse invocation "cannot create directory" stage errno

def mkdir (invocation : Invocation) : Steps Int :=
  withOptions invocation
    [{ key := 'p', word := "parents" }, { key := 'm', word := "mode", needs := .value },
      { key := 'v', word := "verbose" }] true 1 fun parsed => do
    if parsed.operands.isEmpty then invocation.misuse (Bytes.ofText "missing operand") 1
    else
      Steps.forEach (fun path => do
        if parsed.has 'p' then makeStages invocation (stages path)
        else
          match ← Steps.ask (.makeDirectory path) with
          | .ok () =>
            if parsed.has 'v' then
              invocation.print (invocation.name ++ Bytes.ofText ": created directory " ++
                path.quoted ++ Bytes.ofText "\n")
            return 0
          | .error errno => refuse invocation "cannot create directory" path errno) parsed.operands

def withoutSlashes (path : Bytes) : Bytes :=
  let cut := (path.reverse.dropWhile (· = Bytes.byte '/')).reverse
  if cut.isEmpty then path.take 1 else cut

/-- Say why a directory could not be removed. That links are not followed is said of one that leads
to a directory, if a slash stands behind its name. -/
def refuseRemoval (invocation : Invocation) (path : Bytes) (errno : Errno) : Steps Int := do
  let linked ←
    if errno = .notDirectory && Files.endsInSlash path then do
      let behind ←
        match ← Steps.ask (.stat path true) with
        | .ok status => pure (status.kind = .directory : Bool)
        | .error errno => pure (errno ≠ .notDirectory : Bool)
      if behind then
        match ← Steps.ask (.stat (withoutSlashes path) false) with
        | .ok status => pure (status.kind = .link : Bool)
        | .error _ => pure false
      else pure false
    else pure false
  if linked then
    invocation.fail (Bytes.ofText "failed to remove " ++ path.quoted ++
      Bytes.ofText ": Symbolic link not followed") 1
  else refuse invocation "failed to remove" path errno

def removeParents (invocation : Invocation) (path : Bytes) : Nat → Steps Int
  | 0 => return 0
  | steps + 1 => do
    let path := withoutSlashes path
    if !path.contains (Bytes.byte '/') then return 0
    let parent := (path.reverse.dropWhile (· ≠ Bytes.byte '/')).reverse
    let parent := withoutSlashes parent
    if parent = Bytes.ofText "/" then return 0
    match ← Steps.ask (.removeDirectory parent) with
    | .ok () => removeParents invocation parent steps
    | .error errno => refuse invocation "failed to remove directory" parent errno

def rmdir (invocation : Invocation) : Steps Int :=
  withOptions invocation
    [{ key := 'p', word := "parents" }, { key := 'v', word := "verbose" },
      { key := 'i', word := "ignore-fail-on-non-empty", short := false }] true 1 fun parsed => do
    if parsed.operands.isEmpty then invocation.misuse (Bytes.ofText "missing operand") 1
    else
      Steps.forEach (fun path => do
        if parsed.has 'v' then
          invocation.print (invocation.name ++ Bytes.ofText ": removing directory, " ++
            path.quoted ++ Bytes.ofText "\n")
        match ← Steps.ask (.removeDirectory path) with
        | .ok () => if parsed.has 'p' then removeParents invocation path path.length else return 0
        | .error errno =>
          if parsed.has 'i' && errno = .notEmpty then return 0
          else refuseRemoval invocation path errno) parsed.operands

def ln (invocation : Invocation) : Steps Int :=
  withOptions invocation [{ key := 's', word := "symbolic" }] true 1 fun parsed => do
    match parsed.operands with
    | [target, path] =>
      let inside ← Steps.ask (.stat path true)
      let path :=
        match inside with
        | .ok status =>
          if status.kind = .directory then
            withoutSlashes path ++ Bytes.ofText "/" ++
              (Bytes.split '/' (withoutSlashes target)).getLastD []
          else path
        | .error _ => path
      match ← Steps.ask (.makeLink target path) with
      | .ok () => return 0
      | .error errno => refuse invocation "failed to create symbolic link" path errno
    | _ => invocation.misuse (Bytes.ofText "missing file operand") 1

def unitSeconds? : List Char → Option Nat
  | [] => some 1
  | ['s'] => some 1
  | ['m'] => some 60
  | ['h'] => some 3600
  | ['d'] => some 86400
  | _ => none

/-- A time in nanoseconds: a number, and a letter for its unit. -/
def nanoseconds? (argument : Bytes) : Option Nat :=
  match measure? argument.toChars with
  | none => none
  | some (value, rest) =>
    match value, unitSeconds? rest with
    | .finite numerator denominator, some unit =>
      if numerator < 0 then none
      else some ((numerator.toNat * unit * Nat.pow 10 9 + denominator - 1) / denominator)
    | .infinite false, some _ => some (Nat.pow 10 30)
    | _, _ => none

def sleep (invocation : Invocation) : Steps Int :=
  withOptions invocation [] true 1 fun parsed => do
    if invocation.arguments.isEmpty then invocation.misuse (Bytes.ofText "missing operand") 1
    else
      let bad := parsed.operands.filter fun argument => (nanoseconds? argument).isNone
      if bad.isEmpty then
        Steps.ask (.sleep ((parsed.operands.filterMap nanoseconds?).foldl Nat.add 0))
        return 0
      else
        let _ ← Steps.forEach (fun argument => do
          invocation.complain (Bytes.ofText "invalid time interval " ++ argument.plainQuoted)
          return 0) bad
        Invocation.say invocation.hint
        return 1

end CommandShell.Tool
