import CommandShell.Tool.Interpreter.Basic
import CommandShell.Tool.Printing

/-!
The commands `echo` and `printf` of the interpreter, and the options of its commands.
-/

namespace CommandShell.Interpreter

abbrev Command := List (List Char) → Running Int

/-- Read options by their letters, some of which take a value, in so many steps. What comes behind
them is left. -/
def optionsFrom (allowed : List (Char × Bool)) (read : List (Char × List Char)) :
    Nat → List (List Char) → Running (List (Char × List Char) × List (List Char))
  | 0, arguments => return (read.reverse, arguments)
  | steps + 1, arguments =>
    match arguments with
    | ['-', '-'] :: rest => return (read.reverse, rest)
    | ('-' :: c :: letters) :: rest => do
      match allowed.lookup c with
      | none => Running.fail ("Illegal option -".toList ++ [c])
      | some false =>
        let rest := if letters.isEmpty then rest else ('-' :: letters) :: rest
        optionsFrom allowed ((c, []) :: read) steps rest
      | some true =>
        if !letters.isEmpty then optionsFrom allowed ((c, letters) :: read) steps rest
        else
          match rest with
          | value :: rest => optionsFrom allowed ((c, value) :: read) steps rest
          | [] => Running.fail ("No arg for -".toList ++ [c] ++ " option".toList)
    | _ => return (read.reverse, arguments)

def options (allowed : List (Char × Bool)) (arguments : List (List Char)) :
    Running (List (Char × List Char) × List (List Char)) :=
  optionsFrom allowed [] patience arguments

def formatEscape (rest : List Char) : Tool.Escape :=
  match rest with
  | c :: _ =>
    if Tool.isOctal c then
      let digits := (rest.take 3).takeWhile Tool.isOctal
      .text [Tool.byteOf 8 digits] digits.length
    else
      match Tool.escapeLetter? c with
      | some meant => .text [meant] 1
      | none => .text ['\\'] 0
  | [] => .text ['\\'] 0

def argumentEscape (rest : List Char) : Tool.Escape :=
  match rest with
  | 'c' :: _ => .finish
  | '0' :: digits =>
    let digits := (digits.take 3).takeWhile Tool.isOctal
    .text [Tool.byteOf 8 digits] (1 + digits.length)
  | _ => formatEscape rest

/-- A text with its escapes replaced, and whether it goes on to its end. -/
def unescape (chars : List Char) : List Char × Bool := Tool.unescape argumentEscape chars

def echoed (lineEnd : List Char) : List (List Char) → List Char
  | [] => lineEnd
  | argument :: rest =>
    match unescape argument with
    | (chars, false) => chars
    | (chars, true) =>
        if rest.isEmpty then chars ++ lineEnd else chars ++ ' ' :: echoed lineEnd rest

def echo : Command := fun arguments => do
  match arguments with
  | ['-', 'n'] :: rest => Running.print (echoed [] rest)
  | _ => Running.print (echoed ['\n'] arguments)
  return 0

/-! `printf` -/

structure Progress where
  arguments : List (List Char)
  status : Int := 0
  stopped : Bool := false

def checked (argument : List Char) (found : Bool) (rest : List Char) (outOfRange : Bool)
    (progress : Progress) : Running Progress := do
  let complain (message : String) : Running Progress := do
    Running.warn (argument ++ message.toList)
    return { progress with status := 1 }
  if !rest.isEmpty then
    if found then complain ": not completely converted" else complain ": expected numeric value"
  else if outOfRange then complain (": " ++ Errno.outOfRange.systemText)
  else return progress

def nextInteger (signed : Bool) (progress : Progress) : Running (Int × Progress) := do
  match progress.arguments with
  | [] => return (0, progress)
  | argument :: rest =>
    let progress := { progress with arguments := rest }
    match argument with
    | '\x22' :: others => return (((others.head?.map Char.toNat).getD 0 : Nat), progress)
    | '\x27' :: others => return (((others.head?.map Char.toNat).getD 0 : Nat), progress)
    | _ =>
      let number := Tool.leading none argument
      let (value, outOfRange) :=
        if signed then
          (max leastInteger (min greatestInteger number.value),
            greatestInteger < number.value || number.value < leastInteger)
        else if Nat.pow 2 64 ≤ number.value.natAbs then ((Nat.pow 2 64 : Int) - 1, true)
        else (number.value % Nat.pow 2 64, false)
      return (value, ← checked argument number.found number.rest outOfRange progress)

def nextMeasure (progress : Progress) : Running (Tool.Measure × Progress) := do
  match progress.arguments with
  | [] => return (.finite 0 1, progress)
  | argument :: rest =>
    let progress := { progress with arguments := rest }
    match argument with
    | '\x22' :: others => return (.finite ((others.head?.map Char.toNat).getD 0 : Nat) 1, progress)
    | '\x27' :: others => return (.finite ((others.head?.map Char.toNat).getD 0 : Nat) 1, progress)
    | _ =>
      match Tool.measure? argument with
      | some (value, rest) =>
        let (kept, outOfRange) := Tool.BinaryForm.double.keep value
        return (kept, ← checked argument true rest outOfRange progress)
      | none => return (.finite 0 1, ← checked argument false argument false progress)

def nextText (progress : Progress) : List Char × Progress :=
  (progress.arguments.headD [], { progress with arguments := progress.arguments.drop 1 })

structure Written where
  directive : Tool.Directive
  chars : List Char
  rest : List Char

def directiveNumber (chars : List Char) (progress : Progress) :
    Running (Int × List Char × List Char × Progress) := do
  match chars with
  | '*' :: rest =>
    let (value, progress) ← nextInteger true progress
    -- Only the lower half of the number is kept.
    return (Int.bmod value (Nat.pow 2 32), ['*'], rest, progress)
  | _ =>
    let digits := chars.takeWhile Char.isDigit
    return (Tool.valueOf 10 digits, digits, chars.drop digits.length, progress)

def readDirective (chars : List Char) (progress : Progress) : Running (Written × Progress) := do
  let flags := chars.takeWhile fun c => "#-+ 0".toList.contains c
  let (width, widthChars, rest, progress) ← directiveNumber (chars.drop flags.length) progress
  let (precision, precisionChars, rest, progress) ←
    match rest with
    | '.' :: rest => do
      let (value, read, rest, progress) ← directiveNumber rest progress
      pure (if value < 0 then none else some value.toNat, '.' :: read, rest, progress)
    | _ => pure (none, [], rest, progress)
  let directive : Tool.Directive :=
    { left := flags.contains '-' || width < 0, plus := flags.contains '+',
      space := flags.contains ' ', alternate := flags.contains '#', zero := flags.contains '0',
      width := width.natAbs, precision }
  return (⟨directive, '%' :: flags ++ widthChars ++ precisionChars, rest⟩, progress)

def printDirective (written : Written) (letter : Char) (progress : Progress) :
    Running Progress := do
  let directive := written.directive
  if letter = 's' then
    let (text, progress) := nextText progress
    Running.print (directive.text text)
    return progress
  else if letter = 'b' then
    let (text, progress) := nextText progress
    let (text, whole) := unescape text
    Running.print (directive.text text)
    return { progress with stopped := !whole }
  else if letter = 'c' then
    let (text, progress) := nextText progress
    Running.print (directive.pad [text.headD '\x00'])
    return progress
  else if letter = 'd' || letter = 'i' then
    let (value, progress) ← nextInteger true progress
    Running.print (directive.signed value)
    return progress
  else if "ouxX".toList.contains letter then
    let (value, progress) ← nextInteger false progress
    Running.print (directive.unsigned letter (value % Nat.pow 2 64).toNat)
    return progress
  else if "aAeEfFgG".toList.contains letter then
    let (value, progress) ← nextMeasure progress
    Running.print (directive.measured .double letter value)
    return progress
  else Running.fail (written.chars ++ letter :: ": invalid directive".toList)

def printFormat : Nat → List Char → Progress → Running Progress
  | 0, _, progress => return progress
  | steps + 1, format, progress => do
    if progress.stopped then return progress
    match format with
    | [] => return progress
    | '\\' :: rest =>
      match formatEscape rest with
      | .text chars length =>
        Running.print chars
        printFormat steps (rest.drop length) progress
      | _ => return progress
    | '%' :: '%' :: rest =>
      Running.print ['%']
      printFormat steps rest progress
    | '%' :: rest =>
      let (written, progress) ← readDirective rest progress
      match written.rest with
      | [] => Running.fail "missing format character".toList
      | letter :: rest =>
        let progress ← printDirective written letter progress
        printFormat steps rest progress
    | c :: rest =>
      Running.print [c]
      printFormat steps rest progress

/-- Print a format again and again as long as there are arguments for it, in so many steps. -/
def printFormats (format : List Char) : Nat → Progress → Running Int
  | 0, progress => return progress.status
  | steps + 1, progress => do
    let before := progress.arguments.length
    let progress ← printFormat patience format progress
    if progress.stopped || progress.arguments.isEmpty || progress.arguments.length = before then
      return progress.status
    else printFormats format steps progress

def printf : Command := fun arguments => do
  let (_, arguments) ← options [] arguments
  match arguments with
  | [] => Running.fail "usage: printf format [arg ...]".toList
  | format :: arguments => printFormats format patience { arguments }

end CommandShell.Interpreter
