import CommandShell.Tool.Basic
import CommandShell.Tool.Format

/-!
Programs that print their arguments: `echo`, `printf`, `yes` and `printenv`.
-/

namespace CommandShell.Tool

def joined (arguments : List Bytes) : Bytes := [Bytes.byte ' '].intercalate arguments

def isOctal (c : Char) : Bool := isDigitOf 8 c

def byteOf (base : Nat) (digits : List Char) : Char := Char.ofNat (valueOf base digits % 256)

def escapeLetter? : Char → Option Char
  | 'a' => some '\x07'
  | 'b' => some '\x08'
  | 'e' => some '\x1b'
  | 'f' => some '\x0c'
  | 'n' => some '\n'
  | 'r' => some '\r'
  | 't' => some '\t'
  | 'v' => some '\x0b'
  | '\\' => some '\\'
  | _ => none

/-- What an escape stands for: a text, and how many characters of the escape come behind the
backslash; or the end of all output. -/
inductive Escape where
  | text (chars : List Char) (length : Nat)
  | finish
  /-- The end of all output by mistake, with a message. -/
  | wrong (message : String)

/-- A text with its escapes replaced, and whether it goes on to its end; if not by mistake, without
a message. `skip` characters belong to an escape before. -/
def unescapeUntil (escape : List Char → Escape) (read : List Char) :
    Nat → List Char → List Char × Option (Option String)
  | _, [] => (read.reverse, none)
  | skip + 1, _ :: rest => unescapeUntil escape read skip rest
  | 0, c :: rest =>
    if c = '\\' then
      match escape rest with
      | .text chars length => unescapeUntil escape (chars.reverse ++ read) length rest
      | .finish => (read.reverse, some none)
      | .wrong message => (read.reverse, some (some message))
    else unescapeUntil escape (c :: read) 0 rest

def unescape (escape : List Char → Escape) (text : List Char) : List Char × Bool :=
  let (chars, stopped) := unescapeUntil escape [] 0 text
  (chars, stopped.isNone)

/-! `echo` -/

def isEchoOption (argument : Bytes) : Bool :=
  match argument.toChars with
  | '-' :: c :: letters => (c :: letters).all fun c => c = 'n' || c = 'e' || c = 'E'
  | _ => false

def echoEscape (rest : List Char) : Escape :=
  match rest with
  | [] => .text ['\\'] 0
  | 'c' :: _ => .finish
  | 'x' :: digits =>
    let digits := (digits.take 2).takeWhile (isDigitOf 16)
    if digits.isEmpty then .text ['\\', 'x'] 1 else .text [byteOf 16 digits] (1 + digits.length)
  | '0' :: digits =>
    let digits := (digits.take 3).takeWhile isOctal
    .text [byteOf 8 digits] (1 + digits.length)
  | c :: _ =>
    if isOctal c then
      let digits := (rest.take 3).takeWhile isOctal
      .text [byteOf 8 digits] digits.length
    else
      match escapeLetter? c with
      | some meant => .text [meant] 1
      | none => .text ['\\', c] 1

def echo (invocation : Invocation) : Steps Int := do
  let options := invocation.arguments.takeWhile isEchoOption
  let letters := options.flatMap Bytes.toChars
  let text := joined (invocation.arguments.drop options.length)
  let escapes := (letters.filter fun c => c = 'e' || c = 'E').getLast? = some 'e'
  let (text, whole) :=
    if escapes then
      let (chars, whole) := unescape echoEscape text.toChars
      (Bytes.ofChars chars, whole)
    else (text, true)
  invocation.print (if letters.contains 'n' || !whole then text else text ++ Bytes.ofText "\n")
  return 0

/-! `printf` -/

def missingDigits : Escape := .wrong "missing hexadecimal number in escape"

/-- A character that is given by its number, with so many digits. Only those of one byte can be
printed, and others stay as they are. -/
def numberedChar (letter : Char) (count : Nat) (digits : List Char) : Escape :=
  let digits := (digits.take count).takeWhile (isDigitOf 16)
  if digits.length < count then missingDigits
  else
    let value := valueOf 16 digits
    if (value < 160 && ['$', '@', '\x60'].all fun c => c.toNat ≠ value) ||
        (0xd800 ≤ value && value < 0xe000) then
      .wrong ("invalid universal character name \\" ++
        String.ofList (letter :: digits.map Char.toLower))
    else if value < 128 then .text [Char.ofNat value] (count + 1)
    else
      let shown := (digitsIn 16 value).map Char.toUpper
      let (letter, width) := if value < 0x10000 then ('u', 4) else ('U', 8)
      .text ('\\' :: letter :: List.replicate (width - shown.length) '0' ++ shown) (count + 1)

def formatEscape (rest : List Char) : Escape :=
  match rest with
  | [] => .text ['\\'] 0
  | 'c' :: _ => .finish
  | '\x22' :: _ => .text ['\x22'] 1
  | 'u' :: digits => numberedChar 'u' 4 digits
  | 'U' :: digits => numberedChar 'U' 8 digits
  | 'x' :: digits =>
    let digits := (digits.take 2).takeWhile (isDigitOf 16)
    if digits.isEmpty then missingDigits else .text [byteOf 16 digits] (1 + digits.length)
  | c :: _ =>
    if isOctal c then
      let digits := (rest.take 3).takeWhile isOctal
      .text [byteOf 8 digits] digits.length
    else
      match escapeLetter? c with
      | some meant => .text [meant] 1
      | none => .text ['\\', c] 1

/-- The escapes of arguments, where a zero may come before the digits of a byte. -/
def argumentEscape (rest : List Char) : Escape :=
  match rest with
  | '0' :: digits =>
    let digits := (digits.take 3).takeWhile isOctal
    .text [byteOf 8 digits] (1 + digits.length)
  | _ => formatEscape rest

inductive Piece where
  | text (chars : List Char)
  | complaint (message : Bytes)

structure Formatted where
  /-- What is written, the latest piece first. -/
  pieces : List Piece := []
  arguments : List Bytes
  used : Bool := false
  failed : Bool := false
  /-- Whether the output has come to an end, and if by mistake, the complaint. -/
  stopped : Option (Option Bytes) := none

namespace Formatted

def put (formatted : Formatted) (chars : List Char) : Formatted :=
  { formatted with pieces := .text chars :: formatted.pieces }

def argument (formatted : Formatted) : Bytes := formatted.arguments.headD []

def next (formatted : Formatted) : Formatted :=
  { formatted with arguments := formatted.arguments.drop 1, used := true }

def warn (formatted : Formatted) (message : Bytes) : Formatted :=
  { formatted with pieces := .complaint message :: formatted.pieces }

def complain (formatted : Formatted) (argument : Bytes) (message : String) : Formatted :=
  { formatted.warn (argument.plainQuoted ++ Bytes.ofText message) with failed := true }

def stop (formatted : Formatted) (message : Option Bytes) : Formatted :=
  { formatted with stopped := some message }

/-- Say what is wrong with a number of which only the start was read. -/
def check (formatted : Formatted) (argument : Bytes) (found : Bool) (rest : List Char) :
    Formatted :=
  if rest.isEmpty then formatted
  else if found then formatted.complain argument ": value not completely converted"
  else formatted.complain argument ": expected a numeric value"

/-- The number of a character behind a quote, if an argument is one. -/
def quotedChar? (formatted : Formatted) : Option (Nat × Formatted) :=
  match formatted.argument.toChars with
  | quote :: c :: rest =>
    if quote = '\x27' || quote = '\x22' then
      some (c.toNat,
        if rest.isEmpty then formatted
        else
          formatted.warn (Bytes.ofText "warning: " ++ Bytes.ofChars rest ++ Bytes.ofText
            ": character(s) following character constant have been ignored"))
    else none
  | _ => none

def number (formatted : Formatted) (least greatest : Int) : Int × Formatted :=
  match formatted.quotedChar? with
  | some (value, formatted) => (value, formatted)
  | none =>
    let argument := formatted.argument
    let number := leading none argument.toChars
    if number.value < least || greatest < number.value then
      (if number.value < least then least else greatest,
        formatted.complain argument (": " ++ Errno.outOfRange.systemText))
    else (number.value, formatted.check argument number.found number.rest)

def measure (formatted : Formatted) : Measure × Formatted :=
  match formatted.quotedChar? with
  | some (value, formatted) => (.finite value 1, formatted)
  | none =>
    let argument := formatted.argument
    match measure? argument.toChars with
    | none => (.finite 0 1, formatted.check argument false argument.toChars)
    | some (value, rest) =>
      let (kept, outOfRange) := BinaryForm.extended.keep value
      (kept,
        if outOfRange then formatted.complain argument (": " ++ Errno.outOfRange.systemText)
        else formatted.check argument true rest)

def directive (formatted : Formatted) (directive : Directive) (letter : Char) : Formatted :=
  let argument := formatted.argument
  if letter = 'd' || letter = 'i' then
    let (value, formatted) := formatted.number (-(Nat.pow 2 63)) (Nat.pow 2 63 - 1)
    (formatted.put (directive.signed value)).next
  else if letter ∈ ['o', 'u', 'x', 'X'] then
    let (value, formatted) := formatted.number (-(Nat.pow 2 64 - 1)) (Nat.pow 2 64 - 1)
    (formatted.put (directive.unsigned letter (value % Nat.pow 2 64).toNat)).next
  else if letter = 'c' then
    (formatted.put (directive.pad [argument.toChars.headD '\x00'])).next
  else if letter = 's' then (formatted.put (directive.text argument.toChars)).next
  else
    let (value, formatted) := formatted.measure
    (formatted.put (directive.measured .extended letter value)).next

/-- Print the next argument, if there is one, as a shell would read it or with its escapes
replaced. -/
def verbatim (formatted : Formatted) (quote : Bool) : Formatted :=
  if formatted.arguments.isEmpty then formatted.next
  else if quote then (formatted.put formatted.argument.shellWord.toChars).next
  else
    let (chars, stopped) := unescapeUntil argumentEscape [] 0 formatted.argument.toChars
    let formatted := (formatted.put chars).next
    match stopped with
    | some message => formatted.stop (message.map Bytes.ofText)
    | none => formatted

/-- The number of an argument that stands for a width or a precision. -/
def star (formatted : Formatted) : Int × Formatted :=
  let (value, formatted) := formatted.number (-(Nat.pow 2 31)) (Nat.pow 2 31 - 1)
  (value, formatted.next)

end Formatted

structure ReadDirective where
  directive : Directive
  letter : Char
  length : Nat
  formatted : Formatted
  valid : Bool

/-- Whether a directive can end with a letter behind some flags, with a precision or not. -/
def isDirectiveLetter (flags : List Char) (precise : Bool) (letter : Char) : Bool :=
  "aAcdeEfFgGiosuxX".toList.contains letter &&
    !(flags.any fun c => (c = '\x27' || c = 'I') && "aAceEosxX".toList.contains letter) &&
    !(flags.contains '#' && "cdisu".toList.contains letter) &&
    !(flags.contains '0' && (letter = 'c' || letter = 's')) && !(precise && letter = 'c')

def withFlag (directive : Directive) (c : Char) : Directive :=
  match c with
  | '-' => { directive with left := true }
  | '+' => { directive with plus := true }
  | ' ' => { directive with space := true }
  | '#' => { directive with alternate := true }
  | '0' => { directive with zero := true }
  | _ => directive

def readDirective (formatted : Formatted) (chars : List Char) : ReadDirective :=
  let flags := chars.takeWhile fun c => c ∈ ['-', '+', ' ', '#', '0', '\x27', 'I']
  let directive := flags.foldl withFlag {}
  let rest := chars.drop flags.length
  let (directive, rest, formatted) :=
    match rest with
    | '*' :: rest =>
      let (value, formatted) := formatted.star
      let directive := if value < 0 then { directive with left := true } else directive
      ({ directive with width := value.natAbs }, rest, formatted)
    | _ =>
      let digits := rest.takeWhile Char.isDigit
      ({ directive with width := valueOf 10 digits }, rest.drop digits.length, formatted)
  let (directive, rest, formatted) :=
    match rest with
    | '.' :: '*' :: rest =>
      let (value, formatted) := formatted.star
      ({ directive with precision := if value < 0 then none else some value.toNat }, rest,
        formatted)
    | '.' :: rest =>
      let digits := rest.takeWhile Char.isDigit
      ({ directive with precision := some (valueOf 10 digits) }, rest.drop digits.length, formatted)
    | _ => (directive, rest, formatted)
  let precise := (chars.take (chars.length - rest.length)).contains '.'
  let rest := rest.dropWhile fun c => c ∈ ['h', 'l', 'L', 'j', 't', 'z']
  match rest with
  | letter :: behind =>
    ⟨directive, letter, chars.length - behind.length, formatted,
      isDirectiveLetter flags precise letter⟩
  | [] => ⟨directive, ' ', chars.length, formatted, false⟩

/-- Go through a format once. `skip` characters belong to an escape or a directive before. -/
def format (formatted : Formatted) : Nat → List Char → Formatted
  | _, [] => formatted
  | skip + 1, _ :: rest => format formatted skip rest
  | 0, c :: rest =>
    if formatted.stopped.isSome then formatted
    else if c = '\\' then
      match formatEscape rest with
      | .finish => formatted.stop none
      | .wrong message => formatted.stop (some (Bytes.ofText message))
      | .text chars length => format (formatted.put chars) length rest
    else if c = '%' then
      match rest.head? with
      | some '%' => format (formatted.put ['%']) 1 rest
      | some 'b' => format (formatted.verbatim false) 1 rest
      | some 'q' => format (formatted.verbatim true) 1 rest
      | _ =>
        let found := readDirective formatted rest
        if found.valid then
          format (found.formatted.directive found.directive found.letter) found.length rest
        else
          found.formatted.stop (some (Bytes.ofChars ('%' :: rest.take found.length) ++
            Bytes.ofText ": invalid conversion specification"))
    else format (formatted.put [c]) 0 rest

/-- Go through a format until no argument is left. -/
def formatAll (template : List Char) : Nat → Formatted → Formatted
  | 0, formatted => formatted
  | rounds + 1, formatted =>
    let formatted := format { formatted with used := false } 0 template
    if formatted.stopped.isNone && formatted.used && !formatted.arguments.isEmpty then
      formatAll template rounds formatted
    else formatted

def printf (invocation : Invocation) : Steps Int := do
  let arguments :=
    match invocation.arguments with
    | first :: rest => if first = Bytes.ofText "--" then rest else first :: rest
    | [] => []
  match arguments with
  | [] => invocation.misuse (Bytes.ofText "missing operand") 1
  | template :: arguments =>
    let formatted := formatAll template.toChars (arguments.length + 1) { arguments }
    let mut pending : List (List Char) := []
    for piece in formatted.pieces.reverse do
      match piece with
      | .text chars => pending := chars :: pending
      | .complaint message =>
        invocation.print (Bytes.ofChars pending.reverse.flatten)
        pending := []
        invocation.complain message
    invocation.print (Bytes.ofChars pending.reverse.flatten)
    match formatted.stopped with
    | some (some message) => invocation.fail message 1
    | some none => return 0
    | none =>
      if !formatted.arguments.isEmpty then
        invocation.complain (Bytes.ofText "warning: ignoring excess arguments, starting with " ++
          (formatted.argument).plainQuoted)
      return if formatted.failed then 1 else 0

/-! `yes` and `printenv` -/

def repeatPrint (invocation : Invocation) (bytes : Bytes) : Nat → Steps Int
  | 0 => return 0
  | rounds + 1 => do
    match ← Steps.ask (.write 1 bytes) with
    | .ok () => repeatPrint invocation bytes rounds
    | .error errno => invocation.fail (Bytes.ofText ("standard output: " ++ errno.systemText)) 1

def yes (invocation : Invocation) : Steps Int :=
  withOptions invocation [] true 1 fun parsed =>
    let arguments := if parsed.operands.isEmpty then [Bytes.ofText "y"] else parsed.operands
    let line := joined arguments ++ Bytes.ofText "\n"
    repeatPrint invocation (List.replicate (max 1 (8192 / line.length)) line).flatten patience

def recordValue? (name record : Bytes) : Option Bytes :=
  if (name ++ Bytes.ofText "=").isPrefixOf record then some (record.drop (name.length + 1))
  else none

def printenv (invocation : Invocation) : Steps Int :=
  withOptions invocation [{ key := '0', word := "null" }] false 2 fun parsed => do
    let finish : Bytes := if parsed.has '0' then [0] else Bytes.ofText "\n"
    if parsed.operands.isEmpty then
      invocation.printOr 2 (invocation.environment.flatMap fun record => record ++ finish)
      return 0
    else
      Steps.forEach (fun name => do
        if name.contains (Bytes.byte '=') then return 1
        match invocation.environment.findSome? (recordValue? name) with
        | some value =>
          invocation.printOr 2 (value ++ finish)
          return 0
        | none => return 1) parsed.operands

end CommandShell.Tool
