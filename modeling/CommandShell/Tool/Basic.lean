import CommandShell.Tool.Call
import CommandShell.Tool.Quote

/-!
What most programs have in common: messages, output, reading to an end, and options.
-/

namespace CommandShell

namespace Invocation

/-- Write to the stream for errors, whether or not that can be done. -/
def say (bytes : Bytes) : Steps Unit := do
  let _ ← Steps.ask (.write 2 bytes)

def complain (invocation : Invocation) (message : Bytes) : Steps Unit :=
  say (invocation.name ++ Bytes.ofText ": " ++ message ++ Bytes.ofText "\n")

def fail (invocation : Invocation) (message : Bytes) (code : Int) : Steps Int := do
  invocation.complain message
  return code

def hint (invocation : Invocation) : Bytes :=
  Bytes.ofText "Try '" ++ invocation.name ++ Bytes.ofText " --help' for more information.\n"

def misuse (invocation : Invocation) (message : Bytes) (code : Int) : Steps Int := do
  invocation.complain message
  say invocation.hint
  return code

/-- Print to the standard output. If that cannot be done, the program ends with a code. -/
def printOr (invocation : Invocation) (code : Int) (bytes : Bytes) : Steps Unit := do
  if bytes.isEmpty then return ()
  match ← Steps.ask (.write 1 bytes) with
  | .ok () => return ()
  | .error errno =>
    invocation.complain (Bytes.ofText ("write error: " ++ errno.systemText))
    let never ← Steps.ask (.exit code)
    nomatch never

def print (invocation : Invocation) (bytes : Bytes) : Steps Unit := invocation.printOr 1 bytes

def blockSize : Nat := 4096

/-- Put bytes behind those that are held back, and print all whole blocks. Answers what is held back
now. -/
def gather (invocation : Invocation) (code : Int) (held bytes : Bytes) : Steps Bytes := do
  let all := held ++ bytes
  if all.length < blockSize || (!held.isEmpty && all.length = blockSize) then return all
  let ready := all.length - all.length % blockSize
  invocation.printOr code (all.take ready)
  return all.drop ready

end Invocation

namespace Steps

/-- Read to the end, so many bytes at once, and hand each piece to a function with what it made of
those before, in so many rounds at most. -/
def foldInput {α : Type} (descriptor : Descriptor) (size : Nat) (f : α → Bytes → Steps α) :
    Nat → α → Steps (Except Errno Unit × α)
  | 0, state => return (.ok (), state)
  | rounds + 1, state => do
    match ← ask (.read descriptor size) with
    | .error errno => return (.error errno, state)
    | .ok bytes =>
      if bytes.isEmpty then return (.ok (), state)
      let state ← f state bytes
      foldInput descriptor size f rounds state

/-- Read to the end. What was read before an error counts. -/
def readToEnd (descriptor : Descriptor) : Steps (Except Errno Unit × Bytes) := do
  let (result, chunks) ←
    foldInput descriptor 65536 (fun (chunks : List Bytes) bytes => return bytes :: chunks) patience
      []
  return (result, chunks.reverse.flatten)

end Steps

namespace Tool

def hyphen : Bytes := Bytes.ofText "-"

def openInput (path : Bytes) : Steps (Except Errno Descriptor) :=
  if path = hyphen then return .ok 0 else Steps.ask (.open path { readable := true })

def closeInput (path : Bytes) (descriptor : Descriptor) : Steps Unit := do
  if path ≠ hyphen then
    let _ ← Steps.ask (.close descriptor)

/-- Close the standard input if it was among the files. If that cannot be done, say so and end with
one. -/
def closeStandardInput (invocation : Invocation) (paths : List Bytes) (name : String) (code : Int) :
    Steps Int := do
  if !paths.contains hyphen then return code
  match ← Steps.ask (.close 0) with
  | .ok () => return code
  | .error errno =>
    invocation.complain (Bytes.ofText (name ++ ": " ++ errno.systemText))
    return 1

inductive Needs where
  | nothing
  | value
  | maybe
  deriving DecidableEq, Repr

structure OptionRule where
  key : Char
  word : String := ""
  needs : Needs := .nothing
  short : Bool := true

structure Given where
  key : Char
  value : Bytes := []
  deriving DecidableEq, Repr

structure Parsed where
  options : List Given := []
  operands : List Bytes := []

namespace Parsed

def has (parsed : Parsed) (key : Char) : Bool := parsed.options.any fun given => given.key = key

def value? (parsed : Parsed) (key : Char) : Option Bytes :=
  (parsed.options.reverse.find? fun given => given.key = key).map Given.value

def add (parsed : Parsed) (given : Given) : Parsed :=
  { parsed with options := parsed.options ++ [given] }

end Parsed

/-- The option that a word or the start of one stands for. Words that mean the same may share a
start. -/
def ruleOf (rules : List OptionRule) (word : String) : Except Bytes OptionRule :=
  let written := Bytes.ofText ("--" ++ word)
  let named := rules.filter fun rule => rule.word ≠ ""
  match named.find? fun rule => rule.word = word with
  | some rule => .ok rule
  | none =>
    match named.filter fun rule => word.toList.isPrefixOf rule.word.toList with
    | [] => .error []
    | rule :: others =>
      let candidates := rule :: others
      if others.all fun other => other.key = rule.key && other.needs = rule.needs then .ok rule
      else .error
        (Bytes.ofText "option '" ++ written ++ Bytes.ofText "' is ambiguous; possibilities:" ++
        candidates.flatMap fun rule => Bytes.ofText (" '--" ++ rule.word ++ "'"))

/-- Options that were read before something was wrong, and a message about that. -/
structure Misread where
  before : Parsed
  message : Bytes

/-- Read the letters of one argument. The next argument may be the value of the last of them; says
whether it is. -/
def parseLetters (rules : List OptionRule) (next : Option Bytes) (parsed : Parsed) :
    List Char → Except Misread (Parsed × Bool)
  | [] => .ok (parsed, false)
  | c :: rest =>
    match rules.find? fun rule => rule.short && rule.key = c with
    | none =>
      .error ⟨parsed, Bytes.ofText "invalid option -- '" ++ Bytes.ofChars [c] ++ Bytes.ofText "'"⟩
    | some rule =>
      match rule.needs with
      | .nothing => parseLetters rules next (parsed.add ⟨c, []⟩) rest
      | .maybe => .ok (parsed.add ⟨c, Bytes.ofChars rest⟩, false)
      | .value =>
        if !rest.isEmpty then .ok (parsed.add ⟨c, Bytes.ofChars rest⟩, false)
        else
          match next with
          | some value => .ok (parsed.add ⟨c, value⟩, true)
          | none =>
            .error ⟨parsed, Bytes.ofText "option requires an argument -- '" ++ Bytes.ofChars [c] ++
              Bytes.ofText "'"⟩

/-- Read an option that is a word. The next argument may be its value; says whether it is. -/
def parseWord (rules : List OptionRule) (next : Option Bytes) (parsed : Parsed)
    (chars : List Char) :
    Except Misread (Parsed × Bool) := do
  let word := String.ofList (chars.takeWhile (· ≠ '='))
  let given := chars.dropWhile (· ≠ '=')
  let refuse (message : Bytes) : Except Misread (Parsed × Bool) := .error ⟨parsed, message⟩
  match ruleOf rules word with
  | .error [] =>
    refuse (Bytes.ofText "unrecognized option '--" ++ Bytes.ofChars chars ++ Bytes.ofText "'")
  | .error message => refuse message
  | .ok rule =>
    let name := Bytes.ofText ("option '--" ++ rule.word ++ "'")
    match rule.needs, given with
    | .nothing, [] => .ok (parsed.add ⟨rule.key, []⟩, false)
    | .nothing, _ => refuse (name ++ Bytes.ofText " doesn't allow an argument")
    | _, _ :: value => .ok (parsed.add ⟨rule.key, Bytes.ofChars value⟩, false)
    | .maybe, [] => .ok (parsed.add ⟨rule.key, []⟩, false)
    | .value, [] =>
      match next with
      | some value => .ok (parsed.add ⟨rule.key, value⟩, true)
      | none => refuse (name ++ Bytes.ofText " requires an argument")

/-- Read the arguments of a program; `skip` of them were values of options before. Where options may
not follow other arguments, all behind the first such argument are no options. -/
def parseFrom (rules : List OptionRule) (mixed : Bool) (parsed : Parsed) :
    Nat → List Bytes → Except Misread Parsed
  | _, [] => .ok parsed
  | skip + 1, _ :: rest => parseFrom rules mixed parsed skip rest
  | 0, argument :: rest =>
    match argument.toChars with
    | ['-', '-'] => .ok { parsed with operands := parsed.operands ++ rest }
    | '-' :: '-' :: word => do
      let (parsed, used) ← parseWord rules rest.head? parsed word
      parseFrom rules mixed parsed (if used then 1 else 0) rest
    | '-' :: c :: letters => do
      let (parsed, used) ← parseLetters rules rest.head? parsed (c :: letters)
      parseFrom rules mixed parsed (if used then 1 else 0) rest
    | _ =>
      if mixed then parseFrom rules mixed { parsed with operands := parsed.operands ++ [argument] }
        0 rest
      else .ok { parsed with operands := parsed.operands ++ argument :: rest }

def standardRules : List OptionRule :=
  [{ key := 'h', word := "help", short := false },
    { key := 'V', word := "version", short := false }]

/-- What is wrong with the values of options, if anything, in the order in which they were given. -/
abbrev Objection := Given → Option (Steps Int)

/-- Run a program on its options and other arguments, unless there is an objection to an option.
That comes before a complaint about what could not be read behind it. -/
def withChecked (invocation : Invocation) (rules : List OptionRule) (mixed : Bool) (code : Int)
    (object : Objection) (run : Parsed → Steps Int) : Steps Int :=
  match parseFrom (rules ++ standardRules) mixed {} 0 invocation.arguments with
  | .error misread =>
    (misread.before.options.findSome? object).getD (invocation.misuse misread.message code)
  | .ok parsed => (parsed.options.findSome? object).getD (run parsed)

def withOptions (invocation : Invocation) (rules : List OptionRule) (mixed : Bool) (code : Int)
    (run : Parsed → Steps Int) : Steps Int :=
  withChecked invocation rules mixed code (fun _ => none) run

inductive Choice where
  | ok (word : String)
  | invalid
  | ambiguous
  deriving DecidableEq, Repr

/-- The word that is meant by a text: itself, or the only one that starts with it. Words in the same
group mean the same. -/
def choose (groups : List (List String)) (text : Bytes) : Choice :=
  let text := String.ofList text.toChars
  match groups.find? fun group => group.contains text with
  | some group => .ok (group.headD "")
  | none =>
    match groups.filter fun group => group.any fun word => text.toList.isPrefixOf word.toList with
    | [] => .invalid
    | [group] => .ok (group.headD "")
    | _ => .ambiguous

def refuseChoice (invocation : Invocation) (groups : List (List String)) (option : String)
    (text : Bytes) (ambiguous : Bool) (code : Int) : Steps Int := do
  let kind := if ambiguous then "ambiguous" else "invalid"
  invocation.complain (Bytes.ofText (kind ++ " argument ") ++ text.plainQuoted ++
    Bytes.ofText (" for '--" ++ option ++ "'"))
  Invocation.say (Bytes.ofText "Valid arguments are:\n" ++ groups.flatMap fun group =>
    Bytes.ofText ("  - " ++ String.intercalate ", " (group.map fun word => "'" ++ word ++ "'") ++
      "\n"))
  Invocation.say invocation.hint
  return code

def objectToChoice (invocation : Invocation) (groups : List (List String)) (option : String)
    (code : Int) (text : Bytes) : Option (Steps Int) :=
  match choose groups text with
  | .ok _ => none
  | .invalid => some (refuseChoice invocation groups option text false code)
  | .ambiguous => some (refuseChoice invocation groups option text true code)

end Tool

end CommandShell
