import CommandShell.Tool.Interpreter.State
import CommandShell.Tool.Number

/-!
The variables of the interpreter, and the numbers in its arguments.
-/

namespace CommandShell.Interpreter

def greatestInteger : Int := Nat.pow 2 63 - 1

def leastInteger : Int := -Nat.pow 2 63

/-- A whole number as it is written, if all of a text is one. Without a base, zero at its start
means base eight, and an `x` behind it base sixteen; an empty text is zero then. -/
def integerOf? (base : Option Nat) (chars : List Char) : Option Int :=
  let found := Tool.leading base chars
  if !found.found && base.isSome then none
  else
    let rest := if found.found then found.rest else chars
    if !(rest.dropWhile Tool.isSpace).isEmpty then none
    else if greatestInteger < found.value || found.value < leastInteger then none
    else some found.value

def illegalNumber (chars : List Char) : List Char := "Illegal number: ".toList ++ chars

def numberOf (chars : List Char) : Except (List Char) Int :=
  match integerOf? (some 10) chars with
  | some value =>
      if 0 ≤ value && value < Nat.pow 2 31 then .ok value else .error (illegalNumber chars)
  | none => .error (illegalNumber chars)

def digitsOf (value : Int) : List Char := (toString value).toList

/-- A text in single quotes, with its own single quotes in double ones, in so many steps. -/
def singleQuotedFrom : Nat → List Char → List Char
  | 0, _ => []
  | steps + 1, chars =>
    let plain := chars.takeWhile (· ≠ '\x27')
    let quotes := (chars.drop plain.length).takeWhile (· = '\x27')
    let rest := chars.drop (plain.length + quotes.length)
    let start := '\x27' :: plain ++ ['\x27']
    if quotes.isEmpty then start
    else
      let middle := '\x22' :: quotes ++ ['\x22']
      if rest.isEmpty then start ++ middle else start ++ middle ++ singleQuotedFrom steps rest

def singleQuote (chars : List Char) : List Char := singleQuotedFrom (chars.length + 1) chars

namespace State

def find? (state : State) (name : List Char) : Option Variable :=
  state.bindings.find? fun binding => binding.name = name

def lookup (state : State) (name : List Char) : Option (List Char) :=
  (state.find? name).bind Variable.value

def separators (state : State) : List Char :=
  (state.lookup "IFS".toList).getD [' ', '\t', '\n']

def has (state : State) (letter : Char) : Bool := state.settings.contains letter

def put (state : State) (binding : Variable) : State :=
  if (state.find? binding.name).isSome then
    { state with
      bindings :=
        state.bindings.map fun other => if other.name = binding.name then binding else other }
  else { state with bindings := state.bindings ++ [binding] }

def remove (state : State) (name : List Char) : State :=
  { state with bindings := state.bindings.filter fun binding => binding.name ≠ name }

def noticeChange (state : State) (name value : List Char) : Except (List Char) State :=
  if name = "PATH".toList then .ok { state with located := [] }
  else if name = "OPTIND".toList then
    if value.isEmpty then .ok { state with optionCursor := {} }
    else
      match numberOf value with
      | .ok index =>
          .ok { state with optionCursor := { index := if index = 0 then 1 else index.toNat } }
      | .error message => .error message
  else .ok state

/-- Give a value to a variable, and mark it for programs that are started, or not. -/
def assign (state : State) (name value : List Char) (marked : Bool) :
    Except (List Char) State :=
  let exported := marked || state.has 'a'
  match state.find? name with
  | some old =>
    if old.readOnly then .error (name ++ ": is read only".toList)
    else
      let new := { old with value := some value, exported := old.exported || exported }
      (state.put new).noticeChange name value
  | none => (state.put { name, value := some value, exported }).noticeChange name value

def assignNamed (state : State) (name value : List Char) (marked : Bool) :
    Except (List Char) State :=
  if isName name then state.assign name value marked
  else .error (name ++ ": bad variable name".toList)

def unset (state : State) (name : List Char) : Except (List Char) State :=
  if !isName name then .error (name ++ ": bad variable name".toList)
  else
    match state.find? name with
    | some old =>
      if old.readOnly then .error (name ++ ": is read only".toList)
      else (state.remove name).noticeChange name []
    | none => .ok state

def save (state : State) (name : List Char) : State :=
  match state.frames with
  | frame :: outer =>
    { state with frames := (.binding name (state.find? name) :: frame) :: outer }
  | [] => state

def restore (state : State) : Saved → State
  | .binding name none => state.remove name
  | .binding _ (some before) =>
    let restored := state.put before
    match restored.noticeChange before.name (before.value.getD []) with
    | .ok state => state
    | .error _ => restored
  | .settings letters => { state with settings := letters }

def popFrame (state : State) : State :=
  match state.frames with
  | frame :: outer => frame.foldl restore { state with frames := outer }
  | [] => state

/-- The part of the table of variables that a name is kept in. -/
def bucket (name : List Char) : Nat :=
  match name with
  | c :: _ => name.foldl (fun total c => total + c.toNat) (c.toNat * 16) % 39
  | [] => 0

def environment (state : State) : List Bytes :=
  let exported := state.bindings.filter fun binding => binding.exported && binding.value.isSome
  (List.range 39).flatMap fun number =>
    (exported.filter fun binding => bucket binding.name = number).map fun binding =>
      Bytes.ofChars (binding.name ++ '=' :: binding.value.getD [])

def shownSettings (state : State) : List Char :=
  "pubaCEVvxsnmiIfe".toList.filter state.has

def hasTraps (state : State) : Bool := state.traps.any fun entry => !entry.2.isEmpty

end State

end CommandShell.Interpreter
