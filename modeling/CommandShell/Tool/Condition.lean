import CommandShell.Tool.Basic
import CommandShell.Tool.Number

/-!
Programs that answer a question by their exit code: `true`, `false`, `test` and `[`.
-/

namespace CommandShell.Tool

def succeed (_ : Invocation) : Steps Int := return 0

def decline (_ : Invocation) : Steps Int := return 1

/-- The reading of a condition, with the arguments that are left, or what is wrong with them. -/
abbrev Testing := StateT (List Bytes) (ExceptT Bytes Steps)

namespace Testing

def ask (call : ToolCall) : Testing call.Reply := fun left => ExceptT.lift do
  return (← Steps.ask call, left)

def fail {α : Type} (message : Bytes) : Testing α := throw message

def isWord (argument : Bytes) (word : String) : Bool := argument == Bytes.ofText word

def beyond {α : Type} (all : List Bytes) : Testing α :=
  fail (Bytes.ofText "missing argument after " ++ (all.getLast?.getD []).quoted)

def next (all : List Bytes) : Testing Bytes := do
  match ← get with
  | [] => beyond all
  | argument :: rest =>
    set rest
    return argument

def passOver (all : List Bytes) : Testing Unit := do
  modify (List.drop 1)
  if (← get).isEmpty then beyond all

def number (argument : Bytes) : Testing Int := do
  let found := leading (some 10) argument.toChars
  if found.found && (found.rest.dropWhile isSpace).isEmpty then return found.value
  else fail (Bytes.ofText "invalid integer " ++ argument.quoted)

def holds (path : Bytes) (follow : Bool) (property : FileStatus → Bool) : Testing Bool := do
  match ← ask (.stat path follow) with
  | .ok status => return property status
  | .error _ => return false

def letter? (argument : Bytes) : Option Char :=
  match argument.toChars with
  | ['-', c] => some c
  | _ => none

def unary (all : List Bytes) : Testing Bool := do
  let operator ← next all
  let letter := (letter? operator).getD ' '
  if !"erwxNOGfdsScbpLhugktnz".toList.contains letter then
    fail (operator.quoted ++ Bytes.ofText ": unary operator expected")
  let argument ← next all
  match letter with
  | 'n' => return !argument.isEmpty
  | 'z' => return argument.isEmpty
  | 'e' => holds argument true fun _ => true
  | 'r' => holds argument true fun _ => true
  | 'w' => holds argument true fun _ => true
  | 'O' => holds argument true fun _ => true
  | 'G' => holds argument true fun _ => true
  | 'x' => holds argument true FileStatus.executable
  | 'f' => holds argument true fun status => status.kind = .regular
  | 'd' => holds argument true fun status => status.kind = .directory
  | 's' => holds argument true fun status => status.size ≠ 0
  | 'c' => holds argument true fun status => status.kind = .device
  | 'p' => holds argument true fun status => status.kind = .pipe
  | 'L' => holds argument false fun status => status.kind = .link
  | 'h' => holds argument false fun status => status.kind = .link
  | 't' =>
    let _ ← number argument
    return false
  | _ => return false

inductive Comparison where
  | text (holds : Bytes → Bytes → Bool)
  | number (holds : Int → Int → Bool)
  | file (name : String) (holds : Option FileStatus → Option FileStatus → Bool)

def comparison? (operator : Bytes) : Option Comparison :=
  match operator.toText with
  | "=" => some (.text (· == ·))
  | "==" => some (.text (· == ·))
  | "!=" => some (.text (· != ·))
  | "-eq" => some (.number (· == ·))
  | "-ne" => some (.number (· != ·))
  | "-lt" => some (.number (· < ·))
  | "-le" => some (.number (· ≤ ·))
  | "-gt" => some (.number (· > ·))
  | "-ge" => some (.number (· ≥ ·))
  | "-nt" => some (.file "-nt" fun a b => a.isSome && b.isNone)
  | "-ot" => some (.file "-ot" fun a b => a.isNone && b.isSome)
  | "-ef" => some (.file "-ef" fun a b => match a, b with
      | some a, some b => a.inode = b.inode
      | _, _ => false)
  | _ => none

def compareArguments (comparison : Comparison) (left right : Bytes)
    (leftLength rightLength : Bool) :
    Testing Bool := do
  let value (argument : Bytes) (length : Bool) : Testing Int :=
    if length then return (argument.length : Int) else number argument
  match comparison with
  | .text holds => return holds left right
  | .number holds =>
    let a ← value left leftLength
    let b ← value right rightLength
    return holds a b
  | .file name holds =>
    if leftLength || rightLength then fail (Bytes.ofText (name ++ " does not accept -l"))
    let status (path : Bytes) : Testing (Option FileStatus) := do
      match ← ask (.stat path true) with
      | .ok status => return some status
      | .error _ => return none
    let a ← status left
    let b ← status right
    return holds a b

def binary (comparison : Comparison) (leftLength : Bool) : Testing Bool := do
  if leftLength then modify (List.drop 1)
  let left ← get
  match left with
  | a :: _ :: minus :: b :: rest =>
    if isWord minus "-l" then
      set rest
      compareArguments comparison a b leftLength true
    else
      set (b :: rest)
      compareArguments comparison a minus leftLength false
  | [a, _, b] =>
    set ([] : List Bytes)
    compareArguments comparison a b leftLength false
  | _ => return false

def one (all : List Bytes) : Testing Bool := do return !(← next all).isEmpty

def two (all : List Bytes) : Testing Bool := do
  match ← get with
  | argument :: _ =>
    if isWord argument "!" then
      modify (List.drop 1)
      return !(← one all)
    else if (letter? argument).isSome then unary all
    else beyond all
  | [] => beyond all

mutual

def condition (all : List Bytes) (count : Nat) : Nat → Testing Bool
  | 0 => return false
  | steps + 1 => do
    let left ← get
    match count with
    | 1 => one all
    | 2 => two all
    | 3 => three all steps
    | 4 =>
      if isWord (left.getD 0 []) "!" then
        passOver all
        return !(← three all steps)
      else if isWord (left.getD 0 []) "(" && isWord (left.getD 3 []) ")" then
        modify (List.drop 1)
        let answer ← two all
        modify (List.drop 1)
        return answer
      else disjunction all false steps
    | _ => disjunction all false steps

def three (all : List Bytes) : Nat → Testing Bool
  | 0 => return false
  | steps + 1 => do
    let left ← get
    let first := left.getD 0 []
    let middle := left.getD 1 []
    match comparison? middle with
    | some comparison => binary comparison false
    | none =>
      if isWord first "!" then
        passOver all
        return !(← two all)
      else if isWord first "(" && isWord (left.getD 2 []) ")" then
        modify (List.drop 1)
        let answer ← one all
        modify (List.drop 1)
        return answer
      else if isWord middle "-a" || isWord middle "-o" then disjunction all false steps
      else fail (middle.quoted ++ Bytes.ofText ": binary operator expected")

def disjunction (all : List Bytes) (answer : Bool) : Nat → Testing Bool
  | 0 => return answer
  | steps + 1 => do
    let next ← conjunction all true steps
    let answer := answer || next
    if isWord ((← get).getD 0 []) "-o" then
      modify (List.drop 1)
      disjunction all answer steps
    else return answer

def conjunction (all : List Bytes) (answer : Bool) : Nat → Testing Bool
  | 0 => return answer
  | steps + 1 => do
    let next ← term all steps
    let answer := answer && next
    if isWord ((← get).getD 0 []) "-a" then
      modify (List.drop 1)
      conjunction all answer steps
    else return answer

/-- A condition that has no parts but those in parentheses, in so many steps. -/
def term (all : List Bytes) : Nat → Testing Bool
  | 0 => return false
  | steps + 1 => do
    let left ← get
    match left with
    | [] => beyond all
    | argument :: rest =>
      if isWord argument "!" then
        passOver all
        return !(← term all steps)
      else if isWord argument "(" then
        passOver all
        let closing := (rest.drop 1).findIdx fun argument => isWord argument ")"
        let count := if closing < 4 then closing + 1 else rest.length
        let answer ← condition all count steps
        match ← get with
        | [] => fail (Bytes.ofText "')' expected")
        | argument :: rest =>
          if isWord argument ")" then
            set rest
            return answer
          else fail (Bytes.ofText "')' expected, found " ++ argument.quoted)
      else
        let lengthFirst := isWord argument "-l" && 4 ≤ left.length
        match (if lengthFirst then comparison? (left.getD 2 []) else none) with
        | some comparison => binary comparison true
        | none =>
          match (if 3 ≤ left.length then comparison? (left.getD 1 []) else none) with
          | some comparison => binary comparison false
          | none => if (letter? argument).isSome then unary all else one all

end

end Testing

def answer (invocation : Invocation) (arguments : List Bytes) : Steps Int := do
  if arguments.isEmpty then return 1
  let steps := 8 * arguments.length + 8
  match ← ((Testing.condition arguments arguments.length steps).run arguments).run with
  | .error message => invocation.fail message 2
  | .ok (_, extra :: _) => invocation.fail (Bytes.ofText "extra argument " ++ extra.quoted) 2
  | .ok (holds, []) => return if holds then 0 else 1

def test (invocation : Invocation) : Steps Int := answer invocation invocation.arguments

def bracket (invocation : Invocation) : Steps Int :=
  match invocation.arguments.getLast? with
  | some closing =>
    if Testing.isWord closing "]" then answer invocation invocation.arguments.dropLast
    else invocation.fail (Bytes.ofText "missing ']'") 2
  | none => invocation.fail (Bytes.ofText "missing ']'") 2

end CommandShell.Tool
