import CommandShell.Tool.Interpreter.Command.Printing

/-!
The commands `test` and `[` of the interpreter.
-/

namespace CommandShell.Interpreter

inductive Sense where
  | unary (letter : Char)
  | binary (name : String)
  | negation
  | conjunction
  | disjunction
  | opening
  | closing
  deriving DecidableEq, Repr

namespace Sense

def of? (argument : List Char) : Option Sense :=
  match argument with
  | ['!'] => some .negation
  | ['('] => some .opening
  | [')'] => some .closing
  | ['-', 'a'] => some .conjunction
  | ['-', 'o'] => some .disjunction
  | ['-', c] => if "rwxefdcbpugkstznhOGLS".toList.contains c then some (.unary c) else none
  | _ =>
    let name := String.ofList argument
    let names :=
      ["=", "!=", "<", ">", "-eq", "-ne", "-ge", "-gt", "-le", "-lt", "-nt", "-ot", "-ef"]
    if names.contains name then some (.binary name) else none

def isBinary : Sense → Bool
  | .binary _ => true
  | _ => false

def isUnary : Sense → Bool
  | .unary _ => true
  | _ => false

end Sense

/-- What the first of some arguments means where it stands; nothing if it is an operand. -/
def senseOf (arguments : List (List Char)) : Option Sense :=
  match arguments with
  | [] => none
  | argument :: rest =>
    match Sense.of? argument with
    | none => none
    | some sense =>
      let operand :=
        match rest with
        | [] => true
        | [_] => false
        | next :: _ => (Sense.of? next).any Sense.isBinary
      if sense.isUnary && operand then none
      else if sense = .opening && rest.isEmpty then none
      else some sense

/-- The reading of a condition, with the arguments from the current one on. -/
abbrev Judging := StateT (List (List Char)) Running

namespace Judging

def ask (call : ToolCall) : Judging call.Reply := fun left => do
  return (← Running.ask call, left)

def complain {α : Type} (about : List Char) (message : String) : Judging α := fun _ =>
  Running.fail (if about.isEmpty then message.toList else about ++ ": ".toList ++ message.toList)

def number (argument : List Char) : Judging Int := do
  match integerOf? (some 10) argument with
  | some value => return value
  | none => fun _ => Running.fail (illegalNumber argument)

def holds (path : List Char) (follow : Bool) (property : FileStatus → Bool) : Judging Bool := do
  match ← ask (.stat (Bytes.ofChars path) follow) with
  | .ok status => return property status
  | .error _ => return false

def unary (letter : Char) (argument : List Char) : Judging Bool :=
  match letter with
  | 'z' => return argument.isEmpty
  | 'n' => return !argument.isEmpty
  | 't' => do
    let _ ← number argument
    return false
  | 'x' => holds argument true FileStatus.executable
  | 'f' => holds argument true fun status => status.kind = .regular
  | 'd' => holds argument true fun status => status.kind = .directory
  | 'c' => holds argument true fun status => status.kind = .device
  | 'p' => holds argument true fun status => status.kind = .pipe
  | 's' => holds argument true fun status => status.size ≠ 0
  | 'h' => holds argument false fun status => status.kind = .link
  | 'L' => holds argument false fun status => status.kind = .link
  | _ => if "erwOG".toList.contains letter then holds argument true fun _ => true else return false

def binary (name : String) (left right : List Char) : Judging Bool := do
  let numbers (f : Int → Int → Bool) : Judging Bool := do
    let a ← number left
    let b ← number right
    return f a b
  match name with
  | "=" => return left = right
  | "!=" => return left ≠ right
  | "<" => return decide (left < right)
  | ">" => return decide (right < left)
  | "-eq" => numbers (· == ·)
  | "-ne" => numbers (· != ·)
  | "-ge" => numbers (· ≥ ·)
  | "-gt" => numbers (· > ·)
  | "-le" => numbers (· ≤ ·)
  | "-lt" => numbers (· < ·)
  | "-ef" =>
    match ← ask (.stat (Bytes.ofChars left) true), ← ask (.stat (Bytes.ofChars right) true) with
    | .ok a, .ok b => return a.inode = b.inode
    | _, _ => return false
  | _ => return false

def advance (count : Nat) : Judging Unit := modify (List.drop count)

mutual

def either (answer : Bool) : Nat → Judging Bool
  | 0 => return answer
  | steps + 1 => do
    let next ← both true steps
    let answer := answer || next
    if senseOf ((← get).drop 1) = some .disjunction then
      advance 2
      either answer steps
    else return answer

def both (answer : Bool) : Nat → Judging Bool
  | 0 => return answer
  | steps + 1 => do
    let next ← negated steps
    let answer := answer && next
    if senseOf ((← get).drop 1) = some .conjunction then
      advance 2
      both answer steps
    else return answer

/-- A condition with signs of negation before it, in so many steps. -/
def negated : Nat → Judging Bool
  | 0 => return false
  | steps + 1 => do
    if senseOf (← get) = some .negation then
      advance 1
      return !(← negated steps)
    else primary steps

/-- A condition without parts, or one in parentheses, in so many steps. -/
def primary : Nat → Judging Bool
  | 0 => return false
  | steps + 1 => do
    match ← get with
    | [] => return false
    | argument :: rest =>
      match senseOf (argument :: rest) with
      | some .opening =>
        advance 1
        if senseOf (← get) = some .closing then return false
        let answer ← either false steps
        advance 1
        if senseOf (← get) = some .closing then return answer
        else complain [] "closing paren expected"
      | some (.unary letter) =>
        advance 1
        match rest with
        | [] => complain argument "argument expected"
        | next :: _ => unary letter next
      | _ =>
        match senseOf rest, rest with
        | some (.binary name), operator :: others =>
          advance 2
          match others with
          | [] => complain operator "argument expected"
          | right :: _ => binary name argument right
        | _, _ => return !argument.isEmpty

end

/-- Answer the question that some arguments are, by the rules for their number. A sign of negation
before two or three others turns the answer around, but a second one does not turn it back. `turned`
says whether there was one. -/
def answer (turned : Bool) : Nat → List (List Char) → Running Int
  | 0, arguments => whole turned arguments
  | steps + 1, arguments => do
    let inner (arguments : List (List Char)) : Running Int :=
      if arguments.head? = some ['('] && arguments.getLast? = some [')'] then
        whole turned (arguments.drop 1).dropLast
      else if arguments.head? = some ['!'] then answer true steps (arguments.drop 1)
      else whole turned arguments
    match arguments with
    | [] => return status turned false
    | [left, operator, right] =>
      match Sense.of? operator with
      | some (.binary name) =>
        let (holds, _) ← (binary name left right).run []
        return status turned holds
      | _ => inner arguments
    | [_, _, _, _] => inner arguments
    | _ => whole turned arguments
where
  status (turned holds : Bool) : Int := if holds != turned then 0 else 1
  whole (turned : Bool) (arguments : List (List Char)) : Running Int := do
    match ← (either false (8 * arguments.length + 8)).run arguments with
    | (_, next :: _ :: _) =>
      Running.fail ((if next.isEmpty then [] else next ++ [':', ' ']) ++
        "unexpected operator".toList)
    | (holds, _) => return status turned holds

end Judging

def test : Command := fun arguments => Judging.answer false arguments.length arguments

def bracket : Command := fun arguments => do
  match arguments.getLast? with
  | some (']' :: _) => test arguments.dropLast
  | _ => Running.fail "missing ]".toList

end CommandShell.Interpreter
