import CommandShell.Tool.Pattern

/-!
`expr`, which evaluates an expression. Values are texts; a number is a text of digits, with a minus
sign before it or not.
-/

namespace CommandShell.Tool

/-- The evaluation of an expression, with the arguments that are left, or what is wrong with
them. -/
abbrev Evaluation := StateT (List Bytes) (Except Bytes)

namespace Evaluation

def fail {α : Type} (message : Bytes) : Evaluation α := throw message

def wrong {α : Type} (message : String) (argument : Bytes) : Evaluation α :=
  fail (Bytes.ofText ("syntax error: " ++ message) ++ argument.plainQuoted)

def used (all left : List Bytes) : Bytes := all.getD (all.length - left.length - 1) []

def needMore (all : List Bytes) : Evaluation Unit := do
  let left ← get
  if left.isEmpty then wrong "missing argument after " (used all left)

def takeWord? (words : List String) : Evaluation (Option String) := do
  match ← get with
  | [] => return none
  | argument :: rest =>
    match words.find? fun word => Bytes.ofText word = argument with
    | some word =>
      set rest
      return some word
    | none => return none

def takeAny (all : List Bytes) : Evaluation Bytes := do
  needMore all
  let left ← get
  set (left.drop 1)
  return left.headD []

def isNull (value : Bytes) : Bool :=
  match value.toChars with
  | [] => true
  | '-' :: digits => !digits.isEmpty && digits.all (· = '0')
  | digits => digits.all (· = '0')

def truth (holds : Bool) : Bytes := Bytes.ofText (if holds then "1" else "0")

def number (value : Bytes) : Evaluation Int :=
  match integer? value.toChars with
  | some value => return value
  | none => fail (Bytes.ofText "non-integer argument")

/-- Compare the start of a text with a pattern: what the first group has matched if there are
groups, otherwise how much has matched. -/
def matched (text pattern : Bytes) : Evaluation Bytes := do
  match readPattern false false pattern.toChars with
  | .error message => fail (Bytes.ofText message)
  | .ok found =>
    match found.pattern.best? (· == ·) found.groups text.toChars.toArray 0 with
    | none => return if found.groups = 0 then truth false else []
    | some place =>
      if found.groups = 0 then return decimal place.position
      else
        match place.groups.find? fun entry => entry.1 = 1 with
        | some (_, start, stop) => return (text.drop start).take (stop - start)
        | none => return []

def part (text start length : Bytes) : Bytes :=
  match integer? start.toChars, integer? length.toChars with
  | some start, some length =>
    if start ≤ 0 || length ≤ 0 then [] else (text.drop (start.toNat - 1)).take length.toNat
  | _, _ => []

def place (text chars : Bytes) : Bytes :=
  match text.findIdx? fun b => chars.contains b with
  | some i => decimal (i + 1)
  | none => truth false

/-- The order of two values: of numbers if both are, otherwise of texts. -/
def compareValues (operator : String) (left right : Bytes) : Bytes :=
  let order :=
    match integer? left.toChars, integer? right.toChars with
    | some a, some b => compare a b
    | _, _ =>
      if left = right then .eq else if left < right then .lt else .gt
  truth (match operator with
    | "<" => order == .lt
    | "<=" => order != .gt
    | "=" => order == .eq
    | "==" => order == .eq
    | "!=" => order != .eq
    | ">=" => order != .lt
    | _ => order == .gt)

def calculate (operator : String) (left right : Bytes) : Evaluation Bytes := do
  let a ← number left
  let b ← number right
  match operator with
  | "+" => return decimal (a + b)
  | "-" => return decimal (a - b)
  | "*" => return decimal (a * b)
  | _ =>
    if b = 0 then fail (Bytes.ofText "division by zero")
    return decimal (if operator = "/" then a.tdiv b else a.tmod b)

/-- How tightly an operation binds, from the loosest. -/
inductive Level where
  | either
  | both
  | order
  | sum
  | product
  | pattern
  deriving DecidableEq, Repr

def Level.operators : Level → List String
  | .either => ["|"]
  | .both => ["&"]
  | .order => ["<=", "<", "==", "=", "!=", ">=", ">"]
  | .sum => ["+", "-"]
  | .product => ["*", "/", "%"]
  | .pattern => [":"]

def Level.tighter? : Level → Option Level
  | .either => some .both
  | .both => some .order
  | .order => some .sum
  | .sum => some .product
  | .product => some .pattern
  | .pattern => none

def Level.needsRight (level : Level) (left : Bytes) : Bool :=
  match level with
  | .either => isNull left
  | .both => !isNull left
  | _ => true

def Level.apply (level : Level) (operator : String) (left right : Bytes) : Evaluation Bytes :=
  match level with
  | .either => return if !isNull left then left else if isNull right then truth false else right
  | .both => return if isNull left || isNull right then truth false else left
  | .order => return compareValues operator left right
  | .sum => calculate operator left right
  | .product => calculate operator left right
  | .pattern => matched left right

mutual

/-- An expression with operators of a level, in so many steps; `live` says whether its value
counts. -/
def expression (all : List Bytes) (live : Bool) (level : Level) : Nat → Evaluation Bytes
  | 0 => return []
  | steps + 1 => do
    let left ← operand all live level steps
    operations all live level left steps

def operand (all : List Bytes) (live : Bool) (level : Level) : Nat → Evaluation Bytes
  | 0 => return []
  | steps + 1 =>
    match level.tighter? with
    | some tighter => expression all live tighter steps
    | none => item all live steps

/-- The operators of a level and their right sides, in so many steps. -/
def operations (all : List Bytes) (live : Bool) (level : Level) (left : Bytes) :
    Nat → Evaluation Bytes
  | 0 => return left
  | steps + 1 => do
    match ← takeWord? level.operators with
    | none => return left
    | some operator =>
      let right ← operand all (live && level.needsRight left) level steps
      let value ←
        if live then level.apply operator left right else pure left
      operations all live level value steps

/-- A value, a function of values or an expression in parentheses, in so many steps. -/
def item (all : List Bytes) (live : Bool) : Nat → Evaluation Bytes
  | 0 => return []
  | steps + 1 => do
    match ← takeWord? ["+", "length", "match", "index", "substr", "("] with
    | some "+" => takeAny all
    | some "length" => return decimal (← item all live steps).length
    | some "match" =>
      let text ← item all live steps
      let pattern ← item all live steps
      if live then matched text pattern else return text
    | some "index" =>
      let text ← item all live steps
      let chars ← item all live steps
      return place text chars
    | some "substr" =>
      let text ← item all live steps
      let start ← item all live steps
      let length ← item all live steps
      return part text start length
    | some _ =>
      let value ← expression all live .either steps
      match ← get with
      | [] => wrong "expecting ')' after " (used all [])
      | argument :: rest =>
        if argument = Bytes.ofText ")" then
          set rest
          return value
        else wrong "expecting ')' instead of " argument
    | none =>
      let argument ← takeAny all
      if argument = Bytes.ofText ")" then fail (Bytes.ofText "syntax error: unexpected ')'")
      return argument

end

def all (arguments : List Bytes) : Evaluation Bytes := do
  let value ← expression arguments true .either (20 * arguments.length + 20)
  match ← get with
  | [] => return value
  | extra :: _ => wrong "unexpected argument " extra

end Evaluation

def expr (invocation : Invocation) : Steps Int := do
  let arguments :=
    match invocation.arguments with
    | first :: rest => if first = Bytes.ofText "--" then rest else first :: rest
    | [] => []
  if arguments.isEmpty then invocation.misuse (Bytes.ofText "missing operand") 2
  else
    match (Evaluation.all arguments).run arguments with
    | .error message => invocation.fail message 2
    | .ok (value, _) =>
      invocation.printOr 3 (value ++ Bytes.ofText "\n")
      return if Evaluation.isNull value then 1 else 0

end CommandShell.Tool
