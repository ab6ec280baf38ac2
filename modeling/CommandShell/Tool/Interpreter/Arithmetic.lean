import CommandShell.Tool.Interpreter.Variables

/-!
Arithmetic in words, on whole numbers of 64 bits.
-/

namespace CommandShell.Interpreter

inductive Symbol where
  | number (value : Int)
  | name (name : List Char)
  | sign (text : String)
  | nothing
  | unknown
  deriving DecidableEq, Repr

namespace Symbol

def signs : List String :=
  ["<<=", ">>=", "<<", ">>", "<=", ">=", "==", "!=", "&&", "||", "+=", "-=", "*=", "/=", "%=", "&=",
    "^=", "|=", "=", "<", ">", "!", "~", "&", "|", "^", "+", "-", "*", "/", "%", "?", ":", "(", ")"]

def bounded (value : Int) : Int := max leastInteger (min greatestInteger value)

def next (chars : List Char) : Symbol × List Char :=
  match chars.dropWhile fun c => c = ' ' || c = '\t' || c = '\n' with
  | [] => (.nothing, [])
  | c :: rest =>
    if c.isDigit then
      let found := Tool.leading none (c :: rest)
      (.number (bounded found.value), found.rest)
    else if isNameStart c then
      let name := c :: rest.takeWhile isNameChar
      (.name name, (c :: rest).drop name.length)
    else
      match signs.find? fun text => text.toList.isPrefixOf (c :: rest) with
      | some text => (.sign text, (c :: rest).drop text.length)
      | none => (.unknown, c :: rest)

/-- How tightly an operator binds, from zero for the tightest. -/
def rank? (sign : String) : Option Nat :=
  match sign with
  | "*" => some 0
  | "/" => some 0
  | "%" => some 0
  | "+" => some 1
  | "-" => some 1
  | "<<" => some 2
  | ">>" => some 2
  | "<" => some 3
  | "<=" => some 3
  | ">" => some 3
  | ">=" => some 3
  | "==" => some 4
  | "!=" => some 4
  | "&" => some 5
  | "^" => some 6
  | "|" => some 7
  | _ => none

/-- The operator that is applied before a value is given to a variable. -/
def assigning? (sign : String) : Option (Option String) :=
  match sign with
  | "=" => some none
  | "+=" => some (some "+")
  | "-=" => some (some "-")
  | "*=" => some (some "*")
  | "/=" => some (some "/")
  | "%=" => some (some "%")
  | "<<=" => some (some "<<")
  | ">>=" => some (some ">>")
  | "&=" => some (some "&")
  | "^=" => some (some "^")
  | "|=" => some (some "|")
  | _ => none

end Symbol

structure Calculation where
  state : State
  expression : List Char
  rest : List Char
  symbol : Symbol := .nothing

abbrev Calculating := StateT Calculation (Except (List Char))

namespace Calculating

def fail {α : Type} (message : String) : Calculating α := do
  throw (("arithmetic expression: " ++ message ++ ": \"").toList ++ (← get).expression ++ ['\x22'])

def advance : Calculating Unit :=
  modify fun calculation =>
    let (symbol, rest) := Symbol.next calculation.rest
    { calculation with symbol, rest }

def wrap (value : Int) : Int := Int.bmod value (Nat.pow 2 64)

def bits (value : Int) : Nat := (value % Nat.pow 2 64).toNat

def truth (holds : Bool) : Int := if holds then 1 else 0

def apply (sign : String) (a b : Int) : Calculating Int :=
  match sign with
  | "*" => return wrap (a * b)
  | "/" => if b = 0 then fail "division by zero" else return wrap (a.tdiv b)
  | "%" => if b = 0 then fail "division by zero" else return a.tmod b
  | "+" => return wrap (a + b)
  | "-" => return wrap (a - b)
  | "<<" => return wrap (a * Nat.pow 2 (bits b % 64))
  | ">>" => return a.fdiv (Nat.pow 2 (bits b % 64))
  | "<" => return truth (a < b)
  | "<=" => return truth (a ≤ b)
  | ">" => return truth (a > b)
  | ">=" => return truth (a ≥ b)
  | "==" => return truth (a = b)
  | "!=" => return truth (a ≠ b)
  | "&" => return wrap (bits a &&& bits b : Nat)
  | "^" => return wrap (bits a ^^^ bits b : Nat)
  | _ => return wrap (bits a ||| bits b : Nat)

def valueOf (name : List Char) : Calculating Int := do
  let chars := ((← get).state.lookup name).getD []
  match integerOf? none chars with
  | some value => return value
  | none => throw (illegalNumber chars)

def setValue (name : List Char) (value : Int) : Calculating Unit := do
  let calculation ← get
  match calculation.state.assign name (digitsOf value) false with
  | .ok state => set { calculation with state }
  | .error message => throw message

mutual

/-- An assignment or a choice, in so many steps; `live` says whether its value counts. -/
def assignment (live : Bool) : Nat → Calculating Int
  | 0 => return 0
  | steps + 1 => do
    let calculation ← get
    match calculation.symbol, Symbol.next calculation.rest with
    | .name name, (.sign sign, _) =>
      match Symbol.assigning? sign with
      | some operator =>
        advance
        advance
        let value ← assignment live steps
        if !live then return value
        let value ←
          match operator with
          | some operator => apply operator (← valueOf name) value
          | none => pure value
        setValue name value
        return value
      | none => choice live steps
    | _, _ => choice live steps

def choice (live : Bool) : Nat → Calculating Int
  | 0 => return 0
  | steps + 1 => do
    let test ← either live steps
    if (← get).symbol ≠ .sign "?" then return test
    advance
    let yes ← assignment (live && test ≠ 0) steps
    if (← get).symbol ≠ .sign ":" then fail "expecting ':'"
    advance
    let no ← choice (live && test = 0) steps
    return if test ≠ 0 then yes else no

def either (live : Bool) : Nat → Calculating Int
  | 0 => return 0
  | steps + 1 => do
    let a ← both live steps
    if (← get).symbol ≠ .sign "||" then return a
    advance
    let b ← either (live && a = 0) steps
    return truth (a ≠ 0 || b ≠ 0)

def both (live : Bool) : Nat → Calculating Int
  | 0 => return 0
  | steps + 1 => do
    let first ← primary live steps
    let a ← operations live 8 first steps
    if (← get).symbol ≠ .sign "&&" then return a
    advance
    let b ← both (live && a ≠ 0) steps
    return truth (a ≠ 0 && b ≠ 0)

/-- The operators that bind more tightly than a rank, and their right sides, in so many steps. -/
def operations (live : Bool) (rank : Nat) (left : Int) : Nat → Calculating Int
  | 0 => return left
  | steps + 1 => do
    match (← get).symbol with
    | .sign sign =>
      match Symbol.rank? sign with
      | some own =>
        if own < rank then
          advance
          let first ← primary live steps
          let right ← operations live own first steps
          let value ← if live then apply sign left right else pure right
          operations live rank value steps
        else return left
      | none => return left
    | _ => return left

def primary (live : Bool) : Nat → Calculating Int
  | 0 => return 0
  | steps + 1 => do
    match (← get).symbol with
    | .number value =>
      advance
      return value
    | .name name =>
      advance
      if live then valueOf name else return 0
    | .sign "(" =>
      advance
      let value ← assignment live steps
      if (← get).symbol ≠ .sign ")" then fail "expecting ')'"
      advance
      return value
    | .sign "+" =>
      advance
      primary live steps
    | .sign "-" =>
      advance
      return wrap (-(← primary live steps))
    | .sign "!" =>
      advance
      return truth ((← primary live steps) = 0)
    | .sign "~" =>
      advance
      return -(← primary live steps) - 1
    | _ => fail "expecting primary"

end

def whole (steps : Nat) : Calculating Int := do
  advance
  let value ← assignment true steps
  if (← get).symbol ≠ .nothing then fail "expecting EOF"
  return value

end Calculating

def calculate (state : State) (expression : List Char) : Except (List Char) (Int × State) :=
  match (Calculating.whole (20 * expression.length + 20)).run
      { state, expression, rest := expression } with
  | .ok (value, calculation) => .ok (value, calculation.state)
  | .error message => .error message

end CommandShell.Interpreter
