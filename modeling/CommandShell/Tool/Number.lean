import CommandShell.Machine.Bytes

/-!
Numbers in the arguments and the output of programs.
-/

namespace CommandShell.Tool

/-- Blanks as programs see them, line breaks included. -/
def isSpace (c : Char) : Bool := c = ' ' || ('\t' ≤ c && c ≤ '\r')

def digitValue? (c : Char) : Option Nat :=
  if c.isDigit then some (c.toNat - 48)
  else if 'a' ≤ c && c ≤ 'f' then some (c.toNat - 87)
  else if 'A' ≤ c && c ≤ 'F' then some (c.toNat - 55)
  else none

def isDigitOf (base : Nat) (c : Char) : Bool :=
  match digitValue? c with
  | some value => value < base
  | none => false

def valueOf (base : Nat) (digits : List Char) : Nat :=
  digits.foldl (fun value c => value * base + (digitValue? c).getD 0) 0

def natural? (chars : List Char) : Option Nat :=
  if chars.isEmpty || !chars.all Char.isDigit then none else some (valueOf 10 chars)

def integer? (chars : List Char) : Option Int :=
  match chars with
  | '-' :: digits => (natural? digits).map fun value => -(value : Int)
  | _ => (natural? chars).map fun value => (value : Int)

def decimalChars (value : Int) : List Char := (toString value).toList

def decimal (value : Int) : Bytes := Bytes.ofChars (decimalChars value)

def digitsIn (base value : Nat) : List Char := Nat.toDigits base value

/-- What a text starts with that is a number: its value, whether it has a sign, and what comes
behind. -/
structure Leading where
  value : Int
  rest : List Char
  found : Bool

/-- The base that digits are written in if they may choose it, and the digits. -/
def chosenBase (chars : List Char) : Nat × List Char :=
  match chars with
  | '0' :: x :: c :: rest =>
    if (x = 'x' || x = 'X') && isDigitOf 16 c then (16, c :: rest) else (8, chars)
  | '0' :: _ => (8, chars)
  | _ => (10, chars)

/-- The number that a text starts with, behind blanks and with a sign or not. Without a base, zero
at its start means base eight, and an `x` behind it base sixteen. -/
def leading (base : Option Nat) (chars : List Char) : Leading :=
  let body := chars.dropWhile isSpace
  let (negative, unsigned) :=
    match body with
    | '-' :: rest => (true, rest)
    | '+' :: rest => (false, rest)
    | _ => (false, body)
  let (base, unsigned) :=
    match base with
    | some base => (base, unsigned)
    | none => chosenBase unsigned
  let digits := unsigned.takeWhile (isDigitOf base)
  if digits.isEmpty then ⟨0, chars, false⟩
  else
    let value : Int := valueOf base digits
    ⟨if negative then -value else value, unsigned.drop digits.length, true⟩

inductive Amount where
  | ok (value : Nat)
  | invalid
  | tooLarge
  deriving DecidableEq, Repr

def amountLimit : Nat := Nat.pow 2 64

/-- The power of a thousand or so that a letter stands for. -/
def unitPower? (c : Char) : Option Nat :=
  match c with
  | 'k' => some 1
  | 'K' => some 1
  | 'm' => some 2
  | 'M' => some 2
  | 'G' => some 3
  | 'T' => some 4
  | 'P' => some 5
  | 'E' => some 6
  | 'Z' => some 7
  | 'Y' => some 8
  | 'R' => some 9
  | 'Q' => some 10
  | _ => none

def unitFactor? : List Char → Option Nat
  | [] => some 1
  | ['b'] => some 512
  | c :: rest =>
    match unitPower? c, rest with
    | some power, [] => some (Nat.pow 1024 power)
    | some power, ['i', 'B'] => some (Nat.pow 1024 power)
    | some power, ['B'] => some (Nat.pow 1000 power)
    | some power, ['D'] => some (Nat.pow 1000 power)
    | _, _ => none

def amount (chars : List Char) : Amount :=
  if (chars.dropWhile isSpace).head? = some '-' then .invalid
  else
    let number := leading (some 10) chars
    let hasUnit := match chars with | c :: _ => c = 'b' || (unitPower? c).isSome | [] => false
    if !number.found && !hasUnit then .invalid
    else
      let value := if number.found then number.value.toNat else 1
      match unitFactor? number.rest with
      | none => .invalid
      | some factor => if amountLimit ≤ value * factor then .tooLarge else .ok (value * factor)

/-! Numbers with fractions -/

inductive Measure where
  | finite (numerator : Int) (denominator : Nat)
  | infinite (negative : Bool)
  | undefined
  deriving DecidableEq, Repr

def exponentOf (letters : List Char) (chars : List Char) : Int × List Char :=
  match chars with
  | c :: rest =>
    if letters.contains c then
      let (negative, digits) :=
        match rest with
        | '-' :: rest => (true, rest)
        | '+' :: rest => (false, rest)
        | _ => (false, rest)
      let found := digits.takeWhile Char.isDigit
      if found.isEmpty then (0, chars)
      else
        let value : Int := min (valueOf 10 found) 100000
        (if negative then -value else value, digits.drop found.length)
    else (0, chars)
  | [] => (0, [])

def scaled (value denominator base : Nat) (exponent : Int) : Nat × Nat :=
  if 0 ≤ exponent then (value * Nat.pow base exponent.toNat, denominator)
  else (value, denominator * Nat.pow base (-exponent).toNat)

/-- Digits with a point in a base, and an exponent behind one of some letters. -/
def fraction? (base exponentBase : Nat) (letters chars : List Char) :
    Option ((Nat × Nat) × List Char) :=
  let whole := chars.takeWhile (isDigitOf base)
  let rest := chars.drop whole.length
  let part := if rest.head? = some '.' then (rest.drop 1).takeWhile (isDigitOf base) else []
  if whole.isEmpty && part.isEmpty then none
  else
    let rest := if rest.head? = some '.' then rest.drop (part.length + 1) else rest
    let (exponent, rest) := exponentOf letters rest
    some (scaled (valueOf base (whole ++ part)) (Nat.pow base part.length) exponentBase exponent,
      rest)

def startsWith (word : String) (chars : List Char) : Bool :=
  word.toList.isPrefixOf (chars.map Char.toLower)

/-- The number with a fraction that a text starts with, and what comes behind it. -/
def measure? (chars : List Char) : Option (Measure × List Char) :=
  let body := chars.dropWhile isSpace
  let (negative, unsigned) :=
    match body with
    | '-' :: rest => (true, rest)
    | '+' :: rest => (false, rest)
    | _ => (false, body)
  let signed (found : (Nat × Nat) × List Char) : Measure × List Char :=
    let numerator : Int := found.1.1
    (.finite (if negative then -numerator else numerator) found.1.2, found.2)
  if startsWith "infinity" unsigned then some (.infinite negative, unsigned.drop 8)
  else if startsWith "inf" unsigned then some (.infinite negative, unsigned.drop 3)
  else if startsWith "nan" unsigned then some (.undefined, unsigned.drop 3)
  else
    let plain := (fraction? 10 10 ['e', 'E'] unsigned).map signed
    match unsigned with
    | '0' :: x :: rest =>
      if x = 'x' || x = 'X' then
        match fraction? 16 2 ['p', 'P'] rest with
        | some found => some (signed found)
        | none => plain
      else plain
    | _ => plain

def wholeMeasure? (chars : List Char) : Option Measure :=
  match measure? chars with
  | some (value, []) => some value
  | _ => none

/-- The quotient of two numbers, rounded to the nearest whole number, halves to the even one. -/
def roundedQuotient (numerator denominator : Nat) : Nat :=
  let quotient := numerator / denominator
  let twice := 2 * (numerator % denominator)
  if twice < denominator then quotient
  else if denominator < twice then quotient + 1
  else if quotient % 2 = 0 then quotient else quotient + 1

/-- How numbers with fractions are kept: with so many binary digits, the first of which stands for a
power of two between bounds. -/
structure BinaryForm where
  bits : Nat
  least : Int
  greatest : Int

namespace BinaryForm

def double : BinaryForm := ⟨53, -1022, 1023⟩

def extended : BinaryForm := ⟨64, -16382, 16383⟩

def units (numerator denominator : Nat) (power : Int) : Nat :=
  if 0 ≤ power then roundedQuotient numerator (denominator * Nat.pow 2 power.toNat)
  else roundedQuotient (numerator * Nat.pow 2 (-power).toNat) denominator

/-- The power of two that the first binary digit of a fraction stands for. -/
def firstPower (numerator denominator : Nat) : Int :=
  let power : Int := (numerator.log2 : Int) - denominator.log2
  let reached : Bool :=
    if 0 ≤ power then denominator * Nat.pow 2 power.toNat ≤ numerator
    else denominator ≤ numerator * Nat.pow 2 (-power).toNat
  if reached then power else power - 1

/-- The binary digits of a number, and the power of two of the last of them. -/
def parts (form : BinaryForm) (numerator denominator : Nat) : Nat × Int :=
  let power := max (firstPower numerator denominator) form.least - form.bits + 1
  let digits := units numerator denominator power
  if digits = Nat.pow 2 form.bits then (digits / 2, power + 1) else (digits, power)

/-- The number that is kept for another one, and whether that one is too large or too small for
it. -/
def keep (form : BinaryForm) (value : Measure) : Measure × Bool :=
  match value with
  | .finite numerator denominator =>
    if numerator = 0 then (value, false)
    else
      let (digits, power) := form.parts numerator.natAbs denominator
      if form.greatest < firstPower digits 1 + power then (.infinite (numerator < 0), true)
      else
        let (kept, unit) := scaled digits 1 2 power
        let signed : Int := if numerator < 0 then -kept else kept
        let small := firstPower numerator.natAbs denominator < form.least
        (.finite signed unit, small && signed * denominator ≠ numerator * unit)
  | _ => (value, false)

end BinaryForm

def fixedPoint (places : Nat) (numerator : Int) (denominator : Nat) : List Char :=
  let digits := decimalChars (roundedQuotient (numerator.natAbs * Nat.pow 10 places) denominator)
  let digits := List.replicate (places + 1 - digits.length) '0' ++ digits
  let whole := digits.take (digits.length - places)
  let part := digits.drop (digits.length - places)
  (if numerator < 0 then ['-'] else []) ++ whole ++ (if places = 0 then [] else '.' :: part)

end CommandShell.Tool
