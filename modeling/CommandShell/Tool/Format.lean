import CommandShell.Tool.Number

/-!
Directives of formats: how a number or a text is written into a field.
-/

namespace CommandShell.Tool

structure Directive where
  left : Bool := false
  plus : Bool := false
  /-- Whether a blank stands in place of a plus sign. -/
  space : Bool := false
  alternate : Bool := false
  zero : Bool := false
  width : Nat := 0
  precision : Option Nat := none
  deriving Repr

namespace Directive

def pad (directive : Directive) (chars : List Char) : List Char :=
  let blanks := List.replicate (directive.width - chars.length) ' '
  if directive.left then chars ++ blanks else blanks ++ chars

/-- Fill up a number with zeros or blanks. Its sign and base come before the zeros. -/
def padNumber (directive : Directive) (start digits : List Char) (zeros : Bool) : List Char :=
  if zeros && directive.zero && !directive.left then
    start ++ List.replicate (directive.width - start.length - digits.length) '0' ++ digits
  else directive.pad (start ++ digits)

/-- At least as many digits as the precision says; zero with a precision of zero has none. -/
def withPrecision (directive : Directive) (digits : List Char) : List Char :=
  match directive.precision with
  | none => digits
  | some 0 => if digits = ['0'] then [] else digits
  | some count => List.replicate (count - digits.length) '0' ++ digits

def sign (directive : Directive) (negative : Bool) : List Char :=
  if negative then ['-'] else if directive.plus then ['+'] else if directive.space then [' ']
  else []

def signed (directive : Directive) (value : Int) : List Char :=
  let digits := directive.withPrecision (decimalChars value.natAbs)
  directive.padNumber (directive.sign (value < 0)) digits directive.precision.isNone

def unsigned (directive : Directive) (letter : Char) (value : Nat) : List Char :=
  let base := if letter = 'o' then 8 else if letter = 'x' || letter = 'X' then 16 else 10
  let digits := directive.withPrecision (digitsIn base value)
  let digits :=
    if letter = 'o' && directive.alternate && digits.head? ≠ some '0' then '0' :: digits else digits
  let start :=
    if directive.alternate && value ≠ 0 && base = 16 then ['0', 'x'] else []
  let capital (chars : List Char) := if letter = 'X' then chars.map Char.toUpper else chars
  directive.padNumber (capital start) (capital digits) directive.precision.isNone

def text (directive : Directive) (chars : List Char) : List Char :=
  directive.pad (match directive.precision with | some count => chars.take count | none => chars)

/-- The power of ten of the first digit of a number that is not zero, in so many steps. -/
def magnitude (numerator denominator : Nat) : Nat → Int → Int
  | 0, power => power
  | steps + 1, power =>
    if 10 * denominator ≤ numerator then magnitude numerator (denominator * 10) steps (power + 1)
    else if numerator < denominator then magnitude (numerator * 10) denominator steps (power - 1)
    else power

/-- The digits of a number with so many of them behind the first one, and the power of ten of
that. -/
def significant (places : Nat) (numerator denominator : Nat) : List Char × Int :=
  if numerator = 0 then (List.replicate (places + 1) '0', 0)
  else
    let power := magnitude numerator denominator 100000 0
    let shift : Int := places - power
    let value :=
      if 0 ≤ shift then roundedQuotient (numerator * Nat.pow 10 shift.toNat) denominator
      else roundedQuotient numerator (denominator * Nat.pow 10 (-shift).toNat)
    let digits := decimalChars value
    if digits.length > places + 1 then (digits.take (places + 1), power + 1) else (digits, power)

def exponentText (power : Int) : List Char :=
  let digits := decimalChars power.natAbs
  let digits := if digits.length < 2 then '0' :: digits else digits
  (if power < 0 then '-' else '+') :: digits

def pointed (alternate : Bool) : List Char → List Char
  | [] => []
  | [c] => if alternate then [c, '.'] else [c]
  | c :: rest => c :: '.' :: rest

def withoutZeros (chars : List Char) : List Char :=
  if chars.contains '.' then
    let cut := (chars.reverse.dropWhile (· = '0'))
    (if cut.head? = some '.' then cut.drop 1 else cut).reverse
  else chars

/-- A number in base sixteen with a power of two behind it. The digit before the point has one
binary digit, or as many as make the others fill whole digits. -/
def hexadecimal (directive : Directive) (form : BinaryForm) (numerator denominator : Nat) :
    List Char :=
  let places := (form.bits - 1) / 4
  let (digits, power) := if numerator = 0 then (0, 0) else form.parts numerator denominator
  let exponent : Int := if numerator = 0 then 0 else power + 4 * places
  let kept := min places (directive.precision.getD places)
  let value := roundedQuotient digits (Nat.pow 16 (places - kept))
  let fraction := digitsIn 16 (value % Nat.pow 16 kept)
  let fraction := if kept = 0 then [] else List.replicate (kept - fraction.length) '0' ++ fraction
  let fraction :=
    match directive.precision with
    | none => (fraction.reverse.dropWhile (· = '0')).reverse
    | some count => fraction ++ List.replicate (count - kept) '0'
  let point := if fraction.isEmpty && !directive.alternate then [] else ['.']
  digitsIn 16 (value / Nat.pow 16 kept) ++ point ++ fraction ++
    'p' :: (if exponent < 0 then '-' else '+') :: decimalChars exponent.natAbs

/-- The digits of a number with a fraction, in the way that a letter stands for. -/
def measureDigits (directive : Directive) (form : BinaryForm) (letter : Char)
    (numerator denominator : Nat) : List Char :=
  let places := directive.precision.getD 6
  if letter = 'a' then directive.hexadecimal form numerator denominator
  else if letter = 'f' then
    let digits := fixedPoint places numerator denominator
    if places = 0 && directive.alternate then digits ++ ['.'] else digits
  else if letter = 'e' then
    let (digits, power) := significant places numerator denominator
    pointed directive.alternate digits ++ 'e' :: exponentText power
  else
    let places := max places 1
    let (digits, power) := significant (places - 1) numerator denominator
    let trim (chars : List Char) := if directive.alternate then chars else withoutZeros chars
    if power < -4 || (places : Int) ≤ power then
      trim (pointed directive.alternate digits) ++ 'e' :: exponentText power
    else trim (fixedPoint ((places : Int) - 1 - power).toNat numerator denominator)

def measured (directive : Directive) (form : BinaryForm) (letter : Char) (value : Measure) :
    List Char :=
  let shape (chars : List Char) := if letter.isUpper then chars.map Char.toUpper else chars
  match value with
  | .undefined => directive.pad (directive.sign false ++ shape ['n', 'a', 'n'])
  | .infinite negative => directive.pad (directive.sign negative ++ shape ['i', 'n', 'f'])
  | .finite numerator denominator =>
    let base := if letter.toLower = 'a' then ['0', 'x'] else []
    directive.padNumber (directive.sign (numerator < 0) ++ shape base)
      (shape (directive.measureDigits form letter.toLower numerator.natAbs denominator)) true

end Directive

end CommandShell.Tool
