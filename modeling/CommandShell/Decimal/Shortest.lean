import CommandShell.Decimal.Binary64

/-!
The fewest decimal digits that read back as the same number, and of those the nearest to it.
-/

namespace CommandShell.Decimal

/-- The number `0.digits * 10 ^ point`, where `count` is how many digits there are. -/
structure Digits where
  digits : Nat
  count : Nat
  point : Int
  deriving DecidableEq, Repr

namespace Binary64

/-- The exact number in quarters of its last bit, as a quotient. -/
def quarters (number : Binary64) (count : Nat) : Nat × Nat :=
  quotient ⟨count, number.exponent - 2⟩

/-- The least and the greatest quotient that round to the number; they do so themselves if the
mantissa is even. Below a power of two the neighbours are twice as dense. -/
def interval (number : Binary64) : (Nat × Nat) × (Nat × Nat) :=
  let below :=
    if number.mantissa = Nat.pow 2 52 && leastExponent < number.exponent then 1 else 2
  (number.quarters (4 * number.mantissa - below), number.quarters (4 * number.mantissa + 2))

def reads (number : Binary64) (numerator denominator : Nat) : Bool :=
  let (low, high) := number.interval
  let fromLow := numerator * low.2
  let toLow := low.1 * denominator
  let fromHigh := numerator * high.2
  let toHigh := high.1 * denominator
  if number.mantissa % 2 = 0 then toLow ≤ fromLow && fromHigh ≤ toHigh
  else toLow < fromLow && fromHigh < toHigh

def powerOfTen (power : Int) : Nat × Nat :=
  if 0 ≤ power then (Nat.pow 10 power.toNat, 1) else (1, Nat.pow 10 (-power).toNat)

/-- The number divided by a power of ten. -/
def inUnits (number : Binary64) (power : Int) : Nat × Nat :=
  let ten := powerOfTen power
  (number.quotient.1 * ten.2, number.quotient.2 * ten.1)

/-- Whether so many units of a power of ten round to the number. -/
def readsUnits (number : Binary64) (units : Nat) (power : Int) : Bool :=
  let ten := powerOfTen power
  number.reads (units * ten.1) ten.2

/-- How many units of a power of ten round to the number, if any do: the nearer of its two
neighbours first, and of two equally near the even one. -/
def nearest? (number : Binary64) (power : Int) : Option Nat :=
  let exact := number.inUnits power
  let low := exact.1 / exact.2
  let rest := 2 * (exact.1 % exact.2)
  let lowFirst := rest < exact.2 || (rest = exact.2 && low % 2 = 0)
  let candidates := if lowFirst then [low, low + 1] else [low + 1, low]
  candidates.find? fun units => 0 < units && number.readsUnits units power

/-- The least power of ten above the number, found from the given one downwards. -/
def pointFrom (number : Binary64) : Nat → Int → Int
  | 0, point => point
  | steps + 1, point =>
    let exact := number.inUnits (point - 1)
    if exact.1 < exact.2 then number.pointFrom steps (point - 1) else point

def point (number : Binary64) : Int := number.pointFrom 700 310

/-- The shortest digits, from the given number of them on, in so many tries. -/
def digitsFrom (number : Binary64) (point : Int) : Nat → Nat → Digits
  | 0, count => ⟨0, count, point⟩
  | tries + 1, count =>
    match number.nearest? (point - count) with
    | some units => if units = Nat.pow 10 count then ⟨1, 1, point + 1⟩ else ⟨units, count, point⟩
    | none => number.digitsFrom point tries (count + 1)

def shortest (number : Binary64) : Digits :=
  if number.mantissa = 0 then ⟨0, 1, 1⟩ else number.digitsFrom number.point 17 1

end Binary64

namespace Digits

def text (number : Digits) : List Char := Nat.toDigits 10 number.digits

/-- The number in writing: positional from 10⁻⁵ up to 10¹⁶, always with a digit on both sides of the
point, and otherwise with an exponent that shows its sign. -/
def render (number : Digits) : String :=
  let text := number.text
  let point := number.point
  String.ofList <|
    if 0 < point && point ≤ 16 then
      if number.count ≤ point.toNat then
        text ++ List.replicate (point.toNat - number.count) '0' ++ ['.', '0']
      else text.take point.toNat ++ '.' :: text.drop point.toNat
    else if -5 < point && point ≤ 0 then
      ['0', '.'] ++ List.replicate (-point).toNat '0' ++ text
    else
      let mantissa := if number.count = 1 then text else text.take 1 ++ '.' :: text.drop 1
      let exponent := point - 1
      mantissa ++ 'e' :: (if exponent < 0 then '-' else '+') :: Nat.toDigits 10 exponent.natAbs

end Digits

end CommandShell.Decimal
