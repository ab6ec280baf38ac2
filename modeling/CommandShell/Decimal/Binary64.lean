/-!
Nonnegative numbers of 53 significant bits: rounding an exact quotient to the nearest of them, a
half to the even neighbour. All arithmetic is on natural numbers.
-/

namespace CommandShell.Decimal

/-- The number `mantissa * 2 ^ exponent`. -/
structure Binary64 where
  mantissa : Nat
  exponent : Int
  deriving DecidableEq, Repr

namespace Binary64

def zero : Binary64 := ⟨0, 0⟩

def leastExponent : Int := -1074

/-- The largest exponent of a number with all its bits in use. -/
def greatestExponent : Int := 971

/-- The nearest whole number to a quotient, a half to the even neighbour. -/
def divideEven (numerator denominator : Nat) : Nat :=
  let quotient := numerator / denominator
  let rest := 2 * (numerator % denominator)
  if rest < denominator then quotient
  else if denominator < rest then quotient + 1
  else quotient + quotient % 2

/-- The quotient of a quotient and a power of two, as numerator and denominator. -/
def scaleDown (numerator denominator : Nat) (exponent : Int) : Nat × Nat :=
  if 0 ≤ exponent then (numerator, denominator * Nat.pow 2 exponent.toNat)
  else (numerator * Nat.pow 2 (-exponent).toNat, denominator)

/-- The number nearest to a quotient, or nothing if it is too large. -/
def round? (numerator denominator : Nat) : Option Binary64 :=
  if numerator = 0 || denominator = 0 then some zero
  else
    let estimate : Int := (Nat.log2 numerator : Int) - Nat.log2 denominator - 52
    let scaled := scaleDown numerator denominator estimate
    let exponent := if scaled.1 < scaled.2 * Nat.pow 2 52 then estimate - 1 else estimate
    let exponent := if exponent < leastExponent then leastExponent else exponent
    let scaled := scaleDown numerator denominator exponent
    let mantissa := divideEven scaled.1 scaled.2
    let rounded : Binary64 :=
      if mantissa = Nat.pow 2 53 then ⟨Nat.pow 2 52, exponent + 1⟩ else ⟨mantissa, exponent⟩
    if greatestExponent < rounded.exponent then none else some rounded

def quotient (number : Binary64) : Nat × Nat :=
  if 0 ≤ number.exponent then (number.mantissa * Nat.pow 2 number.exponent.toNat, 1)
  else (number.mantissa, Nat.pow 2 (-number.exponent).toNat)

def multiply? (a b : Binary64) : Option Binary64 :=
  round? (a.quotient.1 * b.quotient.1) (a.quotient.2 * b.quotient.2)

def divide? (a b : Binary64) : Option Binary64 :=
  round? (a.quotient.1 * b.quotient.2) (a.quotient.2 * b.quotient.1)

end Binary64

end CommandShell.Decimal
