import CommandShell.Decimal.Shortest
import CommandShell.Json.Cursor

/-!
Numbers in a JSON document. A number is whole if it is written without a fraction or an exponent and
fits 64 bits. Any other becomes a number of 53 significant bits: its first digits, as many as fit 64
bits, are taken for a whole number, which is then multiplied or divided by a power of ten.
-/

namespace CommandShell.Json

open Decimal (Binary64)

def greatestNatural : Nat := Nat.pow 2 64 - 1

/-- The largest exponent that is read to its end. -/
def greatestExponent : Nat := Nat.pow 2 31 - 1

def digitValue (c : Char) : Nat := c.toNat - 48

def digitsAt (cursor : Cursor) : List Char := cursor.rest.takeWhile Char.isDigit

def behindDigits (cursor : Cursor) (count : Nat) : Cursor :=
  ⟨cursor.rest.drop count, cursor.offset + count⟩

/-- Digits appended to a whole number as long as it fits, and how many were. -/
def appendDigits (significand : Nat) : List Char → Nat × Nat
  | [] => (significand, 0)
  | c :: digits =>
    let next := significand * 10 + digitValue c
    if greatestNatural < next then (significand, 0)
    else
      let (result, used) := appendDigits next digits
      (result, used + 1)

def powerOfTen (power : Nat) : Binary64 := (Binary64.round? (Nat.pow 10 power) 1).getD .zero

/-- Divide by powers of ten until none is left. -/
def divideByPower : Nat → Binary64 → Nat → Binary64
  | 0, number, _ => number
  | steps + 1, number, power =>
    if power ≤ 308 then (number.divide? (powerOfTen power)).getD .zero
    else if number.mantissa = 0 then .zero
    else divideByPower steps ((number.divide? (powerOfTen 308)).getD .zero) (power - 308)

/-- A whole number times a power of ten, or nothing if it is too large. -/
def scale? (significand : Nat) (exponent : Int) : Option Binary64 := do
  let number ← Binary64.round? significand 1
  if exponent < 0 then return divideByPower 4 number exponent.natAbs
  else if exponent ≤ 308 then number.multiply? (powerOfTen exponent.toNat)
  else if significand = 0 then return .zero
  else none

/-- A number that is not whole, at the place behind it. -/
def finishFloat (negative : Bool) (significand : Nat) (exponent : Int) :
    Reader Found := fun cursor =>
  match scale? significand exponent with
  | none => .error (cursor.behind .outOfRange)
  | some number =>
    .ok (.float ((if negative then "-" else "") ++ number.shortest.render), cursor)

/-- How many of the digits an exponent can take. -/
def exponentLength (value : Nat) : List Char → Nat
  | [] => 0
  | c :: digits =>
    let next := value * 10 + digitValue c
    if greatestExponent < next then 0 else exponentLength next digits + 1

def readExponent (negative : Bool) (significand : Nat) (exponent : Int) :
    Reader Found := fun cursor =>
  let cursor := cursor.advance
  let signed := cursor.rest.head? = some '+' || cursor.rest.head? = some '-'
  let down := cursor.rest.head? = some '-'
  let cursor := if signed then cursor.advance else cursor
  match cursor.rest with
  | [] => .error (cursor.behind .endInValue)
  | c :: _ =>
    if c.isDigit then
      let digits := digitsAt cursor
      let used := exponentLength 0 digits
      if used < digits.length then
        if significand ≠ 0 && !down then
          .error ((behindDigits cursor (used + 1)).behind .outOfRange)
        else finishFloat negative 0 0 (behindDigits cursor digits.length)
      else
        let size : Int := digits.foldl (fun value c => value * 10 + digitValue c) 0
        finishFloat negative significand (if down then exponent - size else exponent + size)
          (behindDigits cursor digits.length)
    else .error (cursor.ahead .brokenNumber)

def atExponent (cursor : Cursor) : Bool :=
  cursor.rest.head? = some 'e' || cursor.rest.head? = some 'E'

def readFraction (negative : Bool) (significand : Nat) (exponent : Int) :
    Reader Found := fun cursor =>
  let cursor := cursor.advance
  let digits := digitsAt cursor
  let (significand, used) := appendDigits significand digits
  let behind := behindDigits cursor digits.length
  let exponent := exponent - used
  if digits.isEmpty then
    .error (cursor.ahead (if cursor.rest.isEmpty then .endInValue else .brokenNumber))
  else if atExponent behind then readExponent negative significand exponent behind
  else finishFloat negative significand exponent behind

/-- A whole number without its sign. Zero has no negative. -/
def whole (negative : Bool) (value : Nat) : Found :=
  if !negative then .natural value
  else if 0 < value && value ≤ Nat.pow 2 63 then .negative (-value)
  else
    .float ("-" ++ ((Binary64.round? value 1).getD .zero).shortest.render)

def readNumber (negative : Bool) : Reader Found := fun cursor =>
  match cursor.rest with
  | [] => .error (cursor.behind .endInValue)
  | c :: _ =>
    if !c.isDigit then .error ⟨.brokenNumber, cursor.offset + 1⟩
    else
      let digits := digitsAt cursor
      if c = '0' && 1 < digits.length then .error (cursor.advance.ahead .brokenNumber)
      else
        let (significand, used) := appendDigits 0 digits
        let behind := behindDigits cursor digits.length
        let exponent : Int := digits.length - used
        if behind.rest.head? = some '.' then readFraction negative significand exponent behind
        else if atExponent behind then readExponent negative significand exponent behind
        else if used = digits.length then .ok (whole negative significand, behind)
        else finishFloat negative significand exponent behind

end CommandShell.Json
