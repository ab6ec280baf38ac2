import CommandShell.Tool.Basic
import CommandShell.Tool.Format

/-!
`seq`, which prints numbers from one to another.
-/

namespace CommandShell.Tool

/-- A number of `seq`, with what its text says about how numbers are printed. -/
structure Bound where
  value : Measure
  /-- How many digits it has behind the point, if that can be told. -/
  places : Option Nat
  width : Int

def writtenExponent (chars : List Char) : Option Int :=
  match chars.dropWhile fun c => c ≠ 'e' && c ≠ 'E' with
  | _ :: rest => some (leading (some 10) rest).value
  | [] => none

/-- How many digits a text of a number has behind the point, and how many characters. -/
def writtenShape (chars : List Char) : Nat × Int :=
  let fraction := (chars.dropWhile (· ≠ '.')).drop 1
  let fractionLength := (fraction.takeWhile fun c => c ≠ 'e' && c ≠ 'E').length
  let hasPoint := chars.contains '.'
  let before := (chars.takeWhile (· ≠ '.')).getLast?
  let width : Int := chars.length
  let width :=
    if !hasPoint then width
    else if fractionLength = 0 then width - 1
    else if (before.map Char.isDigit).getD false then width
    else width + 1
  let places := if hasPoint then fractionLength else 0
  match writtenExponent chars with
  | none => (places, width)
  | some exponent =>
    let tail : Int := (chars.dropWhile fun c => c ≠ 'e' && c ≠ 'E').length
    let width := width - tail
    if exponent < 0 then
      let width := if hasPoint then if fractionLength = 0 then width + 1 else width else width + 1
      (places + exponent.natAbs, width + exponent.natAbs)
    else
      let places := places - min places exponent.toNat
      let width := if hasPoint && places = 0 && fractionLength ≠ 0 then width - 1 else width
      (places, width + (exponent.toNat - min fractionLength exponent.toNat : Nat))

def bound? (argument : Bytes) : Except Bytes Bound :=
  let chars := argument.toChars
  match wholeMeasure? chars with
  | none => .error (Bytes.ofText "invalid floating point argument: " ++ argument.plainQuoted)
  | some .undefined =>
    .error (Bytes.ofText "invalid 'not-a-number' argument: " ++ argument.plainQuoted)
  | some value =>
    let chars := chars.dropWhile fun c => isSpace c || c = '+'
    match value with
    | .finite _ _ =>
      if chars.any fun c => c = 'x' || c = 'X' then
        .ok ⟨value, if chars.any fun c => c = '.' || c = 'p' then none else some 0, 0⟩
      else
        let (places, width) := writtenShape chars
        .ok ⟨value, some places, width⟩
    | _ => .ok ⟨value, some 0, 0⟩

structure Range where
  first : Int
  step : Int
  /-- Nothing for a range without an end. -/
  last : Option Int
  denominator : Nat

def Range.count (range : Range) : Nat :=
  match range.last with
  | none => patience
  | some last =>
    if 0 < range.step then ((last - range.first) / range.step + 1).toNat
    else if range.step < 0 then ((range.first - last) / (-range.step) + 1).toNat
    else patience

def numbersFrom (first step : Int) : Nat → List Int
  | 0 => []
  | count + 1 => first :: numbersFrom (first + step) step count

structure Layout where
  separator : Bytes
  places : Nat
  /-- All numbers are as wide as this, with zeros. -/
  width : Nat

def Layout.number (layout : Layout) (value : Int) (denominator : Nat) : Bytes :=
  let directive : Directive :=
    { zero := true, width := layout.width, precision := some layout.places }
  Bytes.ofChars (directive.measured .extended 'f' (.finite value denominator))

/-- Print numbers, a piece at a time, in so many pieces at most. -/
def printNumbers (invocation : Invocation) (layout : Layout) (range : Range) :
    Nat → Int → Nat → Steps Unit
  | 0, _, _ => return ()
  | pieces + 1, first, count => do
    let size := min count 1000
    let numbers := numbersFrom first range.step size
    let texts := numbers.map fun value => layout.number value range.denominator
    let more := size < count
    let text := layout.separator.intercalate texts
    invocation.print (if more then text ++ layout.separator else text)
    if more then
      printNumbers invocation layout range pieces (first + range.step * size) (count - size)

def rangeOf (first step last : Measure) : Option Range :=
  match first, step with
  | .finite firstNumerator firstDenominator, .finite stepNumerator stepDenominator =>
    match last with
    | .finite lastNumerator lastDenominator =>
      some
        { first := firstNumerator * stepDenominator * lastDenominator
          step := stepNumerator * firstDenominator * lastDenominator
          last := some (lastNumerator * firstDenominator * stepDenominator)
          denominator := firstDenominator * stepDenominator * lastDenominator }
    | .infinite negative =>
      let range : Range :=
        { first := firstNumerator * stepDenominator
          step := stepNumerator * firstDenominator
          last := none
          denominator := firstDenominator * stepDenominator }
      if negative = (stepNumerator < 0) then some range
      else some { range with last := some (range.first - range.step) }
    | .undefined => none
  | _, _ => none

def isZero : Measure → Bool
  | .finite numerator _ => numerator = 0
  | _ => false

/-! Numbers in a form that was asked for -/

/-- A form in which numbers are printed: a directive and what stands around it. -/
structure Template where
  before : List Char := []
  directive : Directive := {}
  letter : Char := 'g'
  after : List Char := []

def singlePercents : List Char → List Char
  | '%' :: '%' :: rest => '%' :: singlePercents rest
  | c :: rest => c :: singlePercents rest
  | [] => []

/-- The text before the first directive and what comes behind its percent sign. -/
def untilDirective (read : List Char) : List Char → Option (List Char × List Char)
  | [] => none
  | '%' :: '%' :: rest => untilDirective ('%' :: read) rest
  | '%' :: rest => some (read.reverse, rest)
  | c :: rest => untilDirective (c :: read) rest

def template? (text : Bytes) : Except Bytes Template := do
  let refuse {α : Type} (message : List Char) : Except Bytes α :=
    .error (Bytes.ofText "format " ++ text.plainQuoted ++ Bytes.ofChars message)
  match untilDirective [] text.toChars with
  | none => refuse " has no % directive".toList
  | some (before, rest) =>
    let flags := rest.takeWhile fun c => ['-', '+', '#', '0', ' ', '\x27'].contains c
    let rest := rest.drop flags.length
    let width := rest.takeWhile Char.isDigit
    let rest := rest.drop width.length
    let (precision, rest) : Option Nat × List Char :=
      match rest with
      | '.' :: rest =>
        let digits := rest.takeWhile Char.isDigit
        (some (valueOf 10 digits), rest.drop digits.length)
      | _ => (none, rest)
    match if rest.head? = some 'L' then rest.drop 1 else rest with
    | [] => refuse " ends in %".toList
    | letter :: after =>
      if !"efgaEFGA".toList.contains letter then
        refuse (" has unknown %".toList ++ letter :: " directive".toList)
      else if (untilDirective [] after).isSome then refuse " has too many % directives".toList
      else
        let directive : Directive :=
          { left := flags.contains '-', plus := flags.contains '+', space := flags.contains ' ',
            alternate := flags.contains '#', zero := flags.contains '0',
            width := valueOf 10 width, precision }
        return { before, directive, letter, after := singlePercents after }

def Template.fill (template : Template) (value : Measure) : List Char :=
  template.directive.measured .extended template.letter value

def stepped (first step : Measure) (count : Nat) : Measure :=
  let keep (value : Measure) : Measure := (BinaryForm.extended.keep value).1
  match keep first, keep step with
  | .finite a d, .finite b e =>
    match keep (.finite (b * count) e) with
    | .finite b e => keep (.finite (a * e + b * d) (d * e))
    | other => other
  | other, _ => other

def isBeyond (backwards : Bool) (value last : Measure) : Bool :=
  match value, last with
  | .finite a d, .finite b e => if backwards then a * e < b * d else b * d < a * e
  | .finite _ _, .infinite negative => negative != backwards
  | .infinite negative, .infinite other => negative != other && negative = backwards
  | .infinite negative, .finite _ _ => negative = backwards
  | _, _ => false

/-- Whether a number just beyond the last one is printed all the same: its text is that of the last
number, and not that of the one before. -/
def isLastInText (template : Template) (previous value last : Measure) : Bool :=
  let text := template.fill value
  match wholeMeasure? text with
  | some shown =>
    let same : Bool :=
      match (BinaryForm.extended.keep shown).1, last with
      | .finite a d, .finite b e => a * e = b * d
      | a, b => a = b
    same && template.fill previous ≠ text
  | none => false

/-- Print numbers in a form, from so many steps on, in so many rounds. -/
def printFilled (invocation : Invocation) (template : Template) (separator : Bytes)
    (first step last : Measure) (backwards : Bool) (count : Nat) : Nat → Steps Unit
  | 0 => return ()
  | rounds + 1 => do
    let value := stepped first step count
    let previous := stepped first step (count - 1)
    let beyond := isBeyond backwards value last
    if beyond && (count = 0 || !isLastInText template previous value last) then
      invocation.print (if count = 0 then [] else Bytes.ofText "\n")
    else
      invocation.print ((if count = 0 then [] else separator) ++
        Bytes.ofChars (template.before ++ template.fill value ++ template.after))
      if beyond then invocation.print (Bytes.ofText "\n")
      else printFilled invocation template separator first step last backwards (count + 1) rounds

def printRange (invocation : Invocation) (parsed : Parsed) (template : Option Template)
    (first step last : Bound) : Steps Int := do
  let separator := (parsed.value? 's').getD (Bytes.ofText "\n")
  let filled (template : Template) : Steps Int := do
    let backwards :=
      match step.value with | .finite n _ => n < 0 | .infinite negative => negative | _ => false
    let last := (BinaryForm.extended.keep last.value).1
    printFilled invocation template separator first.value step.value last backwards 0 patience
    return 0
  match template, first.places, step.places, last.places with
  | some template, _, _, _ => filled template
  | none, some firstPlaces, some stepPlaces, some lastPlaces =>
    match rangeOf first.value step.value last.value with
    | none => return 0
    | some range =>
      let places := max firstPlaces stepPlaces
      let widthOf (width : Int) (given : Nat) : Int :=
        -- The last number is printed with as many digits behind the point as the others.
        if given = 0 && places ≠ 0 then width + places + 1
        else width + places - given - (if places = 0 && given ≠ 0 then 1 else 0)
      let width :=
        if parsed.has 'w' then max (widthOf first.width firstPlaces) (widthOf last.width lastPlaces)
        else 0
      let count := range.count
      if count = 0 then return 0
      let layout : Layout := ⟨separator, places, width.toNat⟩
      printNumbers invocation layout range (count + 1) range.first count
      invocation.print (Bytes.ofText "\n")
      return 0
  | none, _, _, _ => filled {}

/-- Arguments of `seq` that start like a number are no options. -/
def isNegativeNumber (argument : Bytes) : Bool :=
  match argument.toChars with
  | '-' :: c :: _ => c = '.' || c.isDigit
  | _ => false

def sequenceArguments (arguments : List Bytes) : Except Misread Parsed := do
  let rules : List OptionRule :=
    [{ key := 'f', word := "format", needs := .value },
      { key := 's', word := "separator", needs := .value }, { key := 'w', word := "equal-width" }]
  let rec split (read : List Bytes) : List Bytes → List Bytes × List Bytes
    | [] => (read.reverse, [])
    | argument :: rest =>
      if isNegativeNumber argument then (read.reverse, argument :: rest)
      else split (argument :: read) rest
  let (options, numbers) := split [] arguments
  let parsed ← parseFrom (rules ++ standardRules) false {} 0 options
  return { parsed with operands := parsed.operands ++ numbers }

def seq (invocation : Invocation) : Steps Int := do
  match sequenceArguments invocation.arguments with
  | .error misread => invocation.misuse misread.message 1
  | .ok parsed =>
    let one : Bound := ⟨.finite 1 1, some 0, 1⟩
    let refuse (message : Bytes) : Steps Int := invocation.misuse message 1
    let print (template : Option Template) : Steps Int :=
      match parsed.operands with
      | [last] =>
        match bound? last with
        | .ok last => printRange invocation parsed template one one last
        | .error message => refuse message
      | [first, last] =>
        match bound? first, bound? last with
        | .ok first, .ok last => printRange invocation parsed template first one last
        | .error message, _ => refuse message
        | _, .error message => refuse message
      | first :: step :: last :: _ =>
        match bound? first, bound? step with
        | .error message, _ => refuse message
        | _, .error message => refuse message
        | .ok first, .ok stepBound =>
          if isZero stepBound.value then
            refuse (Bytes.ofText "invalid Zero increment value: " ++ step.plainQuoted)
          else
            match bound? last with
            | .ok last => printRange invocation parsed template first stepBound last
            | .error message => refuse message
      | [] => return 0
    match parsed.operands, (parsed.value? 'f').map template? with
    | [], _ => refuse (Bytes.ofText "missing operand")
    | _ :: _ :: _ :: extra :: _, _ => refuse (Bytes.ofText "extra operand " ++ extra.plainQuoted)
    | _, some (.error message) => invocation.fail message 1
    | _, some (.ok template) =>
      if parsed.has 'w' then
        refuse (Bytes.ofText "format string may not be specified when printing equal width strings")
      else print (some template)
    | _, none => print none

end CommandShell.Tool
