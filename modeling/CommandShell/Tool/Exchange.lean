import CommandShell.Tool.Basic
import CommandShell.Tool.Number

/-!
`tr`, which exchanges, deletes and squeezes characters.
-/

namespace CommandShell.Tool

structure Mark where
  char : Char
  /-- Whether it was written with a backslash, so that it means nothing but itself. -/
  escaped : Bool

inductive Element where
  | char (c : Char)
  | range (first last : Char)
  | family (name : String)
  | equivalence (c : Char)
  /-- A character so many times, or as often as needed. -/
  | repeated (c : Char) (count : Option Nat)
  deriving DecidableEq, Repr

def markLetter (c : Char) : Char :=
  match c with
  | 'a' => '\x07'
  | 'b' => '\x08'
  | 'f' => '\x0c'
  | 'n' => '\n'
  | 'r' => '\r'
  | 't' => '\t'
  | 'v' => '\x0b'
  | _ => c

/-- The characters of a set. `skip` of them belong to an escape before. -/
def marksFrom : Nat → List Char → List Mark
  | _, [] => []
  | skip + 1, _ :: rest => marksFrom skip rest
  | 0, '\\' :: rest =>
    let digits := (rest.take 3).takeWhile (isDigitOf 8)
    if digits.isEmpty then
      match rest with
      | [] => [⟨'\\', false⟩]
      | c :: _ => ⟨markLetter c, true⟩ :: marksFrom 1 rest
    else
      let digits := if valueOf 8 digits < 256 then digits else digits.take 2
      ⟨Char.ofNat (valueOf 8 digits), true⟩ :: marksFrom digits.length rest
  | 0, c :: rest => ⟨c, false⟩ :: marksFrom 0 rest

/-- Warnings about escapes in a set. `skip` of its characters belong to an escape before. -/
def markWarnings : Nat → List Char → List String
  | _, [] => []
  | skip + 1, _ :: rest => markWarnings skip rest
  | 0, '\\' :: rest =>
    match (rest.take 3).takeWhile (isDigitOf 8), rest with
    | [], [] => ["an unescaped backslash at end of string is not portable"]
    | [], _ => markWarnings 1 rest
    | [a, b, c], _ =>
      if valueOf 8 [a, b, c] < 256 then markWarnings 3 rest
      else
        ("the ambiguous octal escape \\" ++ String.ofList [a, b, c] ++
          " is being\n\tinterpreted as the 2-byte sequence \\0" ++ String.ofList [a, b] ++ ", " ++
          String.ofList [c]) :: markWarnings 2 rest
    | digits, _ => markWarnings digits.length rest
  | 0, _ :: rest => markWarnings 0 rest

def Mark.isPlain (mark : Mark) (c : Char) : Bool := mark.char = c && !mark.escaped

/-- The part of a list before two plain characters, and the part behind them. -/
def splitAt (a b : Char) (read : List Mark) : List Mark → Option (List Mark × List Mark)
  | x :: y :: rest =>
    if x.isPlain a && y.isPlain b then some (read.reverse, rest)
    else splitAt a b (x :: read) (y :: rest)
  | _ => none

def classNames : List String :=
  ["alnum", "alpha", "blank", "cntrl", "digit", "graph", "lower", "print", "punct", "space",
    "upper", "xdigit"]

def isInClass (name : String) (c : Char) : Bool :=
  let isGraph := '!' ≤ c && c ≤ '~'
  match name with
  | "alnum" => c.isAlphanum
  | "alpha" => c.isAlpha
  | "blank" => c = ' ' || c = '\t'
  | "cntrl" => c < ' ' || c = '\x7f'
  | "digit" => c.isDigit
  | "graph" => isGraph
  | "lower" => c.isLower
  | "print" => isGraph || c = ' '
  | "punct" => isGraph && !c.isAlphanum
  | "space" => isSpace c
  | "upper" => c.isUpper
  | "xdigit" => isDigitOf 16 c
  | _ => false

def allChars : List Char := (List.range 256).map Char.ofNat

def shownMark (c : Char) : List Char :=
  if c = '\\' then ['\\', '\\'] else if Quote.isPrintable c then [c] else Quote.escaped c

def repeatCount (digits : List Char) : Option (Option Nat) :=
  if digits.isEmpty then some none
  else
    let base := if digits.head? = some '0' then 8 else 10
    if digits.all (isDigitOf base) then
      let value := valueOf base digits
      some (if value = 0 then none else some value)
    else none

def bracketed? (marks : List Mark) : Except Bytes (Option (Element × Nat)) :=
  match marks with
  | opening :: kind :: rest =>
    if !opening.isPlain '[' then .ok none
    else if kind.isPlain ':' then
      match splitAt ':' ']' [] rest with
      | none => .ok (repetition marks)
      | some (name, _) =>
        let text := String.ofList (name.map Mark.char)
        if classNames.contains text then .ok (some (.family text, name.length + 4))
        else if (repetition marks).isSome then .ok (repetition marks)
        else if name.isEmpty then .error (Bytes.ofText "missing character class name '[::]'")
        else .error (Bytes.ofText "invalid character class " ++ (Bytes.ofText text).plainQuoted)
    else if kind.isPlain '=' then
      match splitAt '=' ']' [] rest with
      | none => .ok (repetition marks)
      | some ([c], _) => .ok (some (.equivalence c.char, 5))
      | some ([], _) =>
        if (repetition marks).isSome then .ok (repetition marks)
        else .error (Bytes.ofText "missing equivalence class character '[==]'")
      | some (name, _) =>
        if (repetition marks).isSome then .ok (repetition marks)
        else
          .error (Bytes.ofChars (name.flatMap fun mark => shownMark mark.char) ++
            Bytes.ofText ": equivalence class operand must be a single character")
    else
      match badRepetition marks with
      | some message => .error message
      | none => .ok (repetition marks)
  | _ => .ok none
where
  repetition (marks : List Mark) : Option (Element × Nat) :=
    match marks with
    | opening :: c :: star :: rest =>
      if opening.isPlain '[' && star.isPlain '*' then
        let inside := rest.takeWhile fun mark => !mark.isPlain ']'
        if inside.length < rest.length then
          (repeatCount (inside.map Mark.char)).map fun count =>
            (.repeated c.char count, inside.length + 4)
        else none
      else none
    | _ => none
  badRepetition (marks : List Mark) : Option Bytes :=
    match marks with
    | opening :: _ :: star :: rest =>
      if opening.isPlain '[' && star.isPlain '*' then
        let inside := rest.takeWhile fun mark => !mark.isPlain ']'
        if inside.length < rest.length && (repeatCount (inside.map Mark.char)).isNone then
          some (Bytes.ofText "invalid repeat count " ++
            (Bytes.ofChars (inside.map Mark.char)).plainQuoted ++
              Bytes.ofText " in [c*n] construct")
        else none
      else none
    | _ => none

/-- The elements of a set. `skip` marks belong to an element before. -/
def elementsFrom (read : List Element) : Nat → List Mark → Except Bytes (List Element)
  | _, [] => .ok read.reverse
  | skip + 1, _ :: rest => elementsFrom read skip rest
  | 0, mark :: rest => do
    match ← bracketed? (mark :: rest) with
    | some (element, length) => elementsFrom (element :: read) (length - 1) rest
    | none =>
      match rest with
      | hyphen :: last :: _ =>
        if hyphen.isPlain '-' then
          if mark.char ≤ last.char then elementsFrom (.range mark.char last.char :: read) 2 rest
          else
            .error (Bytes.ofText "range-endpoints of '" ++
              Bytes.ofChars (shownMark mark.char ++ ['-'] ++ shownMark last.char) ++
              Bytes.ofText "' are in reverse collating sequence order")
        else elementsFrom (.char mark.char :: read) 0 rest
      | _ => elementsFrom (.char mark.char :: read) 0 rest

def elementsOf (argument : Bytes) : Except Bytes (List Element) :=
  elementsFrom [] 0 (marksFrom 0 argument.toChars)

namespace Element

/-- The characters of an element, where one that is repeated as needed comes so many times. -/
def chars (fill : Nat) : Element → List Char
  | .char c => [c]
  | .range first last =>
    (List.range (last.toNat - first.toNat + 1)).map fun i => Char.ofNat (first.toNat + i)
  | .family name => allChars.filter (isInClass name)
  | .equivalence c => [c]
  | .repeated c (some count) => List.replicate count c
  | .repeated c none => List.replicate fill c

def isClass : Element → Bool
  | .family _ => true
  | _ => false

def isCase : Element → Bool
  | .family name => name = "upper" || name = "lower"
  | _ => false

def isEquivalence : Element → Bool
  | .equivalence _ => true
  | _ => false

def isFill : Element → Bool
  | .repeated _ none => true
  | _ => false

end Element

def charsOf (fill : Nat) (elements : List Element) : List Char :=
  elements.flatMap (Element.chars fill)

/-- Pairs of characters of two lists of elements that stand for each other. Classes of letters stand
for each other by case. -/
def casePairs (fill : Nat) (source target : List Element) : List (Char × Char) :=
  let places (elements : List Element) : List (Nat × String) :=
    (elements.foldl (fun (found, position) element =>
      match element with
      | .family name => ((position, name) :: found, position + (Element.chars fill element).length)
      | _ => (found, position + (Element.chars fill element).length)) ([], 0)).1
  let first := places source
  (places target).flatMap fun (position, name) =>
    match first.find? fun place => place.1 = position with
    | some (_, other) =>
      if other = name then allChars.map fun c => (c, c)
      else if name = "lower" then (allChars.filter Char.isUpper).map fun c => (c, c.toLower)
      else (allChars.filter Char.isLower).map fun c => (c, c.toUpper)
    | none => []

structure Exchange where
  delete : List Char := []
  pairs : List (Char × Char) := []
  squeeze : List Char := []

def exchangeTable (pairs : List (Char × Char)) : Array Char :=
  pairs.foldl (fun table pair => table.setIfInBounds pair.1.toNat pair.2) allChars.toArray

/-- Change some bytes. `last` is the character before, if it is one of those that are squeezed. -/
def Exchange.apply (exchange : Exchange) (table : Array Char) (last : Option Char) (bytes : Bytes) :
    Bytes × Option Char :=
  let (read, last) := bytes.toChars.foldl (fun (read, last) c =>
    if exchange.delete.contains c then (read, last)
    else
      let c := (table[c.toNat]?).getD c
      if exchange.squeeze.contains c then if last = some c then (read, last)
      else (c :: read, some c)
      else (c :: read, none)) (([] : List Char), last)
  (Bytes.ofChars read.reverse, last)

/-- Whether the complement of a set that has classes can be exchanged: all must become the same. -/
def isUniform (chars : List Char) : Bool := chars.all fun c => some c = chars.head?

def pairsBetween (complement truncate : Bool) (source target : List Element) :
    Except Bytes (List (Char × Char)) := do
  if target.any Element.isEquivalence then
    .error (Bytes.ofText "[=c=] expressions may not appear in string2 when translating")
  else if 1 < target.countP Element.isFill then
    .error (Bytes.ofText "only one [c*] repeat construct may appear in string2")
  else if target.any fun element => element.isClass && !element.isCase then
    .error (Bytes.ofText ("when translating, the only character classes that may appear in\n" ++
      "string2 are 'upper' and 'lower'"))
  else
    let plain := charsOf 0 source
    let domain := if complement then allChars.filter fun c => !plain.contains c else plain
    let fixed := charsOf 0 target
    let fill := domain.length - fixed.length
    let given := charsOf fill target
    let range := given
    let range :=
      if truncate then range
      else range ++ List.replicate (domain.length - range.length) (range.getLastD ' ')
    let domain := if truncate then domain.take range.length else domain
    if misaligned source target then
      .error (Bytes.ofText "misaligned [:upper:] and/or [:lower:] construct")
    else if given.isEmpty && !domain.isEmpty && !truncate then
      .error (Bytes.ofText "when not truncating set1, string2 must be non-empty")
    else if !truncate && given.length < domain.length && (target.getLast?).any Element.isClass then
      .error (Bytes.ofText ("when translating with string1 longer than string2,\n" ++
        "the latter string must not end with a character class"))
    else if complement && source.any Element.isClass && !isUniform (range.take domain.length) then
      .error (Bytes.ofText ("when translating with complemented character classes,\n" ++
        "string2 must map all characters in the domain to one"))
    else if !complement && target.any Element.isCase then
      .ok (plainPairs domain range source target ++ casePairs fill source target)
    else .ok (domain.zip range)
where
  /-- Where each element of a list starts, with its class if it has one. -/
  starts (elements : List Element) : List (Nat × Element) :=
    (elements.foldl (fun (found, position) element =>
      ((position, element) :: found, position + (Element.chars 0 element).length))
        ([], 0)).1.reverse
  /-- Whether a class in the second set has none of its kind at its place in the first. -/
  misaligned (source target : List Element) : Bool :=
    let first := starts source
    !complement && (starts target).any fun (position, element) =>
      element.isCase && !first.any fun (place, other) => place = position && other.isCase
  plainPairs (domain range : List Char) (source target : List Element) : List (Char × Char) :=
    let spans := (starts source).filterMap fun (position, element) =>
      if element.isCase && (starts target).any fun (place, other) =>
        place = position && other.isCase then
        some (position, position + (Element.chars 0 element).length)
      else none
    ((domain.zip range).zipIdx.filter fun (_, i) => !spans.any fun (a, b) => a ≤ i && i < b).map
      Prod.fst

def exchangeOf (parsed : Parsed) (first : List Element) (second : Option (List Element)) :
    Except Bytes Exchange := do
  let complement := parsed.has 'c' || parsed.has 'C'
  let delete := parsed.has 'd'
  let squeeze := parsed.has 's'
  let plain := charsOf 0 first
  let chosen := if complement then allChars.filter fun c => !plain.contains c else plain
  if first.any Element.isFill then
    .error (Bytes.ofText "the [c*] repeat construct may not appear in string1")
  else
    match second with
    | none => .ok (if delete then { delete := chosen } else { squeeze := chosen })
    | some target =>
      if delete then
        if target.any Element.isFill then
          .error (Bytes.ofText "the [c*] construct may appear in string2 only when translating")
        else .ok { delete := chosen, squeeze := charsOf 0 target }
      else
        let pairs ← pairsBetween complement (parsed.has 't') first target
        .ok { pairs, squeeze := if squeeze then charsOf 1 target else [] }

def tr (invocation : Invocation) : Steps Int :=
  withOptions invocation
    [{ key := 'c', word := "complement" }, { key := 'C' }, { key := 'd', word := "delete" },
      { key := 's', word := "squeeze-repeats" }, { key := 't', word := "truncate-set1" }] false 1
    fun parsed => do
    let delete := parsed.has 'd'
    let squeeze := parsed.has 's'
    let least := if delete = squeeze then 2 else 1
    let greatest := if delete && !squeeze then 1 else 2
    let run (operands : List Bytes) : Steps Int := do
      let mut sets : List (List Element) := []
      for operand in operands do
        for warning in markWarnings 0 operand.toChars do
          invocation.complain (Bytes.ofText ("warning: " ++ warning))
        match elementsOf operand with
        | .error message => return ← invocation.fail message 1
        | .ok elements => sets := sets ++ [elements]
      match exchangeOf parsed (sets.headD []) (sets[1]?) with
      | .error message => invocation.fail message 1
      | .ok exchange =>
        let table := exchangeTable exchange.pairs
        let (result, _, held) ← Steps.foldInput 0 pieceSize (fun (last, held) bytes => do
          let (bytes, last) := exchange.apply table last bytes
          return (last, ← invocation.gather 1 held bytes)) patience (none, [])
        invocation.print held
        match result with
        | .ok () => return 0
        | .error errno => invocation.fail (Bytes.ofText ("read error: " ++ errno.systemText)) 1
    match parsed.operands with
    | [] => invocation.misuse (Bytes.ofText "missing operand") 1
    | operands =>
      if operands.length < least then
        let reason :=
          if delete then "Two strings must be given when both deleting and squeezing repeats."
          else "Two strings must be given when translating."
        invocation.complain
          (Bytes.ofText "missing operand after " ++ (operands.getLastD []).plainQuoted)
        Invocation.say (Bytes.ofText (reason ++ "\n"))
        Invocation.say invocation.hint
        return 1
      else if greatest < operands.length then
        invocation.complain
          (Bytes.ofText "extra operand " ++ ((operands[greatest]?).getD []).plainQuoted)
        if operands.length = 2 then
          Invocation.say (Bytes.ofText
            "Only one string may be given when deleting without squeezing repeats.\n")
        Invocation.say invocation.hint
        return 1
      else run operands
where
  pieceSize : Nat := 8192

end CommandShell.Tool
