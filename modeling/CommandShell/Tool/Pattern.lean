import CommandShell.Tool.Exchange

/-!
Patterns for texts, in the basic and in the extended notation, and where they match.
-/

namespace CommandShell.Tool

inductive Pattern where
  | empty
  | one (member : Char → Bool)
  | lineStart
  | lineEnd
  /-- Between a character of a word and another one. -/
  | edge
  | noEdge
  | wordStart
  | wordEnd
  | both (first second : Pattern)
  | either (first second : Pattern)
  | repeated (inner : Pattern) (least : Nat) (most : Option Nat)
  | group (number : Nat) (inner : Pattern)
  | copy (number : Nat)

namespace Pattern

/-- A place in a text, with what the groups have matched on the way to it. -/
structure Place where
  position : Nat
  groups : List (Nat × Nat × Nat) := []
  deriving DecidableEq, Repr

def isWordChar (c : Char) : Bool := c = '_' || c.isAlphanum

def merge (places others : List Place) : List Place :=
  others.foldl (fun places place => if places.contains place then places else places ++ [place])
    places

def exactly (step : Place → List Place) : Nat → List Place → List Place
  | 0, places => places
  | rounds + 1, places =>
    let next := merge [] (places.flatMap step)
    if next = places then places else exactly step rounds next

/-- The places after at most so many rounds more. `reached` are all so far, `latest` those of the
last round. -/
def atMost (step : Place → List Place) : Nat → List Place → List Place → List Place
  | 0, reached, _ => reached
  | rounds + 1, reached, latest =>
    let next := (merge [] (latest.flatMap step)).filter fun place => !reached.contains place
    if next.isEmpty then reached else atMost step rounds (reached ++ next) next

def before? (text : Array Char) (position : Nat) : Option Char :=
  if position = 0 then none else text[position - 1]?

/-- Whether a character of a word stands before and behind a place. -/
def wordsAround (text : Array Char) (position : Nat) : Bool × Bool :=
  (((before? text position).map isWordChar).getD false,
    ((text[position]?).map isWordChar).getD false)

def ends (same : Char → Char → Bool) (text : Array Char) : Pattern → Place → List Place
  | .empty, place => [place]
  | .one member, place =>
    match text[place.position]? with
    | some c => if member c then [{ place with position := place.position + 1 }] else []
    | none => []
  | .lineStart, place => if place.position = 0 then [place] else []
  | .lineEnd, place => if place.position = text.size then [place] else []
  | .edge, place =>
    let (a, b) := wordsAround text place.position
    if a = b then [] else [place]
  | .noEdge, place =>
    let (a, b) := wordsAround text place.position
    if a = b then [place] else []
  | .wordStart, place => if wordsAround text place.position = (false, true) then [place] else []
  | .wordEnd, place => if wordsAround text place.position = (true, false) then [place] else []
  | .both first second, place =>
    merge [] ((first.ends same text place).flatMap fun place => second.ends same text place)
  | .either first second, place =>
    merge (first.ends same text place) (second.ends same text place)
  | .repeated inner least most, place =>
    let start := exactly (fun place => inner.ends same text place) least [place]
    let rounds := match most with | some most => most - least | none => text.size + 1
    atMost (fun place => inner.ends same text place) rounds start start
  | .group number inner, place =>
    (inner.ends same text place).map fun stop =>
      { stop with
        groups := (number, place.position, stop.position) ::
          stop.groups.filter fun entry => entry.1 ≠ number }
  | .copy number, place =>
    match place.groups.find? fun entry => entry.1 = number with
    | some (_, start, stop) =>
      let length := stop - start
      let matching := (List.range length).all fun i =>
        match text[start + i]?, text[place.position + i]? with
        | some a, some b => same a b
        | _, _ => false
      if matching then [{ place with position := place.position + length }] else []
    | none => []

/-- Whether one place is to be preferred to another: it is farther, or its groups are, from the
first one on. -/
def isBetter (groups : Nat) (a b : Place) : Bool :=
  let reach (place : Place) : List Nat :=
    place.position :: (List.range groups).map fun i =>
      ((place.groups.find? fun entry => entry.1 = i + 1).map fun entry => entry.2.2 + 1).getD 0
  decide (reach b < reach a)

/-- The best place where a pattern can end that starts at a position. -/
def best? (same : Char → Char → Bool) (groups : Nat) (pattern : Pattern) (text : Array Char)
    (position : Nat) : Option Place :=
  (pattern.ends same text { position }).foldl (fun best place =>
    match best with
    | some other => if isBetter groups place other then some place else best
    | none => some place) none

def usesCopies : Pattern → Bool
  | .copy _ => true
  | .both first second => first.usesCopies || second.usesCopies
  | .either first second => first.usesCopies || second.usesCopies
  | .repeated inner _ _ => inner.usesCopies
  | .group _ inner => inner.usesCopies
  | _ => false

def withoutGroups : Pattern → Pattern
  | .both first second => .both first.withoutGroups second.withoutGroups
  | .either first second => .either first.withoutGroups second.withoutGroups
  | .repeated inner least most => .repeated inner.withoutGroups least most
  | .group _ inner => inner.withoutGroups
  | pattern => pattern

end Pattern

/-! Reading patterns -/

structure PatternReader where
  rest : List Char
  extended : Bool
  /-- Whether small and large letters count as the same. -/
  anyCase : Bool := false
  opened : Nat := 0
  closed : List Nat := []
  /-- What may be meant in another way. -/
  warnings : List String := []

def PatternReader.within (reader : PatternReader) (member : Char → Bool) (c : Char) : Bool :=
  member c || (reader.anyCase && (member c.toLower || member c.toUpper))

def PatternReader.character (reader : PatternReader) (c : Char) : Pattern :=
  .one (reader.within (· = c))

abbrev PatternReading := StateT PatternReader (Except String)

namespace PatternReading

def fail {α : Type} (message : String) : PatternReading α := throw message

def setRest (rest : List Char) : PatternReading Unit := modify fun reader => { reader with rest }

def unclosedBracket : String := "Unmatched [, [^, [:, [., or [="

/-- The part of a bracket up to a sign and a closing bracket, and what comes behind. -/
def named (sign : Char) (read : List Char) : List Char → Option (List Char × List Char)
  | [] => none
  | c :: rest =>
    if c = sign && rest.head? = some ']' then some (read.reverse, rest.drop 1)
    else named sign (c :: read) rest

/-- An element of a bracket: a character that can start or end a range, or a set. -/
def bracketElement (chars : List Char) : Except String ((Char ⊕ (Char → Bool)) × List Char) :=
  match chars with
  | '[' :: ':' :: rest =>
    match named ':' [] rest with
    | none => .error unclosedBracket
    | some (name, behind) =>
      let name := String.ofList name
      if classNames.contains name then .ok (.inr (isInClass name), behind)
      else .error "Invalid character class name"
  | '[' :: '=' :: rest =>
    match named '=' [] rest with
    | none => .error unclosedBracket
    | some ([c], behind) => .ok (.inr (· = c), behind)
    | some _ => .error "Invalid collation character"
  | '[' :: '.' :: rest =>
    match named '.' [] rest with
    | none => .error unclosedBracket
    | some ([c], behind) => .ok (.inl c, behind)
    | some _ => .error "Invalid collation character"
  | c :: rest => .ok (.inl c, rest)
  | [] => .error unclosedBracket

def bracketElements (first : Bool) (member : Char → Bool) :
    Nat → List Char → Except String ((Char → Bool) × List Char)
  | 0, _ => .error unclosedBracket
  | steps + 1, chars =>
    match chars with
    | [] => .error unclosedBracket
    | ']' :: rest => if first then more (']' :: rest) steps else .ok (member, rest)
    | chars => more chars steps
where
  more (chars : List Char) (steps : Nat) : Except String ((Char → Bool) × List Char) := do
    let (element, rest) ← bracketElement chars
    let isRange : Bool := match rest with | '-' :: c :: _ => c ≠ ']' | _ => false
    match element with
    | .inr set =>
      if isRange then .error "Invalid range end"
      else bracketElements false (fun c => member c || set c) steps rest
    | .inl a =>
      if isRange then
        match ← bracketElement (rest.drop 1) with
        | (.inl b, rest) =>
          if b < a then .error "Invalid range end"
          else
            match rest with
            | '-' :: c :: _ =>
              if c ≠ ']' then .error "Invalid range end"
              else bracketElements false (fun c => member c || (a ≤ c && c ≤ b)) steps rest
            | _ => bracketElements false (fun c => member c || (a ≤ c && c ≤ b)) steps rest
        | (.inr _, _) => .error "Invalid range end"
      else bracketElements false (fun c => member c || c = a) steps rest

/-- Whether a bracket looks like a class without the brackets around it. -/
def looksLikeClass (chars : List Char) : Bool :=
  let inside := chars.takeWhile (· ≠ ']')
  inside.head? = some ':' && inside.getLast? = some ':' && inside.any (· ≠ ':') &&
    !inside.contains '-' && !inside.contains '[' && inside.length < chars.length

def bracket : PatternReading Pattern := do
  let reader ← get
  let chars := reader.rest
  let (negative, chars) :=
    match chars with
    | '^' :: rest => (true, rest)
    | _ => (false, chars)
  if chars.isEmpty then fail "Invalid regular expression"
  if looksLikeClass chars then fail "character class syntax is [[:space:]], not [:space:]"
  match bracketElements true (fun _ => false) (chars.length + 1) chars with
  | .error message => fail message
  | .ok (member, rest) =>
    setRest rest
    return .one fun c => reader.within member c != negative

def mostRepeats : Nat := 32767

inductive BoundEnd where
  | comma
  | brace
  | nothing
  deriving DecidableEq, Repr

/-- A number in the bounds of a repetition: no digits, something that is not one, or a number. -/
inductive Bound where
  | missing
  | wrong
  | number (value : Nat)
  deriving DecidableEq, Repr

def Bound.push (bound : Bound) (c : Char) : Bound :=
  if !c.isDigit then .wrong
  else
    match bound with
    | .missing => .number (c.toNat - 48)
    | .wrong => .wrong
    | .number value => .number (min (mostRepeats + 1) (value * 10 + (c.toNat - 48)))

/-- Read a number in the bounds of a repetition: what it is, what ended it, and what comes
behind. -/
def boundFrom (extended : Bool) (bound : Bound) : List Char → Bound × BoundEnd × List Char
  | [] => (.wrong, .nothing, [])
  | c :: rest =>
    if c = ',' then (bound, .comma, rest)
    else if extended && c = '\x7d' then (bound, .brace, rest)
    else if !extended && c = '\\' && rest.head? = some '\x7d' then (bound, .brace, rest.drop 1)
    else boundFrom extended (bound.push c) rest

def badBounds : String := "Invalid content of \\\x7b\\\x7d"

/-- The bounds of a repetition from behind its opening brace, and what comes behind its closing one.
Nothing says that this is no repetition. -/
def bounds (extended : Bool) (chars : List Char) :
    Except String (Option (Nat × Option Nat × List Char)) :=
  let refuse (stop : BoundEnd) : Except String (Option (Nat × Option Nat × List Char)) :=
    if extended then .ok none
    else if stop = .nothing then .error "Unmatched \\\x7b"
    else .error badBounds
  let finish (least : Nat) (most : Option Nat) (rest : List Char) :
      Except String (Option (Nat × Option Nat × List Char)) :=
    if most.any (· < least) then .error badBounds
    else if mostRepeats < most.getD least then .error "Regular expression too big"
    else .ok (some (least, most, rest))
  let second (least : Nat) (chars : List Char) :
      Except String (Option (Nat × Option Nat × List Char)) :=
    match boundFrom extended .missing chars with
    | (.wrong, stop, _) => refuse stop
    | (_, .comma, _) => .error badBounds
    | (.missing, _, rest) => finish least none rest
    | (.number most, _, rest) => finish least (some most) rest
  match boundFrom extended .missing chars with
  | (.wrong, stop, _) => refuse stop
  | (.missing, .comma, rest) => second 0 rest
  | (.missing, _, _) => .error badBounds
  | (.number least, .comma, rest) => second least rest
  | (.number least, _, rest) => finish least (some least) rest

def repetitions (pattern : Pattern) : Nat → PatternReading Pattern
  | 0 => return pattern
  | steps + 1 => do
    let reader ← get
    match reader.rest, reader.extended with
    | '*' :: rest, _ =>
      setRest rest
      repetitions (.repeated pattern 0 none) steps
    | '+' :: rest, true =>
      setRest rest
      repetitions (.repeated pattern 1 none) steps
    | '?' :: rest, true =>
      setRest rest
      repetitions (.repeated pattern 0 (some 1)) steps
    | '\\' :: '+' :: rest, false =>
      setRest rest
      repetitions (.repeated pattern 1 none) steps
    | '\\' :: '?' :: rest, false =>
      setRest rest
      repetitions (.repeated pattern 0 (some 1)) steps
    | '\x7b' :: rest, true => inBounds rest steps
    | '\\' :: '\x7b' :: rest, false => inBounds rest steps
    | _, _ => return pattern
where
  inBounds (chars : List Char) (steps : Nat) : PatternReading Pattern := do
    match bounds (← get).extended chars with
    | .error message => fail message
    | .ok none => return pattern
    | .ok (some (least, most, rest)) =>
      setRest rest
      repetitions (.repeated pattern least most) steps

/-- Whether an anchor at the end of a line may stand here. -/
def atEnd (extended : Bool) (rest : List Char) : Bool :=
  match rest with
  | [] => true
  | '\\' :: ')' :: _ => !extended
  | '\\' :: '|' :: _ => !extended
  | _ => extended

/-- Note that a repetition at the start repeats nothing. -/
def warn (sign : String) : PatternReading Unit :=
  modify fun reader =>
    { reader with warnings := reader.warnings ++ [sign ++ " at start of expression"] }

def escape (c : Char) : PatternReading Pattern := do
  let reader ← get
  match c with
  | 'w' => return .one Pattern.isWordChar
  | 'W' => return .one fun c => !Pattern.isWordChar c
  | 's' => return .one isSpace
  | 'S' => return .one fun c => !isSpace c
  | 'b' => return .edge
  | 'B' => return .noEdge
  | '<' => return .wordStart
  | '>' => return .wordEnd
  | '\x60' => return .lineStart
  | '\x27' => return .lineEnd
  | _ =>
    if c.isDigit && c ≠ '0' then
      let number := c.toNat - 48
      if reader.closed.contains number then return .copy number
      else fail "Invalid back reference"
    else return reader.character c

mutual

/-- Alternatives up to the end or a closing parenthesis, in so many steps. -/
def alternatives (depth : Nat) : Nat → PatternReading Pattern
  | 0 => return .empty
  | steps + 1 => do
    let first ← sequence depth true .empty steps
    let reader ← get
    match reader.rest, reader.extended with
    | '|' :: rest, true =>
      setRest rest
      return .either first (← alternatives depth steps)
    | '\\' :: '|' :: rest, false =>
      setRest rest
      return .either first (← alternatives depth steps)
    | _, _ => return first

/-- A sequence up to something that ends it, in so many steps; `first` says whether nothing but
anchors came before. -/
def sequence (depth : Nat) (first : Bool) (read : Pattern) : Nat → PatternReading Pattern
  | 0 => return read
  | steps + 1 => do
    let reader ← get
    let next (pattern : Pattern) : PatternReading Pattern := do
      let pattern ← repetitions pattern reader.rest.length
      sequence depth false (.both read pattern) steps
    match reader.rest, reader.extended with
    | [], _ => return read
    | '|' :: _, true => return read
    | '\\' :: '|' :: _, false => return read
    | ')' :: rest, true =>
      if depth = 0 then
        setRest rest
        next (reader.character ')')
      else return read
    | '\\' :: ')' :: _, false =>
      if depth = 0 then fail "Unmatched ) or \\)" else return read
    | '(' :: rest, true =>
      setRest rest
      next (← group depth steps)
    | '\\' :: '(' :: rest, false =>
      setRest rest
      next (← group depth steps)
    | '^' :: rest, extended =>
      setRest rest
      if first then sequence depth true (.both read .lineStart) steps
      else if extended then next .lineStart
      else next (reader.character '^')
    | '$' :: rest, extended =>
      setRest rest
      if atEnd extended rest then next .lineEnd
      else next (reader.character '$')
    | '[' :: rest, _ =>
      setRest rest
      next (← bracket)
    | '.' :: rest, _ =>
      setRest rest
      next (.one fun _ => true)
    | '*' :: rest, extended =>
      setRest rest
      if extended then
        warn "*"
        sequence depth first read steps
      else next (reader.character '*')
    | '+' :: rest, true =>
      setRest rest
      if first then
        warn "+"
        sequence depth first read steps
      else next (reader.character '+')
    | '?' :: rest, true =>
      setRest rest
      if first then
        warn "?"
        sequence depth first read steps
      else next (reader.character '?')
    | '\x7b' :: rest, true =>
      setRest rest
      if !first then next (reader.character '\x7b')
      else
        match bounds true rest with
        | .ok (some (_, _, rest)) =>
          warn "\x7b...\x7d"
          setRest rest
          sequence depth first read steps
        | _ => next (reader.character '\x7b')
    | ['\\'], _ => fail "Trailing backslash"
    | '\\' :: c :: rest, _ =>
      setRest rest
      next (← escape c)
    | c :: rest, _ =>
      setRest rest
      next (reader.character c)

/-- A group, from behind its opening parenthesis, in so many steps. -/
def group (depth : Nat) : Nat → PatternReading Pattern
  | 0 => return .empty
  | steps + 1 => do
    let number := (← get).opened + 1
    modify fun reader => { reader with opened := number }
    let inner ← alternatives (depth + 1) steps
    let reader ← get
    match reader.rest, reader.extended with
    | ')' :: rest, true =>
      set { reader with rest, closed := number :: reader.closed }
      return .group number inner
    | '\\' :: ')' :: rest, false =>
      set { reader with rest, closed := number :: reader.closed }
      return .group number inner
    | _, _ => fail "Unmatched ( or \\("

end

end PatternReading

structure ReadPattern where
  pattern : Pattern
  groups : Nat
  warnings : List String

def readPattern (extended anyCase : Bool) (chars : List Char) : Except String ReadPattern := do
  let (pattern, reader) ← (PatternReading.alternatives 0 (4 * chars.length + 8)).run
    { rest := chars, extended, anyCase }
  return ⟨pattern, reader.opened, reader.warnings⟩

end CommandShell.Tool
