import CommandShell.Tool.Exchange
import CommandShell.Tool.Interpreter.Variables

/-!
Words after something was filled into them: how they are split into fields, and the patterns they
are.
-/

namespace CommandShell.Interpreter

inductive Glyph where
  /-- A character. If it is quoted, it stands for itself in patterns; if it splits, it belongs to
  what is divided into fields. -/
  | char (c : Char) (quoted splits : Bool)
  /-- Quotes, which make a field even if nothing is in them. -/
  | mark
  /-- What is divided into fields starts here; only breaks divide it if it is strict. -/
  | region (strict : Bool)
  | break
  deriving DecidableEq, Repr

namespace Glyph

def quoted (chars : List Char) : List Glyph := chars.map fun c => .char c true false

def splitting (chars : List Char) : List Glyph :=
  .region false :: chars.map fun c => .char c false true

def text (glyphs : List Glyph) : List Char :=
  glyphs.filterMap fun
    | .char c _ _ => some c
    | _ => none

end Glyph

structure Splitting where
  /-- The fields, the latest first. -/
  fields : List (List Glyph) := []
  /-- The field that is not complete, the latest first. -/
  current : List Glyph := []
  /-- Whether blanks have ended the last field. -/
  afterBlank : Bool := false
  strict : Bool := false
  afterStrict : Bool := false
  /-- How many fields may still be made, if that is limited. -/
  left : Option Nat := none
  /-- How much of the last field is kept. -/
  kept : Option Nat := none

namespace Splitting

def endField (state : Splitting) : Splitting :=
  { state with fields := state.current.reverse :: state.fields, current := [] }

/-- A character of what is divided; `divides` says whether it is a separator, and `blank` whether it
is a blank one. -/
def step (state : Splitting) (glyph : Glyph) (divides blank : Bool) : Splitting :=
  if state.left = some 0 then
    let next := { state with current := glyph :: state.current }
    if blank then { next with kept := state.kept.orElse fun _ => some state.current.length }
    else
      { next with
        kept := if divides && state.afterBlank then state.kept else none
        afterBlank := false }
  else if state.afterBlank && divides then
    { state with current := [], afterBlank := blank }
  else if divides then
    let afterBlank := if state.afterStrict || state.strict then state.afterBlank else blank
    if state.current.isEmpty && afterBlank then { state with afterBlank := false }
    else
      match state.left with
      | some 1 =>
        { state with
          left := some 0, kept := some state.current.length, current := glyph :: state.current,
            afterBlank }
      | _ => { state.endField with left := state.left.map (· - 1), afterBlank }
  else { state with current := glyph :: state.current, afterBlank := false }

def take (separators : List Char) (state : Splitting) (glyph : Glyph) : Splitting :=
  match glyph with
  | .region strict =>
    { state with afterStrict := state.strict, strict, afterBlank := false }
  | .break => state.step glyph true true
  | .char c _ true =>
    let divides := !state.strict && separators.contains c
    state.step glyph divides (divides && (c = ' ' || c = '\t' || c = '\n'))
  | _ => { state with current := glyph :: state.current }

def finish (state : Splitting) : List (List Glyph) :=
  let current :=
    match state.kept with
    | some kept => state.current.drop (state.current.length - kept)
    | none => state.current
  if state.strict || !current.isEmpty then (current.reverse :: state.fields).reverse
  else state.fields.reverse

end Splitting

/-- The fields of a word, at most so many if that is limited. -/
def splitFields (separators : List Char) (most : Option Nat) (glyphs : List Glyph) :
    List (List Glyph) :=
  (glyphs.foldl (Splitting.take separators) ({ left := most } : Splitting)).finish

/-! Patterns -/

structure Wild where
  char : Char
  literal : Bool
  deriving DecidableEq, Repr

namespace Wild

def isSign (wild : Wild) (c : Char) : Bool := wild.char = c && !wild.literal

/-- A pattern; a backslash makes the next character stand for itself. -/
def ofGlyphs : List Glyph → List Wild
  | [] => []
  | [.char '\\' false _] => [⟨'\\', true⟩]
  | .char '\\' false _ :: .char c _ _ :: rest => ⟨c, true⟩ :: ofGlyphs rest
  | .char c quoted _ :: rest => ⟨c, quoted⟩ :: ofGlyphs rest
  | _ :: rest => ofGlyphs rest

/-- A class of characters, from behind its opening bracket, and what comes behind it. -/
def class? (pattern : List Wild) : Option (String × List Wild) :=
  match pattern with
  | colon :: rest =>
    if !colon.isSign ':' then none
    else
      Tool.classNames.findSome? fun name =>
        let ending := (name ++ ":]").toList
        if (rest.take ending.length).map Wild.char = ending then
          some (name, rest.drop ending.length)
        else none
  | [] => none

/-- Whether a set between brackets has a character, and what comes behind the set, in so many
steps. -/
def setFrom (c : Char) (found first : Bool) : Nat → List Wild → Option (Bool × List Wild)
  | 0, _ => none
  | _, [] => none
  | steps + 1, wild :: rest =>
    if wild.isSign ']' && !first then some (found, rest)
    else
      match if wild.isSign '[' then class? rest else none with
      | some (name, rest) => setFrom c (found || Tool.isInClass name c) false steps rest
      | none =>
        match rest with
        | hyphen :: last :: rest' =>
          if hyphen.isSign '-' && !last.isSign ']' then
            setFrom c (found || (wild.char ≤ c && c ≤ last.char)) false steps rest'
          else setFrom c (found || c = wild.char) false steps rest
        | _ => setFrom c (found || c = wild.char) false steps rest

/-- Whether a pattern stands for a whole text, in so many steps. -/
def matchFrom : Nat → List Wild → List Char → Bool
  | 0, _, _ => false
  | _, [], text => text.isEmpty
  | steps + 1, wild :: rest, text =>
    let plain (_ : Unit) : Bool :=
      match text with
      | c :: others => c = wild.char && matchFrom steps rest others
      | [] => false
    if wild.literal then plain ()
    else
      match wild.char with
      | '?' =>
        match text with
        | _ :: others => matchFrom steps rest others
        | [] => false
      | '*' =>
        matchFrom steps rest text ||
          match text with
          | _ :: others => matchFrom steps (wild :: rest) others
          | [] => false
      | '[' =>
        match text with
        | [] => false
        | c :: others =>
          let (inverse, set) :=
            match rest with
            | sign :: set => if sign.isSign '!' then (true, set) else (false, rest)
            | [] => (false, rest)
          match setFrom c false true (set.length + 1) set with
          | some (found, behind) => found != inverse && matchFrom steps behind others
          | none => plain ()
      | _ => plain ()

def isMatch (pattern : List Wild) (text : List Char) : Bool :=
  matchFrom (pattern.length + text.length + 1) pattern text

def isActive (pattern : List Wild) : Bool :=
  pattern.any fun wild => wild.isSign '*' || wild.isSign '?' || wild.isSign '['

/-- The text of which a pattern stands for the start is cut off: as little of it as possible, or as
much. -/
def cutStart (pattern : List Wild) (longest : Bool) (text : List Char) : List Char :=
  let lengths := List.range (text.length + 1)
  let lengths := if longest then lengths.reverse else lengths
  match lengths.find? fun length => isMatch pattern (text.take length) with
  | some length => text.drop length
  | none => text

def cutEnd (pattern : List Wild) (longest : Bool) (text : List Char) : List Char :=
  let lengths := List.range (text.length + 1)
  let lengths := if longest then lengths else lengths.reverse
  match lengths.find? fun length => isMatch pattern (text.drop length) with
  | some length => text.take length
  | none => text

end Wild

end CommandShell.Interpreter
