import CommandShell.Peg.Attempts
import CommandShell.Peg.Expr
import CommandShell.Peg.Tree

/-!
Running a grammar on a text.

`Grammar.run` follows an expression from a position. It gives the nodes of the rules that were
matched and the position behind them, or refuses, and in both cases the furthest attempts. Its first
argument bounds the depth of the recursion; `none` says that the bound was too small, never that the
text was refused.
-/

namespace CommandShell.Peg

variable {Rule : Type}

/-- A position in the input: what is still to be read, and how much was read before it. -/
structure Cursor where
  rest : List Char
  offset : Nat
  deriving DecidableEq, Repr

namespace Cursor

def ofText (text : List Char) : Cursor := ⟨text, 0⟩

/-- What was read on the way to a later position. -/
def upTo (start stop : Cursor) : List Char :=
  start.rest.take (stop.offset - start.offset)

/-- The position behind the given characters, if they are the next ones. -/
def skip? (cursor : Cursor) : List Char → Option Cursor
  | [] => some cursor
  | c :: characters =>
    match cursor.rest with
    | [] => none
    | d :: rest => if c = d then skip? ⟨rest, cursor.offset + 1⟩ characters else none

end Cursor

/-- Whether filler is skipped, and whether nodes are left. -/
inductive Mode where
  | loose
  | compound
  | atomic
  deriving DecidableEq, Repr

/-- What a match gives: the nodes in order, and the position behind it. -/
structure Match (Rule : Type) where
  trees : List (Tree Rule)
  cursor : Cursor

/-- The outcome of following an expression: a match or a refusal, and the furthest attempts. -/
structure Outcome (Rule : Type) where
  result : Option (Match Rule)
  attempts : Attempts Rule

namespace Outcome

/-- The empty text is matched. -/
def stay (cursor : Cursor) (attempts : Attempts Rule) : Outcome Rule :=
  ⟨some ⟨[], cursor⟩, attempts⟩

def refuse (attempts : Attempts Rule) : Outcome Rule := ⟨none, attempts⟩

/-- A match that follows nodes matched before it. -/
def prepend (trees : List (Tree Rule)) (outcome : Outcome Rule) : Outcome Rule :=
  { outcome with result := outcome.result.map fun found =>
    { found with trees := trees ++ found.trees } }

end Outcome

/-- Follow a second expression from where the first one ended, if it matched. -/
def Outcome.andThen (outcome : Outcome Rule)
    (next : Cursor → Attempts Rule → Option (Outcome Rule)) : Option (Outcome Rule) :=
  match outcome.result with
  | none => some (.refuse outcome.attempts)
  | some found => (next found.cursor outcome.attempts).map (·.prepend found.trees)

namespace Grammar

/-- The mode in which a rule is entered, and with that recorded. -/
def entryMode : Kind → Mode → Mode
  | .compound, _ => .compound
  | _, mode => mode

def innerMode : Kind → Mode → Mode
  | .plain, mode => mode
  | .atomic, _ => .atomic
  | .compound, _ => .compound

/-- Leave a rule: add its node to a match, and record its refusal. -/
def leave (rule : Rule) (mode : Mode) (look : Look) (start : Cursor) (before : Attempts Rule)
    (outcome : Outcome Rule) : Outcome Rule :=
  let result := outcome.result.map fun found =>
    if mode = .atomic then { found with trees := [] }
    else { found with trees := [.node rule (start.upTo found.cursor) found.trees] }
  let refused := if look = .negative then outcome.result.isSome else outcome.result.isNone
  if refused && mode ≠ .atomic then
    ⟨result, .record rule look start.offset before outcome.attempts⟩
  else ⟨result, outcome.attempts⟩

def run (grammar : Grammar Rule) :
    Nat → Expr Rule → Mode → Look → Cursor → Attempts Rule → Option (Outcome Rule)
  | 0, _, _, _, _, _ => none
  | bound + 1, expr, mode, look, cursor, attempts =>
    match expr with
    | .char accepts =>
      match cursor.rest with
      | [] => some (.refuse attempts)
      | c :: rest =>
        if accepts c then some (.stay ⟨rest, cursor.offset + 1⟩ attempts)
        else some (.refuse attempts)
    | .text characters =>
      match cursor.skip? characters with
      | some next => some (.stay next attempts)
      | none => some (.refuse attempts)
    | .start => if cursor.offset = 0 then some (.stay cursor attempts) else some (.refuse attempts)
    | .done => if cursor.rest.isEmpty then some (.stay cursor attempts) else some (.refuse attempts)
    | .seq first second =>
      (grammar.run bound first mode look cursor attempts).bind fun outcome =>
        outcome.andThen fun cursor attempts =>
          if mode = .loose then
            (grammar.run bound grammar.filler .atomic look cursor attempts).bind fun outcome =>
              outcome.andThen fun cursor attempts =>
                grammar.run bound second mode look cursor attempts
          else grammar.run bound second mode look cursor attempts
    | .join first second =>
      (grammar.run bound first mode look cursor attempts).bind fun outcome =>
        outcome.andThen fun cursor attempts => grammar.run bound second mode look cursor attempts
    | .alt first second =>
      (grammar.run bound first mode look cursor attempts).bind fun outcome =>
        if outcome.result.isSome then some outcome
        else grammar.run bound second mode look cursor outcome.attempts
    | .opt body =>
      (grammar.run bound body mode look cursor attempts).bind fun outcome =>
        if outcome.result.isSome then some outcome
        else some (.stay cursor outcome.attempts)
    | .more body =>
      let filled :=
        if mode = .loose then grammar.run bound grammar.filler .atomic look cursor attempts
        else some (.stay cursor attempts)
      filled.bind fun outcome =>
        (outcome.andThen fun cursor attempts =>
          grammar.run bound body mode look cursor attempts).bind
          fun outcome =>
            match outcome.result with
            | none => some (.stay cursor outcome.attempts)
            | some found =>
              (grammar.run bound (.more body) mode look found.cursor outcome.attempts).map
                (·.prepend found.trees)
    | .ahead body =>
      (grammar.run bound body mode look.ahead cursor attempts).bind fun outcome =>
        if outcome.result.isSome then some (.stay cursor outcome.attempts)
        else some (.refuse outcome.attempts)
    | .avoid body =>
      (grammar.run bound body mode look.avoid cursor attempts).bind fun outcome =>
        if outcome.result.isSome then some (.refuse outcome.attempts)
        else some (.stay cursor outcome.attempts)
    | .call rule =>
      let kind := grammar.kind rule
      (grammar.run bound (grammar.body rule) (innerMode kind mode) look cursor attempts).map
        (leave rule (entryMode kind mode) look cursor attempts)

end Grammar

end CommandShell.Peg
