import CommandShell.CommandLine.Basic
import CommandShell.Text.Similarity

/-!
Reading a command line, word by word. An option that takes a value waits for the next word, unless
the value is part of its own word; a word that starts with a dash is never a value.
-/

namespace CommandShell.CommandLine

structure Parsing where
  arguments : Arguments
  /-- The items that were set, in order. -/
  used : List Item
  /-- The option that waits for its value, and the value if it came. -/
  pending : Option (Item × Option String)
  /-- Only values follow. -/
  valuesOnly : Bool
  /-- The place for a script is taken. -/
  hasScript : Bool

inductive Stop where
  | mistake (mistake : Mistake)
  | help
  | version

namespace Parsing

def start : Parsing := ⟨{}, [], none, false, false⟩

def put (parsing : Parsing) (item : Item) (value : String) : Parsing :=
  let arguments :=
    match item with
    | .commands => { parsing.arguments with commands := some value }
    | .optionsFile => { parsing.arguments with optionsFile := some value }
    | .script => { parsing.arguments with script := some value }
    | .dump => { parsing.arguments with dump := true }
    | _ => parsing.arguments
  { parsing with arguments, used := parsing.used ++ [item] }

/-- Whether the value of an item may be empty. -/
def takesEmpty : Item → Bool
  | .commands => true
  | _ => false

/-- Set an item to a value, unless it was set before or the value is missing. -/
def accept (parsing : Parsing) (item : Item) (value : Option String) : Except Stop Parsing :=
  match item, value with
  | .help, _ => .error .help
  | .version, _ => .error .version
  | .dump, _ =>
    if parsing.used.contains .dump then .error (.mistake (.repeated .dump))
    else .ok (parsing.put .dump "")
  | _, none => .error (.mistake (.missingValue item))
  | _, some value =>
    if parsing.used.contains item then .error (.mistake (.repeated item))
    else if value.isEmpty && !takesEmpty item then .error (.mistake (.missingValue item))
    else .ok (parsing.put item value)

/-- Settle the option that waits for its value. -/
def resolve (parsing : Parsing) : Except Stop Parsing :=
  match parsing.pending with
  | none => .ok parsing
  | some (item, value) => { parsing with pending := none }.accept item value

/-- The items that were set or begun, with the one that waits. One whose value cannot be taken is
begun all the same, and one that comes again takes itself away. -/
def begun (parsing : Parsing) : List Item :=
  match parsing.pending with
  | some (item, some _) =>
    if parsing.used.contains item then parsing.used.filter (· ≠ item) else parsing.used ++ [item]
  | _ => parsing.used

/-- An option without a value in its own word. -/
def takeOption (parsing : Parsing) (item : Item) : Except Stop Parsing := do
  let parsing ← parsing.resolve
  if item.takesValue then return { parsing with pending := some (item, none) }
  else parsing.accept item none

/-- The option with the most similar name, if one is similar enough; of several the last. -/
def similar? (name : String) : Option Item :=
  let better (best : Option (Item × (Nat × Nat))) (item : Item) :=
    let score := Text.similarity name.toList (item.long?.getD "").toList
    if !Text.isSimilar score then best
    else
      match best with
      | some (other, high) =>
        if high.1 * score.2 ≤ score.1 * high.2 then some (item, score) else some (other, high)
      | none => some (item, score)
  ([Item.dump, .optionsFile, .help, .version].foldl better none).map Prod.fst

def takeLong (parsing : Parsing) (word : List Char) : Except Stop Parsing :=
  let name := String.ofList (word.takeWhile (· ≠ '='))
  let value : Option String :=
    match word.dropWhile (· ≠ '=') with
    | [] => none
    | _ :: value => some (String.ofList value)
  match Item.ofLong? name, value with
  | none, _ =>
    let similar := similar? name
    .error (.mistake
      (.unexpected ("--" ++ name) similar similar.isNone (parsing.begun ++ similar.toList)))
  | some item, none => parsing.takeOption item
  | some item, some value =>
    if item.takesValue then do
      let parsing ← parsing.resolve
      parsing.accept item (some value)
    else .error (.mistake (.unneededValue value item parsing.used))

def takeShort (parsing : Parsing) : List Char → Except Stop Parsing
  | [] => .ok parsing
  | letter :: rest =>
    match Item.ofShort? letter with
    | none =>
      .error (.mistake (.unexpected (String.ofList ['-', letter]) none true []))
    | some item =>
      if !item.takesValue then do
        let parsing ← parsing.takeOption item
        parsing.takeShort rest
      else
        match rest with
        | [] => parsing.takeOption item
        | '=' :: value => do
          let parsing ← parsing.resolve
          parsing.accept item (some (String.ofList value))
        | value => do
          let parsing ← parsing.resolve
          parsing.accept item (some (String.ofList value))

def takeValue (parsing : Parsing) (word : String) : Except Stop Parsing :=
  match parsing.pending, parsing.valuesOnly with
  | some (item, none), false => .ok { parsing with pending := some (item, some word) }
  | _, _ => do
    if parsing.hasScript then throw (.mistake (.unexpected word none false []))
    let parsing ← parsing.resolve
    return { parsing with pending := some (.script, some word), hasScript := true }

def takeWord (parsing : Parsing) (word : String) : Except Stop Parsing :=
  if parsing.valuesOnly then parsing.takeValue word
  else
    match word.toList with
    | ['-', '-'] => .ok { parsing with valuesOnly := true }
    | '-' :: '-' :: name => parsing.takeLong name
    | '-' :: letter :: letters => parsing.takeShort (letter :: letters)
    | _ => parsing.takeValue word

/-- The commands and a script exclude each other. Messages start from the one that came first. -/
def checkConflict (parsing : Parsing) : Except Stop Parsing :=
  match parsing.used.filter fun item => item = .commands || item = .script with
  | [first, second] =>
    .error (.mistake (.conflict first second (parsing.used.filter (· ≠ second))))
  | _ => .ok parsing

end Parsing

def parse (words : List String) : Except Mistake Request :=
  let result : Except Stop Parsing := do
    let parsing ← words.foldlM Parsing.takeWord Parsing.start
    let parsing ← parsing.resolve
    parsing.checkConflict
  match result with
  | .ok parsing => .ok (.run parsing.arguments)
  | .error .help => .ok .help
  | .error .version => .ok .version
  | .error (.mistake mistake) => .error mistake

end CommandShell.CommandLine
