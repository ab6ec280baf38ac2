import CommandShell.Json.Number
import CommandShell.Json.Text

/-!
Single values in a JSON document: the one that stands at a place, and the one of a wanted type.
-/

namespace CommandShell.Json

/-- The rest of a word, letter by letter. -/
def readWord (found : Found) : List Char → Reader Found
  | [] => fun cursor => .ok (found, cursor)
  | letter :: letters => fun cursor =>
    match cursor.rest with
    | [] => .error (cursor.behind .endInValue)
    | c :: _ =>
      if c = letter then readWord found letters cursor.advance
      else .error ⟨.brokenWord, cursor.offset + 1⟩

/-- The value at a place. Of a list or an object nothing is read. -/
def readScalar : Reader Found := fun cursor =>
  match cursor.rest with
  | 'n' :: _ => readWord .null ['u', 'l', 'l'] cursor.advance
  | 't' :: _ => readWord (.bool true) ['r', 'u', 'e'] cursor.advance
  | 'f' :: _ => readWord (.bool false) ['a', 'l', 's', 'e'] cursor.advance
  | '-' :: _ => readNumber true cursor.advance
  | '\x22' :: _ => (readText cursor.advance).map fun read => (.string read.1, read.2)
  | '[' :: _ => .ok (.list, cursor)
  | '\x7b' :: _ => .ok (.object, cursor)
  | c :: _ => if c.isDigit then readNumber false cursor else .error (cursor.ahead .noValue)
  | [] => .error (cursor.ahead .noValue)

/-- The value of a wanted type; `refuse` says what is wrong with any other. -/
def readAs {α : Type} (wanted : Found → Option α) (refuse : Found → Cause) : Reader α :=
  fun cursor => do
    let cursor := cursor.skipSpace
    if cursor.rest.isEmpty then throw (cursor.ahead .endInValue)
    let (found, behind) ← readScalar cursor
    match wanted found with
    | some value => return (value, behind)
    | none => throw (behind.behind (refuse found))

/-- Another value is of the wrong type. -/
def insteadOf (expected : String) (found : Found) : Cause := .wrongType found expected

/-- A negative number is of the right type and has the wrong value. -/
def insteadOfNatural : Found → Cause
  | .negative value => .wrongValue (.negative value) "usize"
  | found => .wrongType found "usize"

def readBool : Reader Bool :=
  readAs (fun | .bool value => some value | _ => none) (insteadOf "a boolean")

def wantedString : Found → Option String
  | .string value => some value
  | _ => none

def readString : Reader String := readAs wantedString (insteadOf "a string")

def readNatural : Reader Nat :=
  readAs (fun | .natural value => some value | _ => none) insteadOfNatural

def readNull : Reader Unit :=
  readAs (fun | .null => some () | _ => none) (insteadOf "unit")

end CommandShell.Json
