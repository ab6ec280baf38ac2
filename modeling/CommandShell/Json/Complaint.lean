import CommandShell.Text.Printable

/-!
What can be wrong with a JSON text, and where. A position counts the bytes before it; messages give
it as a line and a column.
-/

namespace CommandShell.Json

/-- A value of another type than the one asked for. -/
inductive Found where
  | null
  | bool (value : Bool)
  | natural (value : Nat)
  | negative (value : Int)
  /-- A number that is no whole number in range, as it is written. -/
  | float (text : String)
  | string (value : String)
  | list
  | object
  deriving DecidableEq, Repr

namespace Found

def describe : Found → String
  | .null => "null"
  | .bool true => "boolean `true`"
  | .bool false => "boolean `false`"
  | .natural value => "integer `" ++ toString value ++ "`"
  | .negative value => "integer `" ++ toString value ++ "`"
  | .float text => "floating point `" ++ text ++ "`"
  | .string value => "string " ++ Text.shown value
  | .list => "sequence"
  | .object => "map"

end Found

inductive Cause where
  | endInValue
  | endInObject
  | endInList
  | endInString
  | nameNotString
  | commaOrBrace
  | commaOrBracket
  | colon
  | trailingComma
  | trailingCharacters
  | unknownField (name : String) (fields : List String)
  | duplicateField (name : String)
  | unknownVariant (name : String) (variants : List String)
  | wrongType (found : Found) (expected : String)
  | wrongValue (found : Found) (expected : String)
  | noValue
  | brokenWord
  | brokenNumber
  | outOfRange
  | controlCharacter
  | brokenEscape
  | loneSurrogate
  | brokenPair
  deriving DecidableEq, Repr

namespace Cause

def marked (name : String) : String := "`" ++ name ++ "`"

/-- The names that were possible. -/
def choice : List String → String
  | [] => "nothing"
  | [a] => marked a
  | [a, b] => marked a ++ " or " ++ marked b
  | names => "one of " ++ String.intercalate ", " (names.map marked)

def message : Cause → String
  | .endInValue => "EOF while parsing a value"
  | .endInObject => "EOF while parsing an object"
  | .endInList => "EOF while parsing a list"
  | .endInString => "EOF while parsing a string"
  | .nameNotString => "key must be a string"
  | .commaOrBrace => "expected `,` or `\x7d`"
  | .commaOrBracket => "expected `,` or `]`"
  | .colon => "expected `:`"
  | .trailingComma => "trailing comma"
  | .trailingCharacters => "trailing characters"
  | .unknownField name fields => "unknown field " ++ marked name ++ ", expected " ++ choice fields
  | .duplicateField name => "duplicate field " ++ marked name
  | .unknownVariant name variants =>
    "unknown variant " ++ marked name ++ ", expected " ++ choice variants
  | .wrongType found expected => "invalid type: " ++ found.describe ++ ", expected " ++ expected
  | .wrongValue found expected => "invalid value: " ++ found.describe ++ ", expected " ++ expected
  | .noValue => "expected value"
  | .brokenWord => "expected ident"
  | .brokenNumber => "invalid number"
  | .outOfRange => "number out of range"
  | .controlCharacter => "control character (\\u0000-\\u001F) found while parsing a string"
  | .brokenEscape => "invalid escape"
  | .loneSurrogate => "lone leading surrogate in hex escape"
  | .brokenPair => "unexpected end of hex escape"

end Cause

/-- What is wrong, and how many bytes stand before the place. -/
structure Complaint where
  cause : Cause
  position : Nat
  deriving DecidableEq, Repr

namespace Complaint

/-- The line of a position and the number of bytes before it on the line, where `line` and `column`
are those of the start of the text. -/
def locate (line column : Nat) : List Char → Nat → Nat × Nat
  | [], bytes => (line, column + bytes)
  | c :: text, bytes =>
    if bytes < c.utf8Size then (line, column + bytes)
    else if c = '\n' then locate (line + 1) 0 text (bytes - 1)
    else locate line (column + c.utf8Size) text (bytes - c.utf8Size)

def message (complaint : Complaint) (source : List Char) : String :=
  let (line, column) := locate 1 0 source complaint.position
  complaint.cause.message ++ " at line " ++ toString line ++ " column " ++ toString column

end Complaint

end CommandShell.Json
