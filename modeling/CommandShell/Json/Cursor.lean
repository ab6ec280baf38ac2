import CommandShell.Json.Complaint

/-!
A place in a JSON text while it is read, and what a reader gives.
-/

namespace CommandShell.Json

/-- What is still to be read, and how many bytes were read before it. -/
structure Cursor where
  rest : List Char
  offset : Nat
  deriving DecidableEq, Repr

/-- A value and the place behind it, or a complaint. -/
abbrev Reader (α : Type) := Cursor → Except Complaint (α × Cursor)

namespace Cursor

def ofText (source : List Char) : Cursor := ⟨source, 0⟩

/-- White space between the parts of a document. -/
def isSpace (c : Char) : Bool := c == ' ' || c == '\t' || c == '\n' || c == '\r'

/-- The place behind any white space. White space is one byte to the character. -/
def skipSpace (cursor : Cursor) : Cursor :=
  let spaces := cursor.rest.takeWhile isSpace
  ⟨cursor.rest.dropWhile isSpace, cursor.offset + spaces.length⟩

def advance (cursor : Cursor) : Cursor := ⟨cursor.rest.drop 1, cursor.offset + 1⟩

/-- A complaint about what was read last. -/
def behind (cursor : Cursor) (cause : Cause) : Complaint := ⟨cause, cursor.offset⟩

/-- A complaint about what comes next. -/
def ahead (cursor : Cursor) (cause : Cause) : Complaint :=
  ⟨cause, if cursor.rest.isEmpty then cursor.offset else cursor.offset + 1⟩

end Cursor

end CommandShell.Json
