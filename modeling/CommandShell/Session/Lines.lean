import CommandShell.Machine.Bytes
import CommandShell.Session

/-!
The entries of a session that reads its lines from the standard input.
-/

namespace CommandShell

namespace Entry

/-- A line without its line break, which may have a carriage return before it. -/
def ofLine (line : Bytes) : Entry :=
  match line.toText? with
  | none => .failure (.stream .notText)
  | some text =>
    let chars := text.toList
    let chars :=
      if chars.getLast? = some '\n' then
        let chars := chars.dropLast
        if chars.getLast? = some '\r' then chars.dropLast else chars
      else chars
    .line (String.ofList chars)

def ofInput (input : Bytes) : List Entry := (Bytes.lines input).map ofLine

end Entry

end CommandShell
