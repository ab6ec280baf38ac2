/-!
JSON documents and their indented form: two spaces for every level, one member or element on a line,
and nothing between the brackets of an empty list.
-/

namespace CommandShell

/-- A JSON document without numbers. Members keep their order. -/
inductive Json where
  | null
  | bool (value : Bool)
  | string (value : String)
  | array (elements : List Json)
  | object (members : List (String × Json))

namespace Json

def hexDigit (n : Nat) : Char :=
  if n < 10 then Char.ofNat (48 + n) else Char.ofNat (87 + n)

/-- How a character is written inside quotes. -/
def escape (c : Char) : List Char :=
  if c = '\x22' then ['\\', '\x22']
  else if c = '\\' then ['\\', '\\']
  else if c.toNat = 8 then ['\\', 'b']
  else if c = '\t' then ['\\', 't']
  else if c = '\n' then ['\\', 'n']
  else if c.toNat = 12 then ['\\', 'f']
  else if c = '\r' then ['\\', 'r']
  else if c.toNat < 32 then ['\\', 'u', '0', '0', hexDigit (c.toNat / 16), hexDigit (c.toNat % 16)]
  else [c]

def quote (text : String) : List Char :=
  '\x22' :: text.toList.flatMap escape ++ ['\x22']

def newLine (depth : Nat) : List Char :=
  '\n' :: List.replicate (2 * depth) ' '

mutual

/-- The indented form of a document that stands at a depth. -/
def write (depth : Nat) : Json → List Char
  | .null => ['n', 'u', 'l', 'l']
  | .bool true => ['t', 'r', 'u', 'e']
  | .bool false => ['f', 'a', 'l', 's', 'e']
  | .string value => quote value
  | .array [] => ['[', ']']
  | .array (first :: others) =>
    '[' :: newLine (depth + 1) ++ write (depth + 1) first ++ writeElements (depth + 1) others ++
      newLine depth ++ [']']
  | .object [] => ['\x7b', '\x7d']
  | .object ((name, first) :: others) =>
    '\x7b' :: newLine (depth + 1) ++ quote name ++ [':', ' '] ++ write (depth + 1) first ++
      writeMembers (depth + 1) others ++ newLine depth ++ ['\x7d']

/-- The elements after the first, each after a comma and on a line of its own. -/
def writeElements (depth : Nat) : List Json → List Char
  | [] => []
  | element :: others => ',' :: newLine depth ++ write depth element ++ writeElements depth others

/-- The members after the first, each after a comma and on a line of its own. -/
def writeMembers (depth : Nat) : List (String × Json) → List Char
  | [] => []
  | (name, value) :: others =>
    ',' :: newLine depth ++ quote name ++ [':', ' '] ++ write depth value ++
      writeMembers depth others

end

def pretty (document : Json) : String := String.ofList (document.write 0)

end Json

end CommandShell
