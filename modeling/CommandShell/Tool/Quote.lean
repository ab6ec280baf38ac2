import CommandShell.Machine.Bytes

/-!
How messages show the arguments of programs: as a shell would read them, or between plain quotes.
-/

namespace CommandShell.Quote

def isPrintable (c : Char) : Bool := ' ' ≤ c && c ≤ '~'

def letter? (c : Char) : Option Char :=
  match c with
  | '\x07' => some 'a'
  | '\x08' => some 'b'
  | '\x0c' => some 'f'
  | '\n' => some 'n'
  | '\r' => some 'r'
  | '\t' => some 't'
  | '\x0b' => some 'v'
  | _ => none

def octal (c : Char) : List Char :=
  let n := c.toNat
  [n / 64, n / 8 % 8, n % 8].map fun digit => Char.ofNat (48 + digit)

/-- What stands behind a backslash for a character that cannot be printed. -/
def escaped (c : Char) : List Char :=
  match letter? c with
  | some letter => ['\\', letter]
  | none => '\\' :: octal c

/-- The characters that have a meaning for a shell anywhere. -/
def special : List Char :=
  [' ', '!', '\x22', '$', '&', '(', ')', '*', ';', '<', '=', '>', '[', '^', '\x60', '|', '\x27',
    '\\', '?']

/-- Whether a shell would not read a name as it is. A colon counts where one follows the name. -/
def isNeeded (colon : Bool) (name : List Char) : Bool :=
  name.isEmpty || name = ['\x7b'] || name = ['\x7d'] ||
    name.head? = some '#' || name.head? = some '~' ||
    name.any fun c => special.contains c || !isPrintable c || (colon && c = ':')

/-- Whether a character means the same between single and double quotes. The first one is told
apart. -/
def isPlain (first single : Bool) (c : Char) : Bool :=
  if c = '#' || c = '~' then first
  else if c = '\x7b' || c = '\x7d' then first && single
  else c = ' ' || c = '\x27' || (isPrintable c && !special.contains c)

/-- A name between single quotes. Characters that cannot be printed are written as escapes in a
quote of their own; `escaping` says whether one is open. -/
def singleFrom (escaping : Bool) : List Char → List Char
  | [] => ['\x27']
  | c :: rest =>
    if !isPrintable c then
      (if escaping then [] else ['\x27', '$', '\x27']) ++ escaped c ++ singleFrom true rest
    else
      let close := if escaping then ['\x27', '\x27'] else []
      if c = '\x27' then ['\x27', '\\', '\x27', '\x27'] ++ singleFrom false rest
      else close ++ c :: singleFrom false rest

def always (name : List Char) : List Char :=
  let single := name.length = 1
  let plain := (name.zipIdx.all fun (c, i) => isPlain (i = 0) single c)
  if name.contains '\x27' && plain then ['\x22'] ++ name ++ ['\x22']
  else '\x27' :: singleFrom false name

/-- A name as a shell would read it, in quotes only if it needs them. A colon may follow it. -/
def asNeeded (colon : Bool) (name : List Char) : List Char :=
  if isNeeded colon name then always name else name

def plain (text : List Char) : List Char :=
  ['\x27'] ++ (text.flatMap fun c =>
    if c = '\x27' || c = '\\' then ['\\', c] else if isPrintable c then [c] else escaped c) ++
      ['\x27']

end CommandShell.Quote

namespace CommandShell.Bytes

def quoted (name : Bytes) : Bytes := ofChars (Quote.always name.toChars)

/-- A name as a shell would read it, in quotes only if it needs them, where a colon follows. -/
def shown (name : Bytes) : Bytes := ofChars (Quote.asNeeded true name.toChars)

def shellWord (word : Bytes) : Bytes := ofChars (Quote.asNeeded false word.toChars)

def plainQuoted (text : Bytes) : Bytes := ofChars (Quote.plain text.toChars)

end CommandShell.Bytes
