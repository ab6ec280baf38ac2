/-!
Byte strings, as files, pipes and programs hold them, and the texts they encode.
-/

namespace CommandShell

abbrev Bytes := List UInt8

namespace Bytes

def ofText (text : String) : Bytes := text.toUTF8.toList

def toChars (bytes : Bytes) : List Char := bytes.map fun b => Char.ofNat b.toNat

def ofChars (chars : List Char) : Bytes := chars.map fun c => c.toNat.toUInt8

/-- A character of which some bytes were read: how many are missing, the bounds of the next one, and
the bits so far. -/
structure Partial where
  missing : Nat
  least : Nat
  greatest : Nat
  bits : Nat

/-- What a byte starts: a character of its own, a longer one, or none. -/
def begin (byte : UInt8) : Option (Char ⊕ Partial) :=
  let b := byte.toNat
  if b < 0x80 then some (.inl (Char.ofNat b))
  else if b < 0xC2 then none
  else if b < 0xE0 then some (.inr ⟨1, 0x80, 0xBF, b - 0xC0⟩)
  else if b = 0xE0 then some (.inr ⟨2, 0xA0, 0xBF, 0⟩)
  else if b = 0xED then some (.inr ⟨2, 0x80, 0x9F, 0xD⟩)
  else if b < 0xF0 then some (.inr ⟨2, 0x80, 0xBF, b - 0xE0⟩)
  else if b = 0xF0 then some (.inr ⟨3, 0x90, 0xBF, 0⟩)
  else if b < 0xF4 then some (.inr ⟨3, 0x80, 0xBF, b - 0xF0⟩)
  else if b = 0xF4 then some (.inr ⟨3, 0x80, 0x8F, 4⟩)
  else none

/-- The characters that bytes encode, with nothing in place of bytes that encode none. `read` are
those before, the latest first. -/
def charsFrom (read : List (Option Char)) : Option Partial → Bytes → List (Option Char)
  | none, [] => read.reverse
  | some _, [] => (none :: read).reverse
  | some partly, b :: rest =>
    if partly.least ≤ b.toNat && b.toNat ≤ partly.greatest then
      let bits := partly.bits * 64 + (b.toNat - 0x80)
      if partly.missing ≤ 1 then charsFrom (some (Char.ofNat bits) :: read) none rest
      else charsFrom read (some ⟨partly.missing - 1, 0x80, 0xBF, bits⟩) rest
    else
      match begin b with
      | some (.inl c) => charsFrom (some c :: none :: read) none rest
      | some (.inr partly) => charsFrom (none :: read) (some partly) rest
      | none => charsFrom (none :: none :: read) none rest
  | none, b :: rest =>
    match begin b with
    | some (.inl c) => charsFrom (some c :: read) none rest
    | some (.inr partly) => charsFrom read (some partly) rest
    | none => charsFrom (none :: read) none rest

/-- The characters that bytes encode, with nothing in place of bytes that encode none. -/
def chars (bytes : Bytes) : List (Option Char) := charsFrom [] none bytes

def toText? (bytes : Bytes) : Option String :=
  ((chars bytes).mapM id).map String.ofList

/-- The text that the bytes encode, with a mark in place of bytes that encode none. -/
def toText (bytes : Bytes) : String :=
  String.ofList ((chars bytes).map fun c => c.getD '�')

def byte (c : Char) : UInt8 := c.toNat.toUInt8

/-- The lines of a byte string, where `line` is what was read of the first one and `read` are the
lines before it, both the latest first. -/
def linesFrom (read : List Bytes) (line : Bytes) : Bytes → List Bytes
  | [] => (if line.isEmpty then read else line.reverse :: read).reverse
  | b :: rest =>
    if b = byte '\n' then linesFrom ((b :: line).reverse :: read) [] rest
    else linesFrom read (b :: line) rest

/-- The lines, each with its line break; the last one may have none. -/
def lines (bytes : Bytes) : List Bytes := linesFrom [] [] bytes

def chomp (line : Bytes) : Bytes :=
  if line.getLast? = some (byte '\n') then line.dropLast else line

def splitFrom (separator : UInt8) (part : Bytes) : Bytes → List Bytes
  | [] => [part.reverse]
  | b :: rest =>
    if b = separator then part.reverse :: splitFrom separator [] rest
    else splitFrom separator (b :: part) rest

def split (separator : Char) (bytes : Bytes) : List Bytes := splitFrom (byte separator) [] bytes

def before : Bytes → Bytes → Bool
  | _, [] => false
  | [], _ :: _ => true
  | a :: s, b :: t => a < b || (a == b && before s t)

end Bytes

end CommandShell
