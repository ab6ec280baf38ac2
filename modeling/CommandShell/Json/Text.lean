import CommandShell.Json.Cursor

/-!
Texts in a JSON document. The place is behind the opening quote.
-/

namespace CommandShell.Json

def hexValue? (c : Char) : Option Nat :=
  if '0' ≤ c && c ≤ '9' then some (c.toNat - 48)
  else if 'a' ≤ c && c ≤ 'f' then some (c.toNat - 87)
  else if 'A' ≤ c && c ≤ 'F' then some (c.toNat - 55)
  else none

def hexValues? (a b c d : Char) : Option Nat := do
  return (((← hexValue? a) * 16 + (← hexValue? b)) * 16 + (← hexValue? c)) * 16 + (← hexValue? d)

def byteSize (text : List Char) : Nat := text.foldr (fun c size => c.utf8Size + size) 0

/-- Why the next four bytes are no escape. -/
def badHex (rest : List Char) (offset : Nat) : Complaint :=
  if byteSize rest < 4 then ⟨.endInString, offset + byteSize rest⟩
  else ⟨.brokenEscape, offset + 4⟩

def isHighSurrogate (n : Nat) : Bool := 0xD800 ≤ n && n ≤ 0xDBFF

def isLowSurrogate (n : Nat) : Bool := 0xDC00 ≤ n && n ≤ 0xDFFF

/-- The character that a pair of surrogates stands for. -/
def pairedChar (high low : Nat) : Char :=
  Char.ofNat (0x10000 + (high - 0xD800) * 0x400 + (low - 0xDC00))

/-- The character that a letter stands for behind a backslash. -/
def escaped? : Char → Option Char
  | '\x22' => some '\x22'
  | '\\' => some '\\'
  | '/' => some '/'
  | 'b' => some '\x08'
  | 'f' => some '\x0c'
  | 'n' => some '\n'
  | 'r' => some '\r'
  | 't' => some '\t'
  | _ => none

/-- The rest of a text, where `read` are the characters read so far, the last one first. -/
def readTextFrom (read : List Char) : List Char → Nat → Except Complaint (String × Cursor)
  | [], offset => .error ⟨.endInString, offset⟩
  | '\x22' :: rest, offset => .ok (String.ofList read.reverse, ⟨rest, offset + 1⟩)
  | '\\' :: 'u' :: a :: b :: c :: d :: '\\' :: 'u' :: e :: f :: g :: h :: rest, offset =>
    match hexValues? a b c d with
    | none =>
        .error (badHex (a :: b :: c :: d :: '\\' :: 'u' :: e :: f :: g :: h :: rest) (offset + 2))
    | some first =>
      if isLowSurrogate first then .error ⟨.loneSurrogate, offset + 6⟩
      else if isHighSurrogate first then
        match hexValues? e f g h with
        | none => .error (badHex (e :: f :: g :: h :: rest) (offset + 8))
        | some second =>
          if isLowSurrogate second then
            readTextFrom (pairedChar first second :: read) rest (offset + 12)
          else .error ⟨.loneSurrogate, offset + 12⟩
      else readTextFrom (Char.ofNat first :: read) ('\\' :: 'u' :: e :: f :: g :: h :: rest)
        (offset + 6)
  | '\\' :: 'u' :: a :: b :: c :: d :: rest, offset =>
    match hexValues? a b c d with
    | none => .error (badHex (a :: b :: c :: d :: rest) (offset + 2))
    | some value =>
      if isLowSurrogate value then .error ⟨.loneSurrogate, offset + 6⟩
      else if isHighSurrogate value then
        match rest with
        | [] => .error ⟨.endInString, offset + 6⟩
        | '\\' :: [] => .error ⟨.endInString, offset + 7⟩
        | '\\' :: 'u' :: digits => .error (badHex digits (offset + 8))
        | '\\' :: _ :: _ => .error ⟨.brokenPair, offset + 8⟩
        | _ :: _ => .error ⟨.brokenPair, offset + 7⟩
      else readTextFrom (Char.ofNat value :: read) rest (offset + 6)
  | '\\' :: 'u' :: rest, offset => .error (badHex rest (offset + 2))
  | '\\' :: [], offset => .error ⟨.endInString, offset + 1⟩
  | '\\' :: c :: rest, offset =>
    match escaped? c with
    | some meant => readTextFrom (meant :: read) rest (offset + 2)
    | none => .error ⟨.brokenEscape, offset + 2⟩
  | c :: rest, offset =>
    if c.toNat < 0x20 then .error ⟨.controlCharacter, offset + 1⟩
    else readTextFrom (c :: read) rest (offset + c.utf8Size)

def readText : Reader String := fun cursor => readTextFrom [] cursor.rest cursor.offset

end CommandShell.Json
