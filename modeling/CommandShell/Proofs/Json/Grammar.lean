import CommandShell.Json.Text

/-!
The grammar of JSON, as a relation between a value, a text that begins with it, and what is left of
the text behind it. White space may stand around every value, name and mark, a letter of a text may
stand for itself or be escaped in several ways, and members may come in any order and more than
once: what a reader makes of them is not said here.
-/

namespace CommandShell.Json

/-- A value in a JSON text. A number is kept as it is written, and members as they are listed. -/
inductive Value where
  | null
  | bool (value : Bool)
  | number (literal : List Char)
  | string (text : String)
  | array (elements : List Value)
  | object (members : List (String × Value))

/-- White space, of any length. -/
inductive Blank : List Char → List Char → Prop where
  | nothing {text : List Char} : Blank text text
  | space {c : Char} {text rest : List Char} (isSpace : Cursor.isSpace c = true)
      (blank : Blank text rest) :
      Blank (c :: text) rest

/-- What stands for a character behind a backslash. -/
def shortEscapes : List (Char × Char) :=
  [('\x22', '\x22'), ('\\', '\\'), ('/', '/'), ('b', '\x08'), ('f', '\x0c'), ('n', '\n'),
    ('r', '\r'), ('t', '\t')]

/-- A character inside quotes. One half of a pair stands for no character. -/
inductive Letter : Char → List Char → List Char → Prop where
  | plain {c : Char} {rest : List Char} (visible : 0x20 ≤ c.toNat) (quote : c ≠ '\x22')
      (escape : c ≠ '\\') :
      Letter c (c :: rest) rest
  | short {mark c : Char} {rest : List Char} (stands : (mark, c) ∈ shortEscapes) :
      Letter c ('\\' :: mark :: rest) rest
  | code {a b c d : Char} {rest : List Char} {n : Nat} (digits : hexValues? a b c d = some n)
      (low : isLowSurrogate n = false) (high : isHighSurrogate n = false) :
      Letter (Char.ofNat n) ('\\' :: 'u' :: a :: b :: c :: d :: rest) rest
  | pair {a b c d e f g h : Char} {rest : List Char} {first second : Nat}
      (firstDigits : hexValues? a b c d = some first)
        (secondDigits : hexValues? e f g h = some second)
      (high : isHighSurrogate first = true) (low : isLowSurrogate second = true) :
      Letter (pairedChar first second)
        ('\\' :: 'u' :: a :: b :: c :: d :: '\\' :: 'u' :: e :: f :: g :: h :: rest) rest

/-- Characters up to the closing quote. -/
inductive Letters : List Char → List Char → List Char → Prop where
  | close {rest : List Char} : Letters [] ('\x22' :: rest) rest
  | letter {c : Char} {letters text more rest : List Char} (first : Letter c text more)
      (others : Letters letters more rest) : Letters (c :: letters) text rest

/-- At least one digit. -/
def Digits (digits : List Char) : Prop := digits ≠ [] ∧ ∀ c ∈ digits, c.isDigit = true

/-- Digits without a zero that could be left out. -/
def Whole (digits : List Char) : Prop := Digits digits ∧ ∀ rest, digits = '0' :: rest → rest = []

/-- A point and digits, or nothing. -/
def Fraction (fraction : List Char) : Prop :=
  fraction = [] ∨ ∃ digits, fraction = '.' :: digits ∧ Digits digits

/-- A letter, a sign and digits, or nothing. The sign can be missing. -/
def Exponent (exponent : List Char) : Prop :=
  exponent = [] ∨ ∃ letter sign digits, exponent = letter :: (sign ++ digits) ∧
    letter ∈ ['e', 'E'] ∧ sign ∈ [[], ['+'], ['-']] ∧ Digits digits

/-- A number: a sign, a whole number, a fraction and an exponent, of which only the second has to be
there. -/
inductive Number : List Char → Prop where
  | mk {sign whole fraction exponent : List Char} (signed : sign ∈ [[], ['-']])
      (isWhole : Whole whole)
      (isFraction : Fraction fraction) (isExponent : Exponent exponent) :
      Number (sign ++ (whole ++ (fraction ++ exponent)))

/-- Whether a number could go on with a character. -/
def prolongs (c : Char) : Bool := c.isDigit || c == '.' || c == 'e' || c == 'E'

/-- What can stand behind a number: nothing that would make it longer. -/
def Complete (rest : List Char) : Prop := ∀ c ∈ rest.head?, prolongs c = false

mutual

/-- A text that begins with a value, and the rest of it. -/
inductive Written : Value → List Char → List Char → Prop where
  | nullWord {rest : List Char} : Written .null ('n' :: 'u' :: 'l' :: 'l' :: rest) rest
  | trueWord {rest : List Char} : Written (.bool true) ('t' :: 'r' :: 'u' :: 'e' :: rest) rest
  | falseWord {rest : List Char} :
      Written (.bool false) ('f' :: 'a' :: 'l' :: 's' :: 'e' :: rest) rest
  | number {literal rest : List Char} (isNumber : Number literal) (complete : Complete rest) :
      Written (.number literal) (literal ++ rest) rest
  | string {value : String} {text rest : List Char} (letters : Letters value.toList text rest) :
      Written (.string value) ('\x22' :: text) rest
  | emptyArray {text rest : List Char} (blank : Blank text (']' :: rest)) :
      Written (.array []) ('[' :: text) rest
  | array {first : Value} {others : List Value} {text value more rest : List Char}
      (blank : Blank text value)
      (written : Written first value more) (elements : WrittenElements others more rest) :
      Written (.array (first :: others)) ('[' :: text) rest
  | emptyObject {text rest : List Char} (blank : Blank text ('\x7d' :: rest)) :
      Written (.object []) ('\x7b' :: text) rest
  | object {name : String} {first : Value} {others : List (String × Value)}
      {text member more rest : List Char}
      (blank : Blank text member) (written : WrittenMember name first member more)
      (members : WrittenMembers others more rest) :
      Written (.object ((name, first) :: others)) ('\x7b' :: text) rest

/-- The elements behind the first, up to the closing bracket. -/
inductive WrittenElements : List Value → List Char → List Char → Prop where
  | close {text rest : List Char} (blank : Blank text (']' :: rest)) : WrittenElements [] text rest
  | next {first : Value} {others : List Value} {text behind value more rest : List Char}
      (comma : Blank text (',' :: behind)) (blank : Blank behind value)
        (written : Written first value more)
      (elements : WrittenElements others more rest) : WrittenElements (first :: others) text rest

/-- A name, a colon and a value. -/
inductive WrittenMember : String → Value → List Char → List Char → Prop where
  | mk {name : String} {value : Value} {text behind text' value' rest : List Char}
      (letters : Letters name.toList text behind) (colon : Blank behind (':' :: text'))
      (blank : Blank text' value') (written : Written value value' rest) :
      WrittenMember name value ('\x22' :: text) rest

/-- The members behind the first, up to the closing brace. -/
inductive WrittenMembers : List (String × Value) → List Char → List Char → Prop where
  | close {text rest : List Char} (blank : Blank text ('\x7d' :: rest)) :
      WrittenMembers [] text rest
  | next {name : String} {first : Value} {others : List (String × Value)}
      {text behind member more rest : List Char} (comma : Blank text (',' :: behind))
      (blank : Blank behind member) (written : WrittenMember name first member more)
      (members : WrittenMembers others more rest) :
        WrittenMembers ((name, first) :: others) text rest

end

/-- The text is a JSON document: one value, and white space around it. -/
def IsDocument (value : Value) (text : List Char) : Prop :=
  ∃ begin rest, Blank text begin ∧ Written value begin rest ∧ Blank rest []

end CommandShell.Json
