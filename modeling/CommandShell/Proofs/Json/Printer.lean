import CommandShell.Json.Basic
import CommandShell.Proofs.Json.Grammar

/-!
What is printed is a JSON document of the value that was meant: texts in quotes, with every control
character escaped, the indented form of a document, and objects without white space.
-/

namespace CommandShell.Json

/-- The text spells the value, whatever comes behind it that does not make a number longer. -/
def Spells (value : Value) (text : List Char) : Prop :=
  ∀ rest, Complete rest → Written value (text ++ rest) rest

theorem Spells.isDocument {value : Value} {text : List Char} (spells : Spells value text) :
    IsDocument value text := by
  have written := spells [] nofun
  rw [List.append_nil] at written
  exact ⟨text, [], .nothing, written, .nothing⟩

/-! Texts. -/

theorem hexValues?_control :
    ∀ n < 32, hexValues? '0' '0' (hexDigit (n / 16)) (hexDigit (n % 16)) = some n := by
  decide

theorem letter_escape (c : Char) (rest : List Char) : Letter c (escape c ++ rest) rest := by
  have short {mark c' : Char} (stands : (mark, c') ∈ shortEscapes) (same : c = c') :
      Letter c (['\\', mark] ++ rest) rest := same ▸ .short stands
  unfold escape
  split
  · next same => exact short (by decide) same
  split
  · next same => exact short (by decide) same
  split
  · next code => exact short (by decide) (Char.toNat_inj.mp code : c = '\x08')
  split
  · next same => exact short (by decide) same
  split
  · next same => exact short (by decide) same
  split
  · next code => exact short (by decide) (Char.toNat_inj.mp code : c = '\x0c')
  split
  · next same => exact short (by decide) same
  split
  · next control =>
    have low : isLowSurrogate c.toNat = false := by simp [isLowSurrogate]; omega
    have high : isHighSurrogate c.toNat = false := by simp [isHighSurrogate]; omega
    have code : Letter (Char.ofNat c.toNat) _ rest :=
      .code (hexValues?_control c.toNat control) low high
    rwa [Char.ofNat_toNat] at code
  · next quote escape _ _ _ _ _ visible => exact .plain (Nat.not_lt.mp visible) quote escape

theorem letters_escape (letters rest : List Char) :
    Letters letters (letters.flatMap escape ++ '\x22' :: rest) rest := by
  induction letters with
  | nil => exact .close
  | cons c letters inductionHypothesis =>
      rw [List.flatMap_cons, List.append_assoc]
      exact .letter (letter_escape c _) inductionHypothesis

theorem spells_quote (text : String) : Spells (.string text) (quote text) := by
  intro rest _
  have letters := letters_escape text.toList rest
  simpa [quote] using Written.string letters

/-! The indented form. -/

mutual

/-- The value of a document. -/
def value : Json → Value
  | .null => .null
  | .bool value => .bool value
  | .string value => .string value
  | .array elements => .array (values elements)
  | .object members => .object (memberValues members)

def values : List Json → List Value
  | [] => []
  | element :: others => element.value :: values others

def memberValues : List (String × Json) → List (String × Value)
  | [] => []
  | (name, member) :: others => (name, member.value) :: memberValues others

end

theorem complete_cons {c : Char} (ends : prolongs c = false) (rest : List Char) :
    Complete (c :: rest) := by
  rintro _ ⟨⟩
  exact ends

theorem blank_newLine (depth : Nat) (rest : List Char) : Blank (newLine depth ++ rest) rest := by
  refine .space rfl ?_
  induction 2 * depth with
  | zero => exact .nothing
  | succ n inductionHypothesis => exact .space rfl inductionHypothesis

theorem writtenMember_quote (name : String) {value : Value} {text begin rest : List Char}
    (blank : Blank text begin) (written : Written value begin rest) :
    WrittenMember name value (quote name ++ ':' :: text) rest := by
  simpa [quote] using WrittenMember.mk (letters_escape name.toList _) .nothing blank written

theorem complete_writeElements (elements : List Json) (depth outer : Nat) (rest : List Char) :
    Complete (writeElements depth elements ++ (newLine outer ++ rest)) := by
  cases elements <;> exact complete_cons rfl _

theorem complete_writeMembers (members : List (String × Json)) (depth outer : Nat)
    (rest : List Char) :
    Complete (writeMembers depth members ++ (newLine outer ++ rest)) := by
  cases members <;> exact complete_cons rfl _

mutual

theorem spells_write :
    ∀ (document : Json) (depth : Nat), Spells document.value (document.write depth)
  | .null, _ => fun _ _ => .nullWord
  | .bool true, _ => fun _ _ => .trueWord
  | .bool false, _ => fun _ _ => .falseWord
  | .string text, _ => spells_quote text
  | .array [], _ => fun _ _ => .emptyArray .nothing
  | .array (first :: others), depth => by
      intro rest _
      have element :=
        spells_write first (depth + 1) _
          (complete_writeElements others (depth + 1) depth (']' :: rest))
      have elements := written_writeElements others (depth + 1) depth rest
      simpa [write, value, values] using Written.array (blank_newLine (depth + 1) _) element
        elements
  | .object [], _ => fun _ _ => .emptyObject .nothing
  | .object ((name, first) :: others), depth => by
      intro rest _
      have member :=
        spells_write first (depth + 1) _
          (complete_writeMembers others (depth + 1) depth ('\x7d' :: rest))
      have members := written_writeMembers others (depth + 1) depth rest
      simpa [write, value, memberValues] using
        Written.object (blank_newLine (depth + 1) _)
          (writtenMember_quote name (.space rfl .nothing) member)
          members

theorem written_writeElements : ∀ (elements : List Json) (depth outer : Nat) (rest : List Char),
    WrittenElements (values elements)
      (writeElements depth elements ++ (newLine outer ++ ']' :: rest)) rest
  | [], _, outer, rest => .close (blank_newLine outer _)
  | first :: others, depth, outer, rest => by
      have element :=
        spells_write first depth _ (complete_writeElements others depth outer (']' :: rest))
      have elements := written_writeElements others depth outer rest
      simpa [writeElements, values] using
        WrittenElements.next .nothing (blank_newLine depth _) element elements

theorem written_writeMembers :
    ∀ (members : List (String × Json)) (depth outer : Nat) (rest : List Char),
      WrittenMembers (memberValues members)
        (writeMembers depth members ++ (newLine outer ++ '\x7d' :: rest)) rest
  | [], _, outer, rest => .close (blank_newLine outer _)
  | (name, first) :: others, depth, outer, rest => by
      have member :=
        spells_write first depth _ (complete_writeMembers others depth outer ('\x7d' :: rest))
      have members := written_writeMembers others depth outer rest
      simpa [writeMembers, memberValues] using
        WrittenMembers.next .nothing (blank_newLine depth _)
          (writtenMember_quote name (.space rfl .nothing) member) members

end

theorem isDocument_pretty (document : Json) : IsDocument document.value document.pretty.toList := by
  rw [pretty, String.toList_ofList]
  exact (spells_write document 0).isDocument

/-! Objects without white space. -/

/-- Names with the texts of their values, each behind a comma, and the closing brace. -/
def compactMembers : List (String × List Char) → List Char
  | [] => ['\x7d']
  | (name, text) :: members => ',' :: quote name ++ ':' :: text ++ compactMembers members

/-- An object without white space. -/
def compactObject : List (String × List Char) → List Char
  | [] => ['\x7b', '\x7d']
  | (name, text) :: members => '\x7b' :: quote name ++ ':' :: text ++ compactMembers members

/-- Each member of an object with the text that spells its value. -/
inductive SpellsEach : List (String × Value) → List (String × List Char) → Prop where
  | nil : SpellsEach [] []
  | cons (name : String) {value : Value} {text : List Char} {members : List (String × Value)}
      {texts : List (String × List Char)} (first : Spells value text)
        (others : SpellsEach members texts) :
      SpellsEach ((name, value) :: members) ((name, text) :: texts)

theorem complete_compactMembers (texts : List (String × List Char)) (rest : List Char) :
    Complete (compactMembers texts ++ rest) := by
  cases texts <;> exact complete_cons rfl _

theorem SpellsEach.written {members : List (String × Value)} {texts : List (String × List Char)}
    (each : SpellsEach members texts) (rest : List Char) :
    WrittenMembers members (compactMembers texts ++ rest) rest := by
  induction each with
  | nil => exact .close .nothing
  | @cons name value text members texts first others inductionHypothesis =>
      have written := first _ (complete_compactMembers texts rest)
      simpa [compactMembers] using
        WrittenMembers.next .nothing .nothing (writtenMember_quote name .nothing written)
          inductionHypothesis

theorem SpellsEach.spells {members : List (String × Value)} {texts : List (String × List Char)}
    (each : SpellsEach members texts) : Spells (.object members) (compactObject texts) := by
  intro rest _
  cases each with
  | nil => exact .emptyObject .nothing
  | @cons name value text members texts first others =>
      have written := first _ (complete_compactMembers texts rest)
      simpa [compactObject] using
        Written.object .nothing (writtenMember_quote name .nothing written) (others.written rest)

end CommandShell.Json
