import CommandShell.Proofs.Script.Printer
import Mathlib.Data.List.TakeWhile

/-!
Scripts that are a single bare word: a text without blanks, line breaks, quotes and the marks
between commands. Several rules of the grammar want its first characters, so it may be a comment, a
misplaced part of a compound statement, an assignment or a command. Which of them it is can be told
from the text alone.
-/

namespace CommandShell

/-- The text is a comment from its first character on. -/
def IsComment (text : String) : Prop := ∃ rest, text = "#" ++ rest

/-- The words that cannot stand where a command is expected. -/
def reservedWords : List String := ["if", "then", "elif", "else", "fi", "for", "do", "done"]

/-- The text is a reserved word, with nothing or a comment right behind it. -/
def IsReserved (text : String) : Prop :=
  ∃ word ∈ reservedWords, text = word ∨ ∃ rest, text = word ++ "#" ++ rest

/-- The characters that no bare word has. -/
def wordMarks : List Char := [' ', '\t', '\r', '\n', ';', '|', '&', '$', '\x27', '\x22']

namespace Reader

/-- The text is a run of plain characters. -/
def Bare (text : List Char) : Prop := ∀ c ∈ text, c ∉ wordMarks

namespace Bare

variable {text : List Char}

theorem of_cons {c : Char} (bare : Bare (c :: text)) : Bare text :=
  fun d membership => bare d (List.mem_cons_of_mem c membership)

theorem isDelimiter_eq_false (bare : Bare text) {c : Char} (membership : c ∈ text) :
    isDelimiter c = false := by
  have absent := bare c membership
  simp only [wordMarks, List.mem_cons, List.not_mem_nil, or_false, not_or] at absent
  simp [isDelimiter, isEnd, isBreak, absent]

theorem isBreak_eq_false (bare : Bare text) {c : Char} (membership : c ∈ text) :
    isBreak c = false := by
  have absent := bare c membership
  simp only [wordMarks, List.mem_cons, List.not_mem_nil, or_false, not_or] at absent
  simp [isBreak, absent]

theorem dropBlank?_eq (bare : Bare text) : dropBlank? text = none := by
  cases text with
  | nil => rfl
  | cons c rest =>
      have absent := bare c List.mem_cons_self
      have unbroken : dropBreak? rest = none :=
        Rule.dropBreak?_eq_none fun d first =>
          bare.of_cons.isBreak_eq_false (List.mem_of_mem_head? first)
      simp only [wordMarks, List.mem_cons, List.not_mem_nil, or_false, not_or] at absent
      rw [Rule.dropBlank?_eq]
      by_cases backslash : c = '\\' <;> simp [Peg.dropHead?, absent, backslash, unbroken]

theorem skipFiller_mark (bare : Bare ('#' :: text)) : skipFiller ('#' :: text) = [] := by
  have onLine : dropLine text = [] := by
    refine List.dropWhile_eq_nil_iff.mpr fun c membership => ?_
    simp [bare.of_cons.isBreak_eq_false membership]
  rw [skipFiller, skipBlanks_of_none bare.dropBlank?_eq]
  exact onLine

theorem skipOver_eq (bare : Bare text) (noComment : text.head? ≠ some '#') :
    skipOver isEnd text = text := by
  refine skipOver_of_rejected ?_ fun c first => ?_
  · rw [skipFiller, skipBlanks_of_none bare.dropBlank?_eq, dropComment_of_ne noComment]
  · have absent := bare c (List.mem_of_mem_head? first)
    simp only [wordMarks, List.mem_cons, List.not_mem_nil, or_false, not_or] at absent
    simp [isEnd, isBreak, absent]

theorem readPiece?_eq (bare : Bare text) (nonempty : text ≠ []) :
    readPiece? text = some (.literal (.ofList text), []) := by
  obtain ⟨c, rest, rfl⟩ := List.exists_cons_of_ne_nil nonempty
  have inside : ∀ d ∈ rest, (!isDelimiter d) = true := fun d membership => by
    simp [bare.of_cons.isDelimiter_eq_false membership]
  rw [readPiece?_of_plain (bare.isDelimiter_eq_false List.mem_cons_self),
    List.takeWhile_eq_self_iff.mpr inside, List.dropWhile_eq_nil_iff.mpr inside]

theorem readPieces_eq (bare : Bare text) :
    readPieces text = (if text = [] then [] else [.literal (.ofList text)], []) := by
  have ended : readPiece? [] = none := rfl
  split
  · next empty => rw [empty, readPieces_of_none ended]
  · next nonempty => rw [readPieces_of_some (bare.readPiece?_eq nonempty), readPieces_of_none ended]

theorem readPipeline_eq (bare : Bare text) (nonempty : text ≠ [])
    (free : Keyword.reservedAt? text = none) :
    readPipeline text = .found [[.literal (.ofList text)]] [] := by
  have ended : readPiece? [] = none := rfl
  have starts : readPiece? text ≠ none := by simp [bare.readPiece?_eq nonempty]
  have words : readWords text = ([.literal (.ofList text)], []) := by
    rw [readWords_of_some starts, bare.readPieces_eq, if_neg nonempty, skipFiller_nil,
      readWords_of_none ended]
    rfl
  rw [readPipeline_of_starts (startsProgram_iff.mpr ⟨free, starts⟩), words,
    readLinks_of_ne (by simp)]
  rfl

theorem head?_behindWord (bare : Bare text) : ∀ c ∈ (behindWord text).head?, c = '#' := by
  intro c first
  have boundary := List.head?_dropWhile_not (fun c => !isBoundary c) text
  have absent := bare c ((suffix_behindWord text).subset (List.mem_of_mem_head? first))
  rw [← behindWord, first] at boundary
  simp only [wordMarks, List.mem_cons, List.not_mem_nil, or_false, not_or] at absent
  simpa [isBoundary, isEnd, isBreak, absent] using boundary

theorem behindWord_cases (bare : Bare text) :
    behindWord text = [] ∨ ∃ rest, behindWord text = '#' :: rest := by
  cases behind : behindWord text with
  | nil => exact Or.inl rfl
  | cons c rest =>
      obtain rfl := bare.head?_behindWord c (by simp [behind])
      exact Or.inr ⟨rest, rfl⟩

theorem skipFiller_behindWord (bare : Bare text) : skipFiller (behindWord text) = [] := by
  have rest : Bare (behindWord text) :=
    fun c membership => bare c ((suffix_behindWord text).subset membership)
  rcases bare.behindWord_cases with nothing | ⟨tail, comment⟩
  · rw [nothing, skipFiller_nil]
  · rw [comment] at rest ⊢
    exact rest.skipFiller_mark

end Bare

/-- Outside of compound statements nothing follows from a reserved word at the end of the text. -/
theorem readReserved_start {keyword : Keyword} (reserved : keyword ∈ Keyword.reserved)
    {text : List Char} (last : skipFiller (behindWord text) = []) :
    ∃ stop, readReserved .start keyword text = .stuck stop := by
  have noTest : readTest [] = .stuck [] := by
    rw [readTest, readPipeline_of_not_starts rfl, Reading.stuck_bind]
  have noHead : readHead [] = .stuck [] := readHead_of_none rfl
  unfold readReserved
  rw [last]
  cases keyword with
  | ifWord => exact ⟨[], congrArg (Reading.bind · _) noTest⟩
  | forWord => exact ⟨[], congrArg (Reading.bind · _) noHead⟩
  | inWord | parallelWord => exact absurd reserved (by decide)
  | _ => exact ⟨text, rfl⟩

theorem mem_reservedWords {word : String} :
    word ∈ reservedWords ↔ ∃ keyword ∈ Keyword.reserved, word = .ofList keyword.letters := by
  have words : reservedWords = Keyword.reserved.map fun keyword => .ofList keyword.letters := by
    decide
  simp only [words, List.mem_map, eq_comm]

theorem isReserved_iff {text : String} (bare : Bare text.toList) :
    IsReserved text ↔ ∃ keyword, Keyword.reservedAt? text.toList = some keyword := by
  constructor
  · rintro ⟨_, listed, written⟩
    obtain ⟨keyword, reserved, rfl⟩ := mem_reservedWords.mp listed
    refine ⟨keyword, Keyword.reservedAt?_eq_some.mpr ⟨reserved, ?_⟩⟩
    rcases written with rfl | ⟨rest, rfl⟩
    · rw [String.toList_ofList]
      refine List.takeWhile_eq_self_iff.mpr fun c membership => ?_
      simp [Keyword.isBoundary_of_mem_letters c membership]
    · simpa using firstWord_letters keyword (by rfl : isBoundary '#' = true) rest.toList
  · rintro ⟨keyword, found⟩
    obtain ⟨reserved, starts⟩ := Keyword.reservedAt?_eq_some.mp found
    have whole := firstWord_append_behindWord text.toList
    rw [starts] at whole
    refine ⟨_, mem_reservedWords.mpr ⟨keyword, reserved, rfl⟩, ?_⟩
    rcases bare.behindWord_cases with nothing | ⟨rest, comment⟩
    · rw [nothing, List.append_nil] at whole
      exact Or.inl (String.toList_inj.mp (by simp [whole]))
    · rw [comment] at whole
      exact Or.inr ⟨.ofList rest, String.toList_inj.mp (by simp [whole])⟩

theorem not_isReserved_iff {text : String} (bare : Bare text.toList) :
    ¬ IsReserved text ↔ Keyword.reservedAt? text.toList = none := by
  rw [isReserved_iff bare, Option.eq_none_iff_forall_ne_some, not_exists]

theorem readAssigned?_append {name : String} (named : isName name = true) (value : List Char) :
    readAssigned? (name.toList ++ '=' :: value) = some (name.toList, value) := by
  rw [readAssigned?, readName?_append named (by decide)]
  rfl

theorem read_of_simple {text : List Char} {command : Command} (cleared : skipOver isEnd text = text)
    (nonempty : text ≠ []) (free : Keyword.reservedAt? text = none)
    (simple : readSimple text = .found command []) : read text = .ok [.mk command false] := by
  rw [read, cleared, run_eq (Or.inl nonempty), step, free]
  simp only
  rw [simple]
  exact run_nil rfl

namespace Bare

variable {text : List Char}

theorem read_comment (bare : Bare ('#' :: text)) : read ('#' :: text) = .ok [] := by
  rw [read, Reader.skipOver_eq, bare.skipFiller_mark]
  exact run_nil rfl

theorem read_reserved (bare : Bare text) (nonempty : text ≠ []) (noComment : text.head? ≠ some '#')
    {keyword : Keyword} (found : Keyword.reservedAt? text = some keyword) :
    ∃ stop, read text = .error stop := by
  obtain ⟨stop, stuck⟩ :=
    readReserved_start (Keyword.reservedAt?_eq_some.mp found).1 bare.skipFiller_behindWord
  refine ⟨stop, ?_⟩
  rw [read, bare.skipOver_eq noComment, run_eq (Or.inl nonempty), step, found]
  simp only
  rw [stuck, resume]

theorem read_assignment {name : String} (named : isName name = true) {value : List Char}
    (bare : Bare (name.toList ++ '=' :: value))
    (noComment : (name.toList ++ '=' :: value).head? ≠ some '#')
    (free : Keyword.reservedAt? (name.toList ++ '=' :: value) = none) :
    read (name.toList ++ '=' :: value) =
      .ok [.mk (.assignment name (if value = [] then [] else [.literal (.ofList value)]))
        false] := by
  have behind : Bare value := fun c membership =>
    bare c (List.mem_append_right _ (List.mem_cons_of_mem '=' membership))
  refine read_of_simple (bare.skipOver_eq noComment) (by simp) free ?_
  rw [readSimple, readAssigned?_append named]
  simp only
  rw [behind.readPieces_eq, skipFiller_nil, String.ofList_toList]

theorem read_command (bare : Bare text) (nonempty : text ≠ []) (noComment : text.head? ≠ some '#')
    (free : Keyword.reservedAt? text = none) (unassigned : readAssigned? text = none) :
    read text = .ok [.mk (.pipeline [[.literal (.ofList text)]]) false] := by
  refine read_of_simple (bare.skipOver_eq noComment) nonempty free ?_
  rw [readSimple, unassigned]
  simp only
  rw [bare.readPipeline_eq nonempty free, Reading.found_bind]

end Bare

theorem isComment_iff {text : String} : IsComment text ↔ text.toList.head? = some '#' := by
  constructor
  · rintro ⟨rest, rfl⟩
    simp
  · intro first
    obtain ⟨rest, same⟩ := List.head?_eq_some_iff.mp first
    exact ⟨.ofList rest, String.toList_inj.mp (by simp [same])⟩

theorem readAssigned?_eq_none {text : String} :
    readAssigned? text.toList = none ↔
      ¬ ∃ name value, isName name = true ∧ text = name ++ "=" ++ value := by
  constructor
  · rintro refused ⟨name, value, named, rfl⟩
    have chars : (name ++ "=" ++ value).toList = name.toList ++ '=' :: value.toList := by simp
    rw [chars, readAssigned?_append named] at refused
    contradiction
  · intro other
    refine Option.eq_none_iff_forall_ne_some.mpr fun ⟨name, value⟩ found => other ?_
    have whole := eq_append_of_readAssigned? found
    refine ⟨.ofList name, .ofList value, ?_, String.toList_inj.mp (by simp [whole])⟩
    unfold readAssigned? at found
    split at found
    · next named =>
        obtain ⟨rfl, rfl⟩ := Prod.mk.inj (Option.some.inj found)
        exact isName_of_readName? named
    · simp at found

end Reader

open Reader (Bare Keyword isComment_iff isReserved_iff not_isReserved_iff)

/-- A bare word is a comment if it starts with a number sign, and an error if it is a reserved word;
it is an assignment if it is a name, an equals sign and a value; and otherwise it is a command. -/
theorem Script.parse_bareWord {text : String} (nonempty : text ≠ "")
    (free : ∀ c ∈ text.toList, c ∉ wordMarks) :
    (IsComment text → Script.parse text = .ok []) ∧
    (¬ IsComment text → IsReserved text → ∃ error, Script.parse text = .error (.parse error)) ∧
    (¬ IsComment text → ¬ IsReserved text → ∀ name value, isName name = true →
      text = name ++ "=" ++ value →
      Script.parse text =
        .ok [.mk (.assignment name (if value = "" then [] else [.literal value])) false]) ∧
    (¬ IsComment text → ¬ IsReserved text →
      (¬ ∃ name value, isName name = true ∧ text = name ++ "=" ++ value) →
      Script.parse text = .ok [.mk (.pipeline [[.literal text]]) false]) := by
  have bare : Bare text.toList := free
  have nonempty : text.toList ≠ [] := by simpa using nonempty
  rw [isComment_iff, not_isReserved_iff bare]
  refine ⟨?_, ?_, ?_, ?_⟩
  · intro first
    obtain ⟨rest, chars⟩ := List.head?_eq_some_iff.mp first
    rw [chars] at bare
    rw [Script.parse, chars]
    exact parseChars_of_read_ok bare.read_comment
  · intro noComment reserved
    obtain ⟨keyword, found⟩ := (isReserved_iff bare).mp reserved
    obtain ⟨stop, fails⟩ := bare.read_reserved nonempty noComment found
    obtain ⟨error, failed, _⟩ := parseChars_of_read_error fails
    exact ⟨error, failed⟩
  · rintro noComment unreserved name value named rfl
    have chars : (name ++ "=" ++ value).toList = name.toList ++ '=' :: value.toList := by simp
    rw [chars] at bare noComment unreserved
    rw [Script.parse, chars]
    simpa using parseChars_of_read_ok (Bare.read_assignment named bare noComment unreserved)
  · intro noComment unreserved unassigned
    have refused := Reader.readAssigned?_eq_none.mpr unassigned
    rw [Script.parse]
    simpa using parseChars_of_read_ok (bare.read_command nonempty noComment unreserved refused)

theorem Script.parse_bareWord_keywords :
    (∀ word ∈ ["in", "parallel", "iffy", "done_thing", "1=x"],
      Script.parse word = .ok [.mk (.pipeline [[.literal word]]) false]) ∧
    Script.parse "if=1" = .ok [.mk (.assignment "if" [.literal "1"]) false] ∧
    ∃ error, Script.parse "done#=1" = .error (.parse error) := by
  have free {word : String} (checked : word.toList.all (· ∉ wordMarks) = true) :
      ∀ c ∈ word.toList, c ∉ wordMarks :=
    fun c membership => of_decide_eq_true (List.all_eq_true.mp checked c membership)
  have checks : ∀ word ∈ ["in", "parallel", "iffy", "done_thing", "1=x", "if=1"], word ≠ "" ∧
      word.toList.all (· ∉ wordMarks) = true ∧ word.toList.head? ≠ some '#' ∧
      Keyword.reservedAt? word.toList = none := by decide
  have unassigned : ∀ word ∈ ["in", "parallel", "iffy", "done_thing", "1=x"],
      Reader.readAssigned? word.toList = none := by decide
  refine ⟨fun word listed => ?_, ?_, ?_⟩
  · obtain ⟨nonempty, checked, noComment, unreserved⟩ :=
      checks word (List.mem_append_left ["if=1"] listed)
    exact (Script.parse_bareWord nonempty (free checked)).2.2.2 (isComment_iff.not.mpr noComment)
      ((not_isReserved_iff (free checked)).mpr unreserved)
        (Reader.readAssigned?_eq_none.mp (unassigned word listed))
  · obtain ⟨nonempty, checked, noComment, unreserved⟩ := checks "if=1" (by decide)
    exact (Script.parse_bareWord nonempty (free checked)).2.2.1 (isComment_iff.not.mpr noComment)
      ((not_isReserved_iff (free checked)).mpr unreserved) "if" "1" rfl rfl
  · exact (Script.parse_bareWord (by decide) (free (by decide))).2.1
      (isComment_iff.not.mpr (by decide))
      ⟨"done", by decide, Or.inr ⟨"=1", rfl⟩⟩

end CommandShell
