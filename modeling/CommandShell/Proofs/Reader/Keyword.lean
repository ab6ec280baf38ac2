import CommandShell.Proofs.Reader.Filler

/-!
The words that open, divide and close compound statements. Such a word is one only if it stands
alone, so it is found by comparing it with everything up to the next character that may follow a
word.
-/

namespace CommandShell.Reader

/-- The characters that end a reserved word. -/
def isBoundary (c : Char) : Bool :=
  c == ' ' || c == '\t' || isEnd c || c == '|' || c == '&' || c == '#'

/-- The text up to its first boundary. -/
def firstWord (text : List Char) : List Char := text.takeWhile fun c => !isBoundary c

/-- The text from its first boundary on. -/
def behindWord (text : List Char) : List Char := text.dropWhile fun c => !isBoundary c

theorem firstWord_append_behindWord (text : List Char) : firstWord text ++ behindWord text = text :=
  List.takeWhile_append_dropWhile

theorem suffix_behindWord (text : List Char) : behindWord text <:+ text := List.dropWhile_suffix _

inductive Keyword where
  | ifWord
  | thenWord
  | elifWord
  | elseWord
  | fiWord
  | forWord
  | inWord
  | doWord
  | doneWord
  | parallelWord
  deriving DecidableEq, Repr

namespace Keyword

def letters : Keyword → List Char
  | .ifWord => ['i', 'f']
  | .thenWord => ['t', 'h', 'e', 'n']
  | .elifWord => ['e', 'l', 'i', 'f']
  | .elseWord => ['e', 'l', 's', 'e']
  | .fiWord => ['f', 'i']
  | .forWord => ['f', 'o', 'r']
  | .inWord => ['i', 'n']
  | .doWord => ['d', 'o']
  | .doneWord => ['d', 'o', 'n', 'e']
  | .parallelWord => ['p', 'a', 'r', 'a', 'l', 'l', 'e', 'l']

/-- The rule that matches the word. -/
def rule : Keyword → Rule
  | .ifWord => .ifWord
  | .thenWord => .thenWord
  | .elifWord => .elifWord
  | .elseWord => .elseWord
  | .fiWord => .fiWord
  | .forWord => .forWord
  | .inWord => .inWord
  | .doWord => .doWord
  | .doneWord => .doneWord
  | .parallelWord => .parallelWord

/-- The words that cannot start a command. -/
def reserved : List Keyword :=
  [.ifWord, .thenWord, .elifWord, .elseWord, .fiWord, .forWord, .doWord, .doneWord]

/-- The word that cannot start a command, if the text starts with one. -/
def reservedAt? (text : List Char) : Option Keyword :=
  reserved.find? fun keyword => firstWord text = keyword.letters

theorem pattern_rule (keyword : Keyword) :
    Rule.grammar.body keyword.rule = Rule.wholeWord keyword.letters := by
  cases keyword <;> rfl

theorem kind_rule (keyword : Keyword) : Rule.grammar.kind keyword.rule = .atomic := by
  cases keyword <;> rfl

theorem letters_injective {keyword other : Keyword} (same : keyword.letters = other.letters) :
    keyword = other := by
  cases keyword <;> cases other <;> first | rfl | exact absurd same (by decide)

theorem isBoundary_of_mem_letters {keyword : Keyword} :
    ∀ c ∈ keyword.letters, isBoundary c = false := by
  intro c membership
  have inside : keyword.letters.all (!isBoundary ·) = true := by cases keyword <;> rfl
  simpa using List.all_eq_true.mp inside c membership

theorem letters_ne_nil (keyword : Keyword) : keyword.letters ≠ [] := by
  cases keyword <;> simp [letters]

theorem reservedAt?_eq_some {text : List Char} {keyword : Keyword} :
    reservedAt? text = some keyword ↔ keyword ∈ reserved ∧ firstWord text = keyword.letters := by
  constructor
  · intro found
    exact ⟨List.mem_of_find?_eq_some found, by simpa using List.find?_some found⟩
  · rintro ⟨membership, starts⟩
    cases found : reservedAt? text with
    | none =>
        have absent := List.find?_eq_none.mp found keyword membership
        simp [starts] at absent
    | some other =>
        have sameLetters : firstWord text = other.letters := by simpa using List.find?_some found
        rw [letters_injective (starts.symm.trans sameLetters)]

theorem reservedAt?_eq_none {text : List Char} :
    reservedAt? text = none ↔ ∀ keyword ∈ reserved, firstWord text ≠ keyword.letters := by
  simp [reservedAt?]

end Keyword

/-- A text starts with the given letters and a boundary behind them exactly if they are its first
word. -/
theorem dropLetters?_boundary (text : List Char) :
    ∀ {letters : List Char}, (∀ c ∈ letters, isBoundary c = false) →
      ((Peg.dropLetters? letters text).bind fun rest =>
        if rest.head?.all isBoundary then some rest else none) =
        if firstWord text = letters then some (behindWord text) else none := by
  induction text with
  | nil =>
      intro letters plain
      cases letters <;> simp [firstWord, behindWord]
  | cons c text inductionHypothesis =>
      intro letters plain
      cases letters with
      | nil => by_cases boundary : isBoundary c = true <;> simp [firstWord, behindWord, boundary]
      | cons d letters =>
          have plainHead : isBoundary d = false := plain d (by simp)
          by_cases same : d = c
          · subst same
            have tail :=
              inductionHypothesis fun e membership => plain e (List.mem_cons_of_mem _ membership)
            have starts : firstWord (d :: text) = d :: letters ↔ firstWord text = letters := by
              simp [firstWord, plainHead]
            have behind : behindWord (d :: text) = behindWord text := by
              simp [behindWord, plainHead]
            simpa only [Peg.dropLetters?_cons_cons, if_true, starts, behind] using tail
          · by_cases boundary : isBoundary c = true
            · simp [firstWord, boundary, same]
            · simp [firstWord, boundary, same, Ne.symm same]

end CommandShell.Reader

namespace CommandShell.Rule

open Peg Reader

variable {total : Nat}

theorem scans_endOfInput :
    grammar.Scans total .atomic (.call .endOfInput) fun text => if text.isEmpty then some text
      else none :=
  Grammar.Scans.done.call rfl

theorem scans_boundary :
    grammar.Scans total .atomic boundary fun text =>
      if text.head?.all isBoundary then some text else none := by
  refine ((scans_only ' ').alt ((scans_only '\t').alt (scans_lineBreak.alt ((scans_only ';').alt
    ((scans_only '|').alt ((scans_only '&').alt ((scans_only '#').alt
      scans_endOfInput))))))).ahead.congr fun text => ?_
  congr 1
  simp only [Option.isSome_or, isSome_dropBreak?, isSome_dropHead?]
  cases text <;> simp [isBoundary, isEnd, or_assoc]
  grind

theorem derives_keyword (total : Nat) (keyword : Keyword) (look : Look) (text : List Char) :
    grammar.Derives total (.call keyword.rule) .loose look text
      (if firstWord text = keyword.letters then
        some ([.node keyword.rule keyword.letters []], behindWord text) else none)
      (if (look == .negative) == decide (firstWord text = keyword.letters) then [text.length]
        else []) := by
  have scans : grammar.Scans total .atomic (grammar.body keyword.rule) fun text =>
      if firstWord text = keyword.letters then some (behindWord text) else none := by
    rw [keyword.pattern_rule]
    refine ((Grammar.Scans.letters _).seq (by decide) scans_boundary).congr fun text => ?_
    exact dropLetters?_boundary text Keyword.isBoundary_of_mem_letters
  have derived :=
    scans.derives_call keyword.kind_rule (show Mode.loose ≠ .atomic by decide) look text
  by_cases found : firstWord text = keyword.letters
  · have taken := take_of_eq_append (firstWord_append_behindWord text).symm
    rw [found] at taken
    simpa [found, taken] using derived
  · simpa [found] using derived

theorem keyword_matches {keyword : Keyword} {text : List Char}
    (found : firstWord text = keyword.letters) :
    grammar.Derives total (.call keyword.rule) .loose .straight text
      (some ([.node keyword.rule keyword.letters []], behindWord text)) [] := by
  simpa [found] using derives_keyword total keyword .straight text

theorem keyword_refused {keyword : Keyword} {text : List Char}
    (other : firstWord text ≠ keyword.letters) :
    grammar.Derives total (.call keyword.rule) .loose .straight text none [text.length] := by
  simpa [other] using derives_keyword total keyword .straight text

/-- Looking for one of several words. Of the refusals only that of the word found is noted. -/
theorem derives_anyKeyword (text : List Char) (keyword : Keyword) (keywords : List Keyword) :
    ∃ trees, grammar.Derives total
      (.oneOf (.call keyword.rule) (keywords.map fun keyword => .call keyword.rule)) .loose
        .negative text (if ∃ other ∈ keyword :: keywords, firstWord text = other.letters then
        some (trees, behindWord text) else none)
      (if ∃ other ∈ keyword :: keywords, firstWord text = other.letters then [text.length]
        else []) := by
  induction keywords generalizing keyword with
  | nil => exact ⟨_, by simpa [Expr.oneOf] using derives_keyword total keyword .negative text⟩
  | cons next keywords inductionHypothesis =>
      have derived := derives_keyword total keyword .negative text
      by_cases found : firstWord text = keyword.letters
      · simp only [found, if_true, beq_self_eq_true, decide_true] at derived
        exact ⟨_, by simpa [found, Expr.oneOf] using Grammar.Derives.altFirst derived⟩
      · obtain ⟨trees, later⟩ := inductionHypothesis next
        simp only [found, if_false, decide_false] at derived
        exact ⟨trees, by simpa [found, Expr.oneOf] using Grammar.Derives.altSecond derived later⟩

theorem avoid_reserved {text : List Char} (free : Keyword.reservedAt? text = none) :
    grammar.Derives total (.avoid reserved) .loose .straight text (some ([], text)) [] := by
  obtain ⟨trees, derived⟩ := derives_anyKeyword text .ifWord Keyword.reserved.tail
  have absent : ¬ ∃ other ∈ .ifWord :: Keyword.reserved.tail, firstWord text = other.letters := by
    rintro ⟨keyword, membership, starts⟩
    exact Keyword.reservedAt?_eq_none.mp free keyword membership starts
  rw [if_neg absent, if_neg absent] at derived
  exact .avoid derived

theorem avoid_reserved_refused {text : List Char} {keyword : Keyword}
    (found : Keyword.reservedAt? text = some keyword) :
    grammar.Derives total (.avoid reserved) .loose .straight text none [text.length] := by
  obtain ⟨trees, derived⟩ := derives_anyKeyword text .ifWord Keyword.reserved.tail
  have present : ∃ other ∈ .ifWord :: Keyword.reserved.tail, firstWord text = other.letters :=
    ⟨keyword, Keyword.reservedAt?_eq_some.mp found⟩
  rw [if_pos present, if_pos present] at derived
  exact .avoidRefused derived

end CommandShell.Rule
