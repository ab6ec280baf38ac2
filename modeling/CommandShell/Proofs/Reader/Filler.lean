import CommandShell.Proofs.Peg.Scan
import CommandShell.Proofs.Reader.Layout
import CommandShell.Script.Rule

/-!
What the grammar matches between the parts of a script: filler, line breaks and the ends of
statements. The functions of the layout say where each match ends.
-/

namespace CommandShell.Rule

open Peg Reader

variable {total : Nat} {mode : Mode}

theorem dropBreak?_eq (text : List Char) :
    dropBreak? text = (dropLetters? ['\n'] text).or
      ((dropLetters? ['\r', '\n'] text).or (dropLetters? ['\r'] text)) := by
  cases text with
  | nil => rfl
  | cons c rest =>
      by_cases newline : c = '\n'
      · simp [newline, dropBreak?]
      · by_cases return_ : c = '\r'
        · cases rest with
          | nil => simp [return_, dropBreak?]
          | cons d rest =>
              by_cases newline : d = '\n'
              · simp [return_, newline, dropBreak?]
              · simp [return_, newline, Ne.symm newline, dropBreak?]
        · simp [newline, return_, Ne.symm newline, Ne.symm return_, dropBreak?]

theorem scans_lineBreak : grammar.Scans total mode lineBreak dropBreak? :=
  ((Grammar.Scans.letters _).alt ((Grammar.Scans.letters _).alt (.letters _))).congr
    fun text => (dropBreak?_eq text).symm

theorem scans_only (c : Char) : grammar.Scans total mode (.only c) (dropHead? (· == c)) :=
  Grammar.Scans.char _

theorem dropBlank?_eq (text : List Char) :
    dropBlank? text = (dropHead? (· == ' ') text).or ((dropHead? (· == '\t') text).or
      ((dropHead? (· == '\\') text).bind dropBreak?)) := by
  cases text with
  | nil => rfl
  | cons c rest =>
      by_cases space : c = ' '
      · simp [space, dropHead?, dropBlank?]
      · by_cases tab : c = '\t'
        · simp [tab, dropHead?, dropBlank?]
        · by_cases backslash : c = '\\'
          · simp [backslash, dropHead?, dropBlank?]
          · simp [space, tab, backslash, dropHead?, dropBlank?]

theorem scans_blank : grammar.Scans total .atomic blank dropBlank? :=
  ((scans_only ' ').alt
    ((scans_only '\t').alt ((scans_only '\\').seq (by decide) scans_lineBreak))).congr
    fun text => (dropBlank?_eq text).symm

theorem scans_blanks : grammar.Scans total .atomic blank.star fun text => some (skipBlanks text) :=
  scans_blank.star (by decide) length_lt_of_dropBlank? skipBlanks_eq

theorem isSome_dropBreak? (text : List Char) :
    (dropBreak? text).isSome = text.head?.any isBreak := by
  fun_cases dropBreak? text with
  | case1 | case2 | case3 => rfl
  | case4 text noNewline noReturn noOther =>
      cases text with
      | nil => rfl
      | cons c rest =>
          have other : isBreak c = false := by
            simp only [isBreak, Bool.or_eq_false_iff, beq_eq_false_iff_ne]
            exact ⟨fun same => noNewline rest (by rw [same]), fun same =>
              noOther rest (by rw [same])⟩
          simp [other]

theorem scans_lineChar :
    grammar.Scans total .atomic (.seq (.avoid lineBreak) .any) (dropHead? fun c => !isBreak c) := by
  refine (scans_lineBreak.avoid.seq (by decide) (Grammar.Scans.char _)).congr fun text => ?_
  rw [isSome_dropBreak?]
  cases text with
  | nil => rfl
  | cons c rest => by_cases ends : isBreak c = true <;> simp [dropHead?, ends]

theorem scans_comment :
    grammar.Scans total .atomic comment fun text => (dropHead? (· == '#') text).map dropLine :=
  ((scans_only '#').seq (by decide) (scans_lineChar.starChars (by decide))).congr fun text => by
    cases dropHead? (· == '#') text <;> rfl

theorem scans_comments :
    grammar.Scans total .atomic (.star (.seq comment (.star blank))) fun text =>
      some (dropComment text) := by
  refine (scans_comment.seq (by decide) scans_blanks).star (by decide) ?_ fun text => ?_
  · intro text rest scanned
    obtain ⟨line, lineFound, found⟩ := Option.bind_eq_some_iff.mp scanned
    obtain ⟨tail, dropped, rfl⟩ := Option.map_eq_some_iff.mp lineFound
    obtain rfl := Option.some.inj found
    calc (skipBlanks (dropLine tail)).length
      _ ≤ (dropLine tail).length := (suffix_skipBlanks _).length_le
      _ ≤ tail.length := (suffix_dropLine tail).length_le
      _ < text.length := length_lt_of_dropHead? dropped
  · by_cases comment : text.head? = some '#'
    · obtain ⟨rest, rfl⟩ := List.head?_eq_some_iff.mp comment
      simp only [dropHead?, beq_self_eq_true, if_true, Option.map_some, Option.bind_some]
      rw [skipBlanks_of_none (dropBlank?_dropLine rest), dropComment_dropLine]
      rfl
    · have other : dropHead? (· == '#') text = none := by
        cases text with
        | nil => rfl
        | cons c rest => simpa [dropHead?] using comment
      simp [other, dropComment_of_ne comment]

theorem scans_filler : grammar.Scans total .atomic filler fun text => some (skipFiller text) :=
  scans_blanks.seq (by decide) scans_comments

theorem derives_filler (look : Look) (text : List Char) :
    grammar.Derives total grammar.filler .atomic look text (some ([], skipFiller text)) [] :=
  scans_filler look text

section Loose

variable {first second body : Expr Rule} {text rest next : List Char} {trees : List (Peg.Tree Rule)}
  {refusals refusals' : List Nat} {result : Option (Found Rule)}

theorem derives_seq
    (derivedFirst : grammar.Derives total first .loose .straight text (some (trees, rest)) refusals)
    (reached : skipFiller rest = next)
    (derivedSecond : grammar.Derives total second .loose .straight next result refusals') :
    grammar.Derives total (.seq first second) .loose .straight text (result.map (Found.after trees))
      (refusals ++ refusals') := by
  subst reached
  simpa using Grammar.Derives.seqLoose derivedFirst (derives_filler .straight rest) derivedSecond

/-- What comes of repeating an expression. Repetitions go on from any text, and start where there is
no filler. -/
structure Repeats (total : Nat) (body : Expr Rule) (text : List Char) (result : Option (Found Rule))
    (refusals : List Nat) : Prop where
  more : grammar.Derives total (.more body) .loose .straight text result refusals
  star : skipFiller text = text →
    grammar.Derives total body.star .loose .straight text result refusals

theorem Repeats.stop (reached : skipFiller text = next)
    (refused : grammar.Derives total body .loose .straight next none refusals) :
    Repeats total body text (some ([], text)) refusals := by
  subst reached
  refine ⟨.moreStopLoose (derives_filler .straight text) refused, fun trimmed => ?_⟩
  rw [trimmed] at refused
  exact .optNone (.joinRefused refused)

theorem Repeats.step {found : Found Rule} (reached : skipFiller text = next)
    (derived : grammar.Derives total body .loose .straight next (some (trees, rest)) refusals)
    (later : Repeats total body rest (some found) refusals') :
    Repeats total body text (some (found.after trees)) (refusals ++ refusals') := by
  subst reached
  refine ⟨.moreLoose (derives_filler .straight text) derived later.more, fun trimmed => ?_⟩
  rw [trimmed] at derived
  exact .opt (.join derived later.more)

end Loose

/-- An expression that matches one of the accepted characters, or several of them. -/
structure Marks (total : Nat) (expr : Expr Rule) (accepts : Char → Bool) : Prop where
  trimmed : ∀ {c}, accepts c = true → ∀ rest, skipFiller (c :: rest) = c :: rest
  derives : ∀ {c}, accepts c = true → ∀ rest, ∃ rest',
    grammar.Derives total expr .loose .straight (c :: rest) (some ([], rest')) [] ∧
      rest'.length ≤ rest.length ∧ skipOver accepts rest' = skipOver accepts rest
  refused : ∀ {text}, (∀ c ∈ text.head?, accepts c = false) →
    grammar.Derives total expr .loose .straight text none []

namespace Marks

variable {expr : Expr Rule} {accepts : Char → Bool}

theorem repeats (marks : Marks total expr accepts) (text : List Char) :
    ∃ rest, Repeats total expr text (some ([], rest))
      [] ∧ skipFiller rest = skipOver accepts text := by
  induction size : text.length using Nat.strongRecOn generalizing text with
  | _ _ inductionHypothesis =>
      cases filled : skipFiller text with
      | nil =>
          exact ⟨text, .stop filled (marks.refused (by simp)), by rw [skipOver_eq, filled]⟩
      | cons c tail =>
          by_cases accepted : accepts c = true
          · obtain ⟨middle, derived, length_le, same⟩ := marks.derives accepted tail
            have shorter : middle.length < text.length := by
              have filledLength := length_skipFiller_le text
              rw [filled, List.length_cons] at filledLength
              omega
            obtain ⟨rest, later, reached⟩ := inductionHypothesis _ (size ▸ shorter) middle rfl
            refine ⟨rest, .step filled derived later, ?_⟩
            rw [reached, same, skipOver_eq text, filled]
            simp [accepted]
          · exact ⟨text, .stop filled (marks.refused (by simpa using accepted)),
              by rw [skipOver_eq, filled]; simp [accepted]⟩

theorem derives_plus (marks : Marks total expr accepts) {c : Char} (accepted : accepts c = true)
    (tail : List Char) :
    ∃ rest, grammar.Derives total expr.plus .loose .straight (c :: tail) (some ([], rest)) [] ∧
      skipFiller rest = skipOver accepts (c :: tail) := by
  obtain ⟨middle, derived, _, same⟩ := marks.derives accepted tail
  obtain ⟨rest, repeated, reached⟩ := marks.repeats (skipFiller middle)
  refine ⟨rest, derives_seq derived rfl (repeated.star (skipFiller_skipFiller middle)), ?_⟩
  rw [reached, skipOver_skipFiller, same, skipOver_cons (marks.trimmed accepted tail) accepted]

end Marks

/-- A line break takes one of its characters, or both; what is skipped behind it is the same. -/
theorem dropBreak?_of_isBreak (accepts : Char → Bool) (newline : accepts '\n' = true) {c : Char}
    (ends : isBreak c = true) (rest : List Char) :
    ∃ rest', dropBreak? (c :: rest) = some rest' ∧ rest'.length ≤ rest.length ∧
      skipOver accepts rest' = skipOver accepts rest := by
  simp only [isBreak, Bool.or_eq_true, beq_iff_eq] at ends
  rcases ends with rfl | rfl
  · exact ⟨rest, rfl, Nat.le_refl _, rfl⟩
  · by_cases follows : rest.head? = some '\n'
    · obtain ⟨tail, rfl⟩ := List.head?_eq_some_iff.mp follows
      exact ⟨tail, rfl, Nat.le_succ _,
        (skipOver_cons (skipFiller_of_isBreak rfl tail) newline).symm⟩
    · refine ⟨rest, ?_, Nat.le_refl _, rfl⟩
      unfold dropBreak?
      split <;> simp_all

theorem dropBreak?_eq_none {text : List Char} (other : ∀ c ∈ text.head?, isBreak c = false) :
    dropBreak? text = none := by
  rw [← Option.not_isSome_iff_eq_none, isSome_dropBreak?]
  cases text with
  | nil => simp
  | cons c rest => simpa using other c rfl

theorem marks_lineBreak (total : Nat) : Marks total lineBreak isBreak where
  trimmed := skipFiller_of_isBreak
  derives := by
    intro c ends rest
    obtain ⟨rest', dropped, length_le, same⟩ := dropBreak?_of_isBreak isBreak rfl ends rest
    refine ⟨rest', ?_, length_le, same⟩
    simpa [dropped] using scans_lineBreak .straight (c :: rest)
  refused := by
    intro text other
    simpa [dropBreak?_eq_none other] using scans_lineBreak .straight text

theorem marks_end (total : Nat) : Marks total (.alt (.only ';') lineBreak) isEnd where
  trimmed := skipFiller_of_isEnd
  derives := by
    intro c ends rest
    by_cases semicolon : c = ';'
    · subst semicolon
      exact ⟨rest, .altFirst (.char rfl), Nat.le_refl _, rfl⟩
    · have breaks : isBreak c = true := by simpa [isEnd, semicolon] using ends
      obtain ⟨rest', dropped, length_le, same⟩ := dropBreak?_of_isBreak isEnd rfl breaks rest
      refine ⟨rest', .altSecond (.charRefused (by simpa using semicolon)) ?_, length_le, same⟩
      simpa [dropped] using scans_lineBreak .straight (c :: rest)
  refused := by
    intro text other
    have noSemicolon : ∀ c ∈ text.head?, (c == ';') = false := fun c member =>
      (Bool.or_eq_false_iff.mp (other c member)).1
    have noBreak : ∀ c ∈ text.head?, isBreak c = false := fun c member =>
      (Bool.or_eq_false_iff.mp (other c member)).2
    refine .altSecond (.charRefused noSemicolon) ?_
    simpa [dropBreak?_eq_none noBreak] using scans_lineBreak .straight text

theorem separator_refused {text : List Char} (other : ∀ c ∈ text.head?, isEnd c = false) :
    grammar.Derives total separator .loose .straight text none [] :=
  .seqRefused ((marks_end total).refused other)

theorem derives_separator (total : Nat) {c : Char} (ends : isEnd c = true) (tail : List Char) :
    ∃ rest, grammar.Derives total separator .loose .straight (c :: tail) (some ([], rest)) [] ∧
      skipFiller rest = skipOver isEnd (c :: tail) :=
  (marks_end total).derives_plus ends tail

theorem derives_optSeparator (total : Nat) {text : List Char} (trimmed : skipFiller text = text) :
    ∃ rest, grammar.Derives total (.opt separator) .loose .straight text (some ([], rest)) [] ∧
      skipFiller rest = skipOver isEnd text := by
  by_cases other : ∀ c ∈ text.head?, isEnd c = false
  · refine ⟨text, .optNone (separator_refused other), ?_⟩
    rw [skipOver_of_rejected trimmed other, trimmed]
  · cases text with
    | nil => simp at other
    | cons c tail =>
        obtain ⟨rest, derived, reached⟩ := derives_separator total (by simpa using other) tail
        exact ⟨rest, .opt derived, reached⟩

end CommandShell.Rule
