import CommandShell.Proofs.Reader.Completion
import CommandShell.Proofs.Script.Concatenation

/-!
What the test for incomplete texts decides. A text that the machine comes to the end of can be
completed, and one that it is stuck in before is no script with anything behind its last word. The
test is wrong about texts that end in a comment where no line break may follow, in an open quotation
where a word may stand, in a backslash or in blanks that an error stands before.
-/

namespace CommandShell

open Reader

namespace ParseError

theorem incomplete_iff {error : ParseError} (inside : error.offset ≤ error.source.length) :
    error.incomplete = true ↔ ∀ c ∈ error.after, Text.isBlank c = true := by
  have whole : error.before ++ error.after = error.source := List.take_append_drop _ _
  have length : error.before.length = error.offset := List.length_take_of_le inside
  have trimmed := Text.length_trimEnd_append error.before error.after 0
  rw [whole, length, Nat.add_zero] at trimmed
  rw [incomplete, decide_eq_true_iff, trimmed]
  simp [Text.trimEnd]

end ParseError

namespace Script

/-- The place of an error is where the machine is stuck. -/
theorem after_of_parseChars {source : List Char} {error : ParseError}
    (fails : parseChars source = .error (.parse error)) :
    read source = .error error.after ∧ error.offset ≤ error.source.length := by
  obtain ⟨stop, error', stuck, same, whole, place⟩ := parseChars_eq_error fails
  obtain rfl := Error.parse.inj same
  have after : error.after = stop := by
    rw [ParseError.after, whole, place]
    exact (List.suffix_iff_eq_drop.mp (suffix_of_read stuck)).symm
  rw [after, whole, place]
  exact ⟨stuck, Nat.sub_le _ _⟩

end Script

namespace ParseError

/-- What stands behind the place of the error that the text has with more behind it, if it has
one. -/
def afterWith (error : ParseError) (more : List Char) : Option (List Char) :=
  match Script.parseChars (error.source ++ more) with
  | .error (.parse error) => some error.after
  | _ => none

theorem afterWith_eq_some {error : ParseError} {more stop : List Char} :
    error.afterWith more = some stop ↔ read (error.source ++ more) = .error stop := by
  unfold afterWith
  cases reads : read (error.source ++ more) with
  | ok script => simp [Script.parseChars_of_read_ok reads]
  | error stop' =>
      obtain ⟨error', fails, _⟩ := Script.parseChars_of_read_error reads
      have stuck := (Script.after_of_parseChars fails).1
      rw [reads] at stuck
      simp [fails, Except.error.inj stuck]

/-- The text ends in a comment where no line break may follow: a semicolon behind it is not read,
and a line break is refused. -/
def inComment (error : ParseError) : Prop :=
  error.afterWith [';'] = some [] ∧ error.afterWith ['\n'] = some ['\n']

/-- The error is at an open quotation where a word may stand: once the quotation is closed, the
error is not there any more. -/
def inQuotation (error : ParseError) : Prop :=
  atQuote error.after = true ∧
    error.afterWith (closure error.after) ≠ some (error.after ++ closure error.after)

end ParseError

namespace Script

/-- An error is incomplete exactly if something behind the last word makes the text a script. The
text does not end in a comment where no line break may follow, and the error is not at an open
quotation where a word may stand, at a backslash that ends the text, or at blanks that end it. -/
theorem incomplete_iff_exists_parse {source : String} {error : ParseError}
    (fails : Script.parse source = .error (.parse error)) (uncommented : ¬ error.inComment)
    (unquoted : ¬ error.inQuotation) (noBackslash : error.after ≠ ['\\'])
    (visible : error.after ≠ [] → ∃ c ∈ error.after, Text.isBlank c = false) :
    error.incomplete = true ↔
      ∃ more : String, Parted more.toList ∧
        ∃ script, Script.parse (source ++ more) = .ok script := by
  obtain ⟨stuck, inside⟩ := after_of_parseChars fails
  have whole : error.source = source.toList := by
    obtain ⟨_, error', _, same, whole, _⟩ := parseChars_eq_error fails
    rw [Error.parse.inj same, whole]
  rw [ParseError.incomplete_iff inside]
  constructor
  · intro blank
    have ended : error.after = [] := by
      by_contra going
      obtain ⟨c, membership, shown⟩ := visible going
      simp [blank c membership] at shown
    rw [ended] at stuck
    rcases read_completes stuck with ⟨more, parted, script, reads⟩ | swallows
    · refine ⟨String.ofList more, by simpa using parted, script, ?_⟩
      refine parseChars_of_read_ok ?_
      simpa using reads
    · refine absurd ⟨?_, ?_⟩ uncommented
      · rw [ParseError.afterWith_eq_some, whole, swallows _ ⟨_, _, rfl, rfl⟩]
        rfl
      · rw [ParseError.afterWith_eq_some, whole, swallows _ (parted_newline [])]
        rfl
  · rintro ⟨more, parted, script, parsed⟩
    by_contra going
    have nonempty : error.after ≠ [] := by
      intro ended
      simp [ended] at going
    have reads := parseChars_eq_ok.mp parsed
    rw [String.toList_append] at reads
    rcases read_append_of_error parted ⟨nonempty, noBackslash⟩ stuck with fails' | ⟨quoted, closes⟩
    · rw [fails'] at reads
      simp at reads
    · refine unquoted ⟨quoted, fun same => nonempty ?_⟩
      rw [ParseError.afterWith_eq_some, whole] at same
      exact (List.append_eq_nil_iff.mp (closes _ same)).1

set_option maxRecDepth 4000

theorem incomplete_iff_exists_parse_comment :
    (∃ error, Script.parse "if a#b # c" = .error (.parse error) ∧ error.incomplete = true ∧
      ∃ more : String, Parted more.toList ∧
        ∃ script, Script.parse ("if a#b # c" ++ more) = .ok script) ∧
    (∃ error, Script.parse "if a; 'b" = .error (.parse error) ∧ error.incomplete = false ∧
      ¬ ∃ more : String, Parted more.toList ∧
        ∃ script, Script.parse ("if a; 'b" ++ more) = .ok script) := by
  have comment : Script.parse "if a#b # c" =
      .error (.parse ⟨"if a#b # c".toList, 10, [.word], []⟩) := by with_unfolding_all rfl
  have quotation : Script.parse "if a; 'b" =
      .error (.parse ⟨"if a; 'b".toList, 6, [.thenWord], []⟩) := by with_unfolding_all rfl
  have broken : ParseError.afterWith ⟨"if a#b # c".toList, 10, [.word], []⟩ ['\n'] = some [] := by
    with_unfolding_all rfl
  have refused : ParseError.afterWith ⟨"if a; 'b".toList, 6, [.thenWord], []⟩ [';'] =
      some ['\x27', 'b', ';'] := by with_unfolding_all rfl
  have stays : ParseError.afterWith ⟨"if a; 'b".toList, 6, [.thenWord], []⟩ [' ', '\x27'] =
      some ['\x27', 'b', ' ', '\x27'] := by with_unfolding_all rfl
  have after : ParseError.after ⟨"if a; 'b".toList, 6, [.thenWord], []⟩ = ['\x27', 'b'] := by
    with_unfolding_all rfl
  have completed := incomplete_iff_exists_parse comment
    (fun swallows => absurd (broken.symm.trans swallows.2) (by simp))
    (fun open_ => absurd open_.1 (by decide)) (by decide) (by decide)
  have misplaced := incomplete_iff_exists_parse quotation
    (fun swallows => absurd (refused.symm.trans swallows.1) (by simp))
    (fun open_ => open_.2 (by rw [after]; exact stays)) (by rw [after]; decide)
    fun _ => ⟨'b', by rw [after]; simp, by with_unfolding_all rfl⟩
  exact ⟨⟨_, comment, by decide, completed.mp (by decide)⟩,
    ⟨_, quotation, by decide, fun more => absurd (misplaced.mpr more) (by decide)⟩⟩

/-! What the conditions leave out: a break behind a word that a program has to follow, and a comment
there. -/

theorem skipFiller_hash (text : List Char) : skipFiller ('#' :: text) = dropLine text := by
  rw [skipFiller, skipBlanks_of_none rfl, dropComment]

theorem read_if_of_not_starts {c : Char} {text behind : List Char} (boundary : isBoundary c = true)
    (filled : skipFiller (c :: text) = behind) (idle : startsProgram behind = false) :
    Reader.read (Keyword.ifWord.letters ++ c :: text) = .error behind := by
  rw [Reader.read, cleared_letters,
    run_of_reserved (by decide) (firstWord_letters .ifWord boundary text), readReserved,
    behindWord_letters .ifWord boundary text, filled, readTest, readPipeline_of_not_starts idle]
  rfl

theorem exists_parse_and_not_incomplete :
    (∃ error script, Script.parse "fi" = .error (.parse error) ∧ error.incomplete = false ∧
      Script.parse ("fi" ++ "x") = .ok script) ∧
    (∃ error script, Script.parse "echo 'a" = .error (.parse error) ∧ error.incomplete = false ∧
      Script.parse ("echo 'a" ++ "'") = .ok script) ∧
    (∃ error script, Script.parse "for x \\" = .error (.parse error) ∧ error.incomplete = false ∧
      Script.parse ("for x \\" ++ "\nin;do;done") = .ok script) ∧
    (∃ error, Script.parse "if\n" = .error (.parse error) ∧ error.incomplete = true ∧
      ∀ (more : String) (script : Script), Script.parse ("if\n" ++ more) ≠ .ok script) ∧
    (∃ error, Script.parse "if #" = .error (.parse error) ∧ error.incomplete = true ∧
      ∀ (more : String) (script : Script), Script.parse ("if #" ++ more) ≠ .ok script) := by
  refine ⟨?_, ?_, ?_, ?_, ?_⟩
  · exact ⟨⟨"fi".toList, 0, [.script], []⟩, [.mk (.pipeline [[.literal "fix"]]) false],
      by with_unfolding_all rfl, by decide, by with_unfolding_all rfl⟩
  · exact ⟨⟨"echo 'a".toList, 5, [.endOfInput, .word, .background], []⟩,
      [.mk (.pipeline [[.literal "echo", .literal "a"]]) false],
      by with_unfolding_all rfl, by decide, by with_unfolding_all rfl⟩
  · exact ⟨⟨"for x \\".toList, 6, [.inWord], []⟩, [.mk (.loop false (.literal "x") [] []) false],
      by with_unfolding_all rfl, by decide, by with_unfolding_all rfl⟩
  · refine ⟨⟨"if\n".toList, 2, [.word], []⟩, by with_unfolding_all rfl, by decide,
      fun more script parsed => ?_⟩
    have reads := parseChars_eq_ok.mp parsed
    rw [String.toList_append] at reads
    have stuck := read_if_of_not_starts (c := '\n') rfl (skipFiller_of_isEnd rfl more.toList)
      (startsProgram_of_isBreak rfl _)
    exact absurd (stuck.symm.trans reads) (by simp)
  · refine ⟨⟨"if #".toList, 4, [.word], []⟩, by with_unfolding_all rfl, by decide,
      fun more script parsed => ?_⟩
    have reads := parseChars_eq_ok.mp parsed
    rw [String.toList_append] at reads
    have filled : skipFiller (' ' :: '#' :: more.toList) = dropLine more.toList := by
      rw [skipFiller_space, skipFiller_hash]
    have stuck := read_if_of_not_starts rfl filled (startsProgram_dropLine more.toList)
    exact absurd (stuck.symm.trans reads) (by simp)

end Script

end CommandShell
