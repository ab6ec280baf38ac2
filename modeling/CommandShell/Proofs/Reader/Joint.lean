import Mathlib.Data.List.TakeWhile
import CommandShell.Proofs.Reader.StatementRule

/-!
The end of a text, when more is put behind it that does not go on with its last word. Layout and
words stay as they were read, up to a place that what follows cannot reach: an open comment, an open
quotation or a backslash at the end may go on in the further text.
-/

namespace CommandShell.Reader

/-- The characters that end every word. -/
def isJoint (c : Char) : Bool := c == ' ' || c == '\t' || isEnd c || c == '|' || c == '&'

/-- A text that does not go on with a word in front of it. -/
def Parted (more : List Char) : Prop := ∃ c rest, more = c :: rest ∧ isJoint c = true

/-- No backslash at the end of the text takes back a line break behind it. -/
structure Sealed (text : List Char) : Prop where
  noBackslash : ¬ ['\\'] <:+ text
  noReturn : ¬ ['\\', '\r'] <:+ text

theorem Sealed.of_suffix {text rest : List Char} (whole : Sealed text) (suffix : rest <:+ text) :
    Sealed rest :=
  ⟨fun ends => whole.noBackslash (ends.trans suffix),
    fun ends => whole.noReturn (ends.trans suffix)⟩

variable {source text more : List Char}

theorem parted_newline (more : List Char) : Parted ('\n' :: more) := ⟨_, _, rfl, rfl⟩

theorem parted_space (more : List Char) : Parted (' ' :: more) := ⟨_, _, rfl, rfl⟩

theorem takeWhile_append_parted {accepts : Char → Bool}
    (rejected : ∀ c, isJoint c = true → accepts c = false) (parted : Parted more)
    (text : List Char) :
    (text ++ more).takeWhile accepts = text.takeWhile accepts := by
  obtain ⟨c, rest, rfl, joint⟩ := parted
  rw [List.takeWhile_append]
  split
  · next all => simp [rejected c joint, (List.takeWhile_prefix accepts).eq_of_length all]
  · rfl

theorem dropWhile_append_parted {accepts : Char → Bool}
    (rejected : ∀ c, isJoint c = true → accepts c = false) (parted : Parted more)
    (text : List Char) :
    (text ++ more).dropWhile accepts = text.dropWhile accepts ++ more := by
  obtain ⟨c, rest, rfl, joint⟩ := parted
  rw [List.dropWhile_append]
  split
  · simp_all
  · rfl

theorem isNamePart_of_isJoint (c : Char) (joint : isJoint c = true) :
    Rule.isNamePart c = false := by
  simp only [isJoint, isEnd, isBreak, Bool.or_eq_true, beq_iff_eq] at joint
  rcases joint with ((((rfl | rfl) | rfl | rfl | rfl) | rfl) | rfl) <;> rfl

theorem not_isBoundary_of_isJoint (c : Char) (joint : isJoint c = true) :
    (!isBoundary c) = false := by
  simp only [isJoint, Bool.or_eq_true] at joint
  simp only [isBoundary, Bool.not_eq_false', Bool.or_eq_true]
  exact Or.inl joint

theorem not_isDelimiter_of_isJoint (c : Char) (joint : isJoint c = true) :
    (!isDelimiter c) = false := by
  simp only [isJoint, Bool.or_eq_true] at joint
  simp only [isDelimiter, Bool.not_eq_false', Bool.or_eq_true]
  exact Or.inl (Or.inl (Or.inl joint))

/-! The layout at the end of a text. -/

theorem dropBreak?_append (nonempty : text ≠ []) (noReturn : text ≠ ['\r']) (more : List Char) :
    dropBreak? (text ++ more) = (dropBreak? text).map (· ++ more) := by
  fun_cases dropBreak? text with
  | case1 rest => rfl
  | case2 rest => rfl
  | case3 rest other =>
      cases rest with
      | nil => contradiction
      | cons c rest =>
          have noBreak : c ≠ '\n' := by rintro rfl; exact other rest rfl
          simp [dropBreak?, noBreak]
  | case4 text other other' other'' =>
      cases text with
      | nil => contradiction
      | cons c rest => simp_all [dropBreak?]

theorem dropBlank?_append (nonempty : text ≠ []) (noBackslash : text ≠ ['\\'])
    (noReturn : text ≠ ['\\', '\r']) (more : List Char) :
    dropBlank? (text ++ more) = (dropBlank? text).map (· ++ more) := by
  fun_cases dropBlank? text with
  | case1 rest => rfl
  | case2 rest => rfl
  | case3 rest =>
      refine dropBreak?_append ?_ ?_ more
      · rintro rfl
        contradiction
      · rintro rfl
        contradiction
  | case4 text noSpace noTab noBackslash =>
      cases text with
      | nil => contradiction
      | cons c rest => simp_all [dropBlank?]

theorem skipBlanks_append
    (blank : ∀ rest, rest <:+ text →
      dropBlank? (rest ++ more) = (dropBlank? rest).map (· ++ more)) :
    skipBlanks (text ++ more) = skipBlanks text ++ more := by
  fun_induction skipBlanks text with
  | case1 text rest dropped inductionHypothesis =>
      obtain ⟨c, tail, rfl, suffix⟩ := suffix_of_dropBlank? dropped
      rw [skipBlanks_eq, blank _ (List.suffix_refl _), dropped]
      exact inductionHypothesis fun rest' inside =>
        blank rest' ((inside.trans suffix).trans (List.suffix_cons c tail))
  | case2 text dropped =>
      rw [skipBlanks_eq, blank _ (List.suffix_refl _), dropped]
      rfl

/-- What a text cannot be to be sure that filler in front of it ended there. -/
def Solid (text : List Char) : Prop := text ≠ [] ∧ text ≠ ['\\']

theorem Solid.of_suffix {rest : List Char} (solid : Solid rest) (suffix : rest <:+ text) :
    Solid text := by
  refine ⟨?_, ?_⟩
  · rintro rfl
    exact solid.1 (List.suffix_nil.mp suffix)
  · rintro rfl
    rcases List.suffix_cons_iff.mp suffix with rfl | suffix
    · exact solid.2 rfl
    · exact solid.1 (List.suffix_nil.mp suffix)

theorem skipBlanks_append_of_solid (solid : Solid (skipBlanks text)) (more : List Char) :
    skipBlanks (text ++ more) = skipBlanks text ++ more := by
  fun_induction skipBlanks text with
  | case1 text rest dropped inductionHypothesis =>
      have stays : dropBlank? (text ++ more) = some (rest ++ more) := by
        have kept : text ≠ ['\\', '\r'] := by
          rintro rfl
          obtain rfl : [] = rest := Option.some.inj dropped
          exact solid.1 (skipBlanks_of_none rfl)
        rw [dropBlank?_append (by rintro rfl; simp [dropBlank?] at dropped)
          (by rintro rfl; simp [dropBlank?, dropBreak?] at dropped) kept, dropped]
        rfl
      rw [skipBlanks_eq, stays]
      exact inductionHypothesis solid
  | case2 text dropped =>
      have stays : dropBlank? (text ++ more) = none := by
        have kept : text ≠ ['\\', '\r'] := by
          rintro rfl
          simp [dropBlank?, dropBreak?] at dropped
        rw [dropBlank?_append solid.1 solid.2 kept, dropped]
        rfl
      exact skipBlanks_of_none stays

theorem dropComment_append_of_ne_nil (nonempty : dropComment text ≠ []) (more : List Char) :
    dropComment (text ++ more) = dropComment text ++ more := by
  fun_cases dropComment text with
  | case1 rest =>
      have stops : (rest.dropWhile fun c => !isBreak c).isEmpty = false := by
        simpa [dropComment, dropLine] using nonempty
      simp [dropComment, dropLine, List.dropWhile_append, stops]
  | case2 text other =>
      refine dropComment_of_ne ?_
      cases text with
      | nil => exact absurd rfl nonempty
      | cons c rest => simpa using other rest

theorem suffix_dropComment (text : List Char) : dropComment text <:+ text := by
  fun_cases dropComment text with
  | case1 rest => exact (suffix_dropLine rest).trans (List.suffix_cons _ _)
  | case2 => exact List.suffix_refl _

theorem skipFiller_append_of_solid (solid : Solid (skipFiller text)) (more : List Char) :
    skipFiller (text ++ more) = skipFiller text ++ more := by
  have behindBlanks : Solid (skipBlanks text) := solid.of_suffix (suffix_dropComment _)
  rw [skipFiller, skipBlanks_append_of_solid behindBlanks, dropComment_append_of_ne_nil solid.1,
    skipFiller]

/-- What is left of a text, with more behind it. Where nothing is left, the filler in front of the
further text is skipped too. -/
def joined (more text : List Char) : List Char :=
  if text = [] then skipFiller more else text ++ more

@[simp]
theorem joined_nil (more : List Char) : joined more [] = skipFiller more := if_pos rfl

theorem joined_of_ne_nil (nonempty : text ≠ []) (more : List Char) :
    joined more text = text ++ more := if_neg nonempty

/-- Behind filler at the end of the text, the further text starts with the end of a statement, or
there is nothing but filler in it. -/
structure Apart (source more : List Char) : Prop where
  ends : ∀ c ∈ (skipFiller more).head?, isEnd c = true
  filler : ∀ text, text <:+ source → skipFiller (text ++ more) = joined more (skipFiller text)

theorem dropComment_append_newline (text more : List Char) :
    dropComment (text ++ '\n' :: more) = dropComment text ++ '\n' :: more := by
  fun_cases dropComment text with
  | case1 rest =>
      rw [List.cons_append, dropComment, dropLine, List.dropWhile_append]
      split
      · simp_all [dropLine, isBreak]
      · rfl
  | case2 text other =>
      refine dropComment_of_ne ?_
      cases text with
      | nil => simp
      | cons c rest => simpa using other rest

theorem joined_newline (text more : List Char) :
    joined ('\n' :: more) text = text ++ '\n' :: more := by
  unfold joined
  split
  · next empty => rw [empty, skipFiller_of_isBreak rfl, List.nil_append]
  · rfl

theorem Sealed.apart (whole : Sealed source) (more : List Char) : Apart source ('\n' :: more) := by
  refine ⟨by simp [skipFiller_of_isBreak, isBreak, isEnd], fun text suffix => ?_⟩
  have blank : ∀ rest, rest <:+ text →
      dropBlank? (rest ++ '\n' :: more) = (dropBlank? rest).map (· ++ '\n' :: more) := by
    intro rest inside
    have whole := whole.of_suffix (inside.trans suffix)
    by_cases empty : rest = []
    · rw [empty]
      rfl
    · refine dropBlank?_append empty ?_ ?_ _
      · rintro rfl
        exact whole.noBackslash (List.suffix_refl _)
      · rintro rfl
        exact whole.noReturn (List.suffix_refl _)
  rw [skipFiller, skipBlanks_append blank, dropComment_append_newline, ← skipFiller, joined_newline]

theorem dropBlank?_append_space (nonempty : text ≠ []) (more : List Char) :
    dropBlank? (text ++ ' ' :: more) = (dropBlank? text).map (· ++ ' ' :: more) := by
  by_cases backslash : text = ['\\']
  · simp [backslash, dropBlank?, dropBreak?]
  · by_cases returned : text = ['\\', '\r']
    · simp [returned, dropBlank?, dropBreak?]
    · exact dropBlank?_append nonempty backslash returned _

theorem skipBlanks_append_space (text more : List Char) :
    skipBlanks (text ++ ' ' :: more) =
      if skipBlanks text = [] then skipBlanks more else skipBlanks text ++ ' ' :: more := by
  fun_induction skipBlanks text with
  | case1 text rest dropped inductionHypothesis =>
      have nonempty : text ≠ [] := by rintro rfl; simp [dropBlank?] at dropped
      rw [skipBlanks_eq, dropBlank?_append_space nonempty, dropped]
      exact inductionHypothesis
  | case2 text dropped =>
      by_cases empty : text = []
      · rw [if_pos empty, empty, List.nil_append, skipBlanks_eq]
        rfl
      · rw [if_neg empty, skipBlanks_of_none]
        rw [dropBlank?_append_space empty, dropped]
        rfl

theorem skipFiller_append_space (blank : skipBlanks text = []) (more : List Char) :
    skipFiller (text ++ ' ' :: more) = skipFiller more := by
  rw [skipFiller, skipBlanks_append_space, if_pos blank, skipFiller]

/-- Filler up to the end of the text is blank, or ends in a comment that takes in what follows on
the same line. -/
theorem skipFiller_eq_nil (ended : skipFiller text = []) :
    skipBlanks text = [] ∨ ∀ more, skipFiller (text ++ more) = dropLine more := by
  by_cases blank : skipBlanks text = []
  · exact Or.inl blank
  · refine Or.inr fun more => ?_
    unfold skipFiller at ended ⊢
    obtain ⟨line, comment⟩ : ∃ line, skipBlanks text = '#' :: line := by
      by_cases comment : (skipBlanks text).head? = some '#'
      · exact List.head?_eq_some_iff.mp comment
      · exact absurd (dropComment_of_ne comment ▸ ended) blank
    rw [comment] at ended
    rw [skipBlanks_append_of_solid (by simp [comment, Solid]), comment]
    exact List.dropWhile_append_of_pos fun c member =>
      List.dropWhile_eq_nil_iff.mp ended c member

/-- A blank and a line break end whatever filler stands in front of them. -/
theorem apart_newline (source more : List Char) : Apart source (' ' :: '\n' :: more) := by
  have trimmed : skipFiller (' ' :: '\n' :: more) = '\n' :: more := by
    rw [skipFiller_space, skipFiller_of_isBreak rfl]
  refine ⟨by simp [trimmed, isBreak, isEnd], fun text _ => ?_⟩
  by_cases ended : skipFiller text = []
  · rw [ended, joined_nil, trimmed]
    rcases skipFiller_eq_nil ended with blank | comment
    · rw [skipFiller_append_space blank, skipFiller_of_isBreak rfl]
    · rw [comment]
      rfl
  · have shown : skipBlanks text ≠ [] := by
      intro blank
      rw [skipFiller, blank] at ended
      exact ended rfl
    rw [joined_of_ne_nil ended, skipFiller, skipBlanks_append_space, if_neg shown,
      dropComment_append_of_ne_nil ended, skipFiller]

/-- As far as a reading goes that leaves the given rest of the text, nothing of it changes with what
follows. -/
def Meets (source more rest : List Char) : Prop := Apart source more ∨ Solid rest

theorem Meets.of_suffix {rest rest' : List Char} (meets : Meets source more rest)
    (suffix : rest <:+ rest') : Meets source more rest' := by
  rcases meets with apart | solid
  · exact Or.inl apart
  · exact Or.inr (solid.of_suffix suffix)

theorem skipFiller_append (inside : text <:+ source) (meets : Meets source more (skipFiller text)) :
    skipFiller (text ++ more) = joined more (skipFiller text) := by
  rcases meets with apart | solid
  · exact apart.filler text inside
  · rw [joined_of_ne_nil solid.1, skipFiller_append_of_solid solid more]

/-- The text behind a part that skips ends: the further text itself, without such ends, if the text
is used up. -/
def settle (accepts : Char → Bool) (more text : List Char) : List Char :=
  if text = [] then skipOver accepts more else text ++ more

theorem settle_of_ne_nil (accepts : Char → Bool) (nonempty : text ≠ []) (more : List Char) :
    settle accepts more text = text ++ more := if_neg nonempty

theorem skipOver_append {accepts : Char → Bool} (inside : text <:+ source)
    (meets : Meets source more (skipOver accepts text)) :
    skipOver accepts (text ++ more) = settle accepts more (skipOver accepts text) := by
  fun_induction skipOver accepts text with
  | case1 text empty =>
      have filled := skipFiller_append inside (by rwa [empty])
      rw [← skipOver_skipFiller, filled, empty, joined_nil, skipOver_skipFiller, settle, if_pos rfl]
  | case2 text c rest filled accepts' inductionHypothesis =>
      have suffix := suffix_skipFiller text
      have reaches : skipOver accepts rest <:+ skipFiller text := by
        rw [filled]
        exact (suffix_skipOver rest).trans (List.suffix_cons c rest)
      have filled' := skipFiller_append inside (meets.of_suffix reaches)
      rw [filled] at suffix
      rw [skipOver_eq, filled', filled, joined_of_ne_nil (by simp)]
      simp only [List.cons_append, if_pos accepts']
      exact inductionHypothesis (((List.suffix_cons c rest).trans suffix).trans inside) meets
  | case3 text c rest filled rejected =>
      rw [skipOver_eq, skipFiller_append inside (by rwa [filled]), filled,
        joined_of_ne_nil (by simp)]
      simp [rejected, settle]

theorem skipOver_joined {accepts : Char → Bool} (inside : text <:+ source)
    (meets : Meets source more (skipOver accepts text)) :
    skipOver accepts (joined more text) = settle accepts more (skipOver accepts text) := by
  by_cases empty : text = []
  · rw [empty, joined_nil, skipOver_skipFiller, skipOver_nil, settle, if_pos rfl]
  · rw [joined_of_ne_nil empty, skipOver_append inside meets]

theorem firstWord_append (parted : Parted more) (text : List Char) :
    firstWord (text ++ more) = firstWord text :=
  takeWhile_append_parted not_isBoundary_of_isJoint parted text

theorem behindWord_append (parted : Parted more) (text : List Char) :
    behindWord (text ++ more) = behindWord text ++ more :=
  dropWhile_append_parted not_isBoundary_of_isJoint parted text

theorem reservedAt?_append (parted : Parted more) (text : List Char) :
    Keyword.reservedAt? (text ++ more) = Keyword.reservedAt? text := by
  simp only [Keyword.reservedAt?, firstWord_append parted]

/-! Words at the end of a text. -/

/-- Put more text behind what is left of a text. -/
def lengthen {α : Type} (more : List Char) (found : α × List Char) : α × List Char :=
  (found.1, found.2 ++ more)

theorem readName?_lengthen (parted : Parted more) (text : List Char) :
    readName? (text ++ more) = (readName? text).map (lengthen more) := by
  cases text with
  | nil =>
      obtain ⟨c, rest, rfl, joint⟩ := parted
      simp only [isJoint, isEnd, isBreak, Bool.or_eq_true, beq_iff_eq] at joint
      rcases joint with ((((rfl | rfl) | rfl | rfl | rfl) | rfl) | rfl) <;> rfl
  | cons c rest =>
      simp only [List.cons_append, readName?, takeWhile_append_parted isNamePart_of_isJoint parted,
        dropWhile_append_parted isNamePart_of_isJoint parted]
      split
      · rfl
      · rfl

theorem head?_ne_of_ne_cons {d : Char} (other : ∀ rest, text ≠ d :: rest) :
    text.head? ≠ some d := by
  intro same
  obtain ⟨rest, rfl⟩ := List.head?_eq_some_iff.mp same
  exact other rest rfl

theorem Parted.head_ne (parted : Parted more) {d : Char} (solid : isJoint d = false) :
    more.head? ≠ some d := by
  obtain ⟨c, rest, rfl, joint⟩ := parted
  rintro ⟨⟩
  simp [solid] at joint

theorem Parted.head_append_ne (parted : Parted more) {d : Char} (solid : isJoint d = false)
    (other : text.head? ≠ some d) : (text ++ more).head? ≠ some d := by
  cases text with
  | nil => exact parted.head_ne solid
  | cons c rest => exact other

theorem Meets.head_joined_ne {rest : List Char} (meets : Meets source more rest) {d : Char}
    (solid : isEnd d = false) (other : rest.head? ≠ some d) :
    (joined more rest).head? ≠ some d := by
  by_cases empty : rest = []
  · rcases meets with apart | nonempty
    · rw [empty, joined_nil]
      intro same
      have ends := apart.ends d same
      simp [solid] at ends
    · exact absurd empty nonempty.1
  · obtain ⟨c, tail, rfl⟩ := List.exists_cons_of_ne_nil empty
    rw [joined_of_ne_nil empty]
    exact other

theorem readReferred?_lengthen (parted : Parted more) (text : List Char) :
    readReferred? (text ++ more) = (readReferred? text).map (lengthen more) := by
  fun_cases readReferred? text with
  | case1 rest => rfl
  | case2 text other =>
      rw [← readName?_lengthen parted]
      exact readReferred?_of_ne (parted.head_append_ne rfl (head?_ne_of_ne_cons other))

theorem readReference?_lengthen (parted : Parted more) (text : List Char) :
    readReference? (text ++ more) = (readReference? text).map (lengthen more) := by
  fun_cases readReference? text with
  | case1 text name rest found =>
      simp [readReference?, readReferred?_lengthen parted, found, lengthen]
  | case2 text noReference =>
      simp only [List.cons_append, readReference?, readReferred?_lengthen parted]
      cases found : readReferred? text with
      | none => rfl
      | some pair =>
          obtain ⟨name, rest⟩ := pair
          have noBrace : (rest ++ more).head? ≠ some '\x7d' := by
            refine parted.head_append_ne rfl (head?_ne_of_ne_cons ?_)
            rintro rest rfl
            exact noReference name rest found
          simp only [Option.map_some, lengthen, Option.map_none]
          split
          · next name' rest' same =>
              rw [(Prod.mk.inj (Option.some.inj same)).2] at noBrace
              exact absurd rfl noBrace
          · rfl
  | case3 text noBrace =>
      rw [← readReferred?_lengthen parted]
      exact readReference?_of_ne (parted.head_append_ne rfl (head?_ne_of_ne_cons noBrace))

theorem readQuoted?_lengthen {quote : Char} {inside rest : List Char}
    (found : readQuoted? quote text = some (inside, rest)) (more : List Char) :
    readQuoted? quote (text ++ more) = some (inside, rest ++ more) := by
  rw [eq_append_of_readQuoted? found, List.append_assoc, List.cons_append]
  exact readQuoted?_append (not_mem_of_readQuoted? found) _

theorem readPlain?_lengthen (parted : Parted more) (text : List Char) :
    readPlain? (text ++ more) = (readPlain? text).map (lengthen more) := by
  cases text with
  | nil =>
      obtain ⟨c, rest, rfl, joint⟩ := parted
      have ends := not_isDelimiter_of_isJoint c joint
      simp_all [readPlain?]
  | cons c rest =>
      simp only [List.cons_append, readPlain?,
        takeWhile_append_parted not_isDelimiter_of_isJoint parted,
        dropWhile_append_parted not_isDelimiter_of_isJoint parted]
      split
      · rfl
      · rfl

/-- Whether the text starts with a quotation mark. -/
def atQuote (text : List Char) : Bool := text.head? == some '\x27' || text.head? == some '\x22'

theorem readPiece?_lengthen_some (parted : Parted more) {piece : Word} {rest : List Char}
    (found : readPiece? text = some (piece, rest)) :
    readPiece? (text ++ more) = some (piece, rest ++ more) := by
  fun_cases readPiece? text with
  | case1 text =>
      simp only [readPiece?] at found
      obtain ⟨⟨inside, behind⟩, quoted, same⟩ := Option.map_eq_some_iff.mp found
      obtain ⟨rfl, rfl⟩ := Prod.mk.inj same
      simp [readPiece?, readQuoted?_lengthen quoted]
  | case2 text =>
      simp only [readPiece?] at found
      obtain ⟨⟨inside, behind⟩, quoted, same⟩ := Option.map_eq_some_iff.mp found
      obtain ⟨rfl, rfl⟩ := Prod.mk.inj same
      simp [readPiece?, readQuoted?_lengthen quoted]
  | case3 text name behind referred =>
      simp only [readPiece?, referred] at found
      obtain ⟨rfl, rfl⟩ := Prod.mk.inj (Option.some.inj found)
      simp [readPiece?, readReference?_lengthen parted, referred, lengthen]
  | case4 text refused =>
      simp only [readPiece?, refused] at found
      obtain ⟨rfl, rfl⟩ := Prod.mk.inj (Option.some.inj found)
      simp [readPiece?, readReference?_lengthen parted, refused]
  | case5 text noSingle noDouble noDollar =>
      have noSingle := head?_ne_of_ne_cons noSingle
      have noDouble := head?_ne_of_ne_cons noDouble
      have noDollar := head?_ne_of_ne_cons noDollar
      rw [readPiece?_of_ne noSingle noDouble noDollar] at found
      obtain ⟨⟨inside, behind⟩, plain, same⟩ := Option.map_eq_some_iff.mp found
      obtain ⟨rfl, rfl⟩ := Prod.mk.inj same
      rw [readPiece?_of_ne (parted.head_append_ne rfl noSingle) (parted.head_append_ne rfl noDouble)
        (parted.head_append_ne rfl noDollar), readPlain?_lengthen parted, plain]
      rfl

theorem readPiece?_lengthen_none (parted : Parted more) (refused : readPiece? text = none)
    (unquoted : atQuote text = false) : readPiece? (text ++ more) = none := by
  simp only [atQuote, Bool.or_eq_false_iff, beq_eq_false_iff_ne] at unquoted
  obtain ⟨noSingle, noDouble⟩ := unquoted
  have noDollar : text.head? ≠ some '$' := by
    refine head?_ne_of_ne_cons ?_
    rintro rest rfl
    simp only [readPiece?] at refused
    split at refused <;> simp at refused
  rw [readPiece?_of_ne noSingle noDouble noDollar, Option.map_eq_none_iff] at refused
  rw [readPiece?_of_ne (parted.head_append_ne rfl noSingle) (parted.head_append_ne rfl noDouble)
    (parted.head_append_ne rfl noDollar), readPlain?_lengthen parted, refused]
  rfl

theorem readPieces_lengthen (parted : Parted more) (text : List Char)
    (unquoted : atQuote (readPieces text).2 = false) :
    readPieces (text ++ more) = lengthen more (readPieces text) := by
  fun_induction readPieces text with
  | case1 text refused =>
      rw [readPieces_of_none (readPiece?_lengthen_none parted refused unquoted), lengthen]
  | case2 text piece rest found inductionHypothesis =>
      rw [readPieces_of_some (readPiece?_lengthen_some parted found), inductionHypothesis unquoted,
        lengthen, lengthen]

theorem readPiece?_of_isEnd (ends : ∀ c ∈ text.head?, isEnd c = true) : readPiece? text = none := by
  cases text with
  | nil => rfl
  | cons c rest =>
      have ends := ends c rfl
      simp only [isEnd, isBreak, Bool.or_eq_true, beq_iff_eq] at ends
      rcases ends with rfl | rfl | rfl <;> rfl

theorem head?_of_atQuote (quoted : atQuote text = true) :
    ∃ rest, text = '\x27' :: rest ∨ text = '\x22' :: rest := by
  simp only [atQuote, Bool.or_eq_true, beq_iff_eq, List.head?_eq_some_iff] at quoted
  rcases quoted with ⟨rest, same⟩ | ⟨rest, same⟩
  · exact ⟨rest, Or.inl same⟩
  · exact ⟨rest, Or.inr same⟩

theorem solid_of_atQuote (quoted : atQuote text = true) : Solid text := by
  obtain ⟨rest, rfl | rfl⟩ := head?_of_atQuote quoted <;> simp [Solid]

theorem skipFiller_of_atQuote (quoted : atQuote text = true) : skipFiller text = text := by
  obtain ⟨rest, rfl | rfl⟩ := head?_of_atQuote quoted <;> exact skipFiller_of_isSolid rfl rest

/-- Words that end before an open quotation are the last ones. -/
theorem readWords_of_atQuote (quoted : atQuote (readPieces text).2 = true) :
    readWords (skipFiller (readPieces text).2) = ([], (readPieces text).2) := by
  rw [skipFiller_of_atQuote quoted, readWords_of_none (readPiece?_readPieces text)]

theorem readWords_joined (parted : Parted more) (inside : text <:+ source)
    (meets : Meets source more (readWords text).2) (unquoted : atQuote (readWords text).2 = false) :
    readWords (joined more text) = ((readWords text).1, joined more (readWords text).2) := by
  fun_induction readWords text with
  | case1 text refused =>
      by_cases empty : text = []
      · subst empty
        rcases meets with apart | solid
        · rw [joined_nil, readWords_of_none (readPiece?_of_isEnd apart.ends)]
        · exact absurd rfl solid.1
      · rw [joined_of_ne_nil empty,
          readWords_of_none (readPiece?_lengthen_none parted refused unquoted)]
  | case2 text piece found words tail inductionHypothesis =>
      have closed : atQuote words.2 = false := by
        cases quoted : atQuote words.2 with
        | false => rfl
        | true =>
            have last : tail = ([], words.2) := readWords_of_atQuote quoted
            simp [last, quoted] at unquoted
      have behind : words.2 <:+ source := (suffix_readPieces text).trans inside
      have pieces : readPieces (text ++ more) = (words.1, words.2 ++ more) :=
        readPieces_lengthen parted text closed
      have filled := skipFiller_append behind (meets.of_suffix (suffix_readWords _))
      have starts := readPiece?_lengthen_some parted found
      have nonempty : text ≠ [] := by
        rintro rfl
        simp [readPiece?, readPlain?] at found
      rw [joined_of_ne_nil nonempty, readWords_of_some (by simp [starts]), pieces, filled,
        inductionHypothesis ((suffix_skipFiller _).trans behind) meets unquoted]

/-! Quotations that are open at the end of a text. -/

/-- What closes a quotation that the text starts with. -/
def closure (text : List Char) : List Char := ' ' :: text.take 1

theorem parted_closure (text : List Char) : Parted (closure text) := parted_space _

theorem readQuoted?_closure {quote : Char} (visible : quote ≠ ' ')
    (refused : readQuoted? quote text = none) :
    readQuoted? quote (text ++ [' ', quote]) = some (text ++ [' '], []) := by
  have absent : quote ∉ text ++ [' '] := by
    unfold readQuoted? at refused
    split at refused
    · next dropped =>
        intro member
        rcases List.mem_append.mp member with member | member
        · simpa using List.dropWhile_eq_nil_iff.mp dropped quote member
        · exact visible (List.mem_singleton.mp member)
    · simp at refused
  simpa using readQuoted?_append absent []

theorem readPiece?_closure (quoted : atQuote text = true) (refused : readPiece? text = none) :
    ∃ piece, readPiece? (text ++ closure text) = some (piece, []) := by
  obtain ⟨rest, rfl | rfl⟩ := head?_of_atQuote quoted
  · have closed := readQuoted?_closure (by decide) (Option.map_eq_none_iff.mp refused)
    exact ⟨.literal (.ofList (rest ++ [' '])), by simp [closure, readPiece?, closed]⟩
  · have closed := readQuoted?_closure (by decide) (Option.map_eq_none_iff.mp refused)
    exact ⟨.literal (.ofList (rest ++ [' '])), by simp [closure, readPiece?, closed]⟩

theorem readPieces_closure (quoted : atQuote (readPieces text).2 = true) :
    (readPieces (text ++ closure (readPieces text).2)).2 = [] := by
  fun_induction readPieces text with
  | case1 text refused =>
      obtain ⟨piece, closed⟩ := readPiece?_closure quoted refused
      rw [readPieces_of_some closed, readPieces_of_none rfl]
  | case2 text piece rest found inductionHypothesis =>
      have parted := parted_closure (readPieces rest).2
      dsimp only
      rw [readPieces_of_some (readPiece?_lengthen_some parted found)]
      exact inductionHypothesis quoted

theorem readWords_closure (quoted : atQuote (readWords text).2 = true) :
    (readWords (text ++ closure (readWords text).2)).2 = [] := by
  fun_induction readWords text with
  | case1 text refused =>
      obtain ⟨piece, closed⟩ := readPiece?_closure quoted refused
      rw [readWords_of_some (by simp [closed]), readPieces_of_some closed, readPieces_of_none rfl,
        skipFiller_nil, readWords_of_none rfl]
  | case2 text piece found words tail inductionHypothesis =>
      have parted := parted_closure tail.2
      have starts := readPiece?_lengthen_some parted found
      rw [readWords_of_some (by simp [starts])]
      cases open_ : atQuote words.2 with
      | true =>
          have last : tail = ([], words.2) := readWords_of_atQuote open_
          rw [last, readPieces_closure open_, skipFiller_nil, readWords_of_none rfl]
      | false =>
          have solid : Solid (skipFiller words.2) :=
            (solid_of_atQuote quoted).of_suffix (suffix_readWords _)
          have pieces :
              readPieces (text ++ closure tail.2) = (words.1, words.2 ++ closure tail.2) :=
            readPieces_lengthen parted text open_
          rw [pieces, skipFiller_append_of_solid solid]
          exact inductionHypothesis quoted

end CommandShell.Reader
