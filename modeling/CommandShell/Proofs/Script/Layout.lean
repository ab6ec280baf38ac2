import CommandShell.Proofs.Reader.Adequacy

/-!
The layout of a text does not change what it says. Where a text has a space there may be any blanks,
and in front of a line break blanks and a comment: the machine takes the same steps over both texts,
and comes to places that correspond.
-/

namespace CommandShell

namespace Reader

/-- The characters that stand for themselves, however the text is laid out. -/
def isOrdinary (c : Char) : Bool :=
  !(c == ' ' || isBreak c || c == '\\' || c == '#' || c == '\x27' || c == '\x22')

inductive Newline : List Char → Prop where
  | feed : Newline ['\n']
  | returnFeed : Newline ['\r', '\n']

inductive Blanks : List Char → Prop where
  | none : Blanks []
  | space {rest : List Char} : Blanks rest → Blanks (' ' :: rest)
  | tab {rest : List Char} : Blanks rest → Blanks ('\t' :: rest)
  | continuation {newline rest : List Char} :
      Newline newline → Blanks rest → Blanks ('\\' :: (newline ++ rest))

/-- What may stand where a text has a space. -/
inductive Gap : List Char → Prop where
  | space {rest : List Char} : Blanks rest → Gap (' ' :: rest)
  | tab {rest : List Char} : Blanks rest → Gap ('\t' :: rest)

/-- What may stand in front of a line break. -/
inductive Trailing : List Char → Prop where
  | none : Trailing []
  | blanks {gap : List Char} : Gap gap → Trailing gap
  | comment {gap comment : List Char} :
      Gap gap → (∀ c ∈ comment, isBreak c = false) → Trailing (gap ++ '#' :: comment)

/-- The second text is the first one, laid out in another way. The first one is plain: it has no
quotes, backslashes, comments and carriage returns. -/
inductive Relaid : List Char → List Char → Prop where
  | nil : Relaid [] []
  | keep {c : Char} {text text' : List Char} :
      isOrdinary c = true → Relaid text text' → Relaid (c :: text) (c :: text')
  | space {gap text text' : List Char} :
      Gap gap → Relaid text text' → Relaid (' ' :: text) (gap ++ text')
  | newline {trailing newline text text' : List Char} :
      Trailing trailing → Newline newline → Relaid text text' →
      Relaid ('\n' :: text) (trailing ++ (newline ++ text'))

/-- Texts that correspond and have no filler in front. -/
inductive Facing : List Char → List Char → Prop where
  | nil : Facing [] []
  | token {c : Char} {text text' : List Char} :
      isOrdinary c = true → c ≠ '\t' → Relaid text text' → Facing (c :: text) (c :: text')
  | newline {newline text text' : List Char} :
      Newline newline → Relaid text text' → Facing ('\n' :: text) (newline ++ text')

theorem Facing.relaid {text text' : List Char} (facing : Facing text text') :
    Relaid text text' := by
  cases facing with
  | nil => exact .nil
  | token ordinary _ relaid => exact .keep ordinary relaid
  | newline newline relaid => exact .newline .none newline relaid

theorem Facing.going {text text' : List Char} (facing : Facing text text') {state : State}
    (going : ¬ (text = [] ∧ state.stack = [])) : text' ≠ [] ∨ state.stack ≠ [] := by
  cases facing with
  | nil => exact Or.inr fun outside => going ⟨rfl, outside⟩
  | token => exact Or.inl (by simp)
  | newline ends => cases ends <;> exact Or.inl (by simp)

/-- The characters that separate words. -/
def isLayout (c : Char) : Bool := c == ' ' || c == '\t' || isBreak c

theorem Gap.head {gap : List Char} (blank : Gap gap) :
    ∃ c rest, gap = c :: rest ∧ isLayout c = true := by
  cases blank with
  | space => exact ⟨_, _, rfl, rfl⟩
  | tab => exact ⟨_, _, rfl, rfl⟩

theorem Newline.head {newline : List Char} (ends : Newline newline) :
    ∃ c rest, newline = c :: rest ∧ isBreak c = true := by
  cases ends with
  | feed => exact ⟨_, _, rfl, rfl⟩
  | returnFeed => exact ⟨_, _, rfl, rfl⟩

theorem Trailing.head {trailing newline : List Char} (before : Trailing trailing)
    (ends : Newline newline) (text : List Char) :
    ∃ c rest, trailing ++ (newline ++ text) = c :: rest ∧ isLayout c = true := by
  cases before with
  | none =>
      obtain ⟨c, rest, rfl, breaks⟩ := ends.head
      exact ⟨c, _, rfl, by simp [isLayout, breaks]⟩
  | blanks gap =>
      obtain ⟨c, rest, rfl, layout⟩ := gap.head
      exact ⟨c, _, rfl, layout⟩
  | comment gap =>
      obtain ⟨c, rest, rfl, layout⟩ := gap.head
      exact ⟨c, _, rfl, layout⟩

theorem Relaid.head {text text' : List Char} (relaid : Relaid text text') :
    text = [] ∧ text' = [] ∨
      (∃ c rest rest', text = c :: rest ∧ text' = c :: rest' ∧ isOrdinary c = true ∧
        Relaid rest rest') ∨
      ∃ c rest c' rest', text = c :: rest ∧ text' = c' :: rest' ∧ isLayout c = true ∧
        isLayout c' = true := by
  cases relaid with
  | nil => exact Or.inl ⟨rfl, rfl⟩
  | keep ordinary relaid => exact Or.inr (Or.inl ⟨_, _, _, rfl, rfl, ordinary, relaid⟩)
  | space gap _ =>
      obtain ⟨c, rest, rfl, layout⟩ := gap.head
      exact Or.inr (Or.inr ⟨_, _, c, _, rfl, rfl, rfl, layout⟩)
  | newline before ends _ =>
      obtain ⟨c, rest, same, layout⟩ := before.head ends _
      exact Or.inr (Or.inr ⟨_, _, c, _, rfl, same, rfl, layout⟩)

theorem Relaid.head_eq_or {text text' : List Char} (relaid : Relaid text text') {d : Char}
    (solid : isLayout d = false) :
    (∃ rest rest', text = d :: rest ∧ text' = d :: rest' ∧ Relaid rest rest') ∨
      text.head? ≠ some d ∧ text'.head? ≠ some d := by
  rcases relaid.head with ⟨rfl, rfl⟩ | ⟨c, rest, rest', rfl, rfl, _, behind⟩ |
    ⟨c, rest, c', rest', rfl, rfl, layout, layout'⟩
  · exact Or.inr ⟨by simp, by simp⟩
  · by_cases same : c = d
    · exact Or.inl ⟨rest, rest', by rw [same], by rw [same], behind⟩
    · exact Or.inr ⟨by simpa using same, by simpa using same⟩
  · refine Or.inr ⟨?_, ?_⟩
    · rintro ⟨⟩
      simp [solid] at layout
    · rintro ⟨⟩
      simp [solid] at layout'

/-! The layout itself. -/

theorem dropBreak?_newline {newline : List Char} (ends : Newline newline) (text : List Char) :
    dropBreak? (newline ++ text) = some text := by
  cases ends with
  | feed => rfl
  | returnFeed => rfl

theorem skipBlanks_blanks {blanks : List Char} (blank : Blanks blanks) (text : List Char) :
    skipBlanks (blanks ++ text) = skipBlanks text := by
  induction blank with
  | none => rfl
  | space _ inductionHypothesis => rwa [List.cons_append, skipBlanks_eq]
  | tab _ inductionHypothesis => rwa [List.cons_append, skipBlanks_eq]
  | continuation ends _ inductionHypothesis =>
      rw [List.cons_append, List.append_assoc, skipBlanks_eq]
      simp only [dropBlank?, dropBreak?_newline ends]
      exact inductionHypothesis

theorem skipBlanks_gap {gap : List Char} (blank : Gap gap) (text : List Char) :
    skipBlanks (gap ++ text) = skipBlanks text := by
  cases blank with
  | space rest => exact skipBlanks_blanks (.space rest) text
  | tab rest => exact skipBlanks_blanks (.tab rest) text

theorem skipFiller_newline {newline : List Char} (ends : Newline newline) (text : List Char) :
    skipFiller (newline ++ text) = newline ++ text := by
  obtain ⟨c, rest, rfl, breaks⟩ := ends.head
  exact skipFiller_of_isBreak breaks _

theorem skipFiller_trailing {trailing newline : List Char} (before : Trailing trailing)
    (ends : Newline newline) (text : List Char) :
    skipFiller (trailing ++ (newline ++ text)) = newline ++ text := by
  have stays := skipFiller_newline ends text
  cases before with
  | none => exact stays
  | blanks gap => rwa [skipFiller, skipBlanks_gap gap]
  | @comment gap comment blank plain =>
      obtain ⟨c, rest, rfl, breaks⟩ := ends.head
      have line : ∀ c ∈ comment, (!isBreak c) = true := by simpa using plain
      rw [skipFiller, List.append_assoc, skipBlanks_gap blank, List.cons_append,
        skipBlanks_of_none rfl, dropComment, dropLine, List.dropWhile_append_of_pos line]
      simp [breaks]

theorem isSolid_of_isOrdinary {c : Char} (ordinary : isOrdinary c = true) (noTab : c ≠ '\t') :
    isSolid c = true := by
  simp only [isOrdinary, isBreak, Bool.not_eq_true', Bool.or_eq_false_iff,
    beq_eq_false_iff_ne] at ordinary
  simp [isSolid, ordinary, noTab]

theorem skipFiller_facing {text text' : List Char} (relaid : Relaid text text') :
    Facing (skipFiller text) (skipFiller text') := by
  induction relaid with
  | nil => simpa using Facing.nil
  | @keep c text text' ordinary relaid inductionHypothesis =>
      by_cases tab : c = '\t'
      · subst tab
        rwa [skipFiller, skipFiller, skipBlanks_eq, skipBlanks_eq ('\t' :: text')]
      · have solid := isSolid_of_isOrdinary ordinary tab
        rw [skipFiller_of_isSolid solid, skipFiller_of_isSolid solid]
        exact .token ordinary tab relaid
  | @space gap text text' blank _ inductionHypothesis =>
      rwa [skipFiller_space, skipFiller, skipFiller, skipBlanks_gap blank]
  | newline before ends relaid _ =>
      rw [skipFiller_of_isBreak rfl, skipFiller_trailing before ends]
      exact .newline ends relaid

theorem skipOver_newline {accepts : Char → Bool}
    (accepted : ∀ c, isBreak c = true → accepts c = true) {newline : List Char}
    (ends : Newline newline) (text : List Char) :
    skipOver accepts (newline ++ text) = skipOver accepts text := by
  have skips : ∀ c, isBreak c = true →
      ∀ text, skipOver accepts (c :: text) = skipOver accepts text :=
    fun c breaks text => skipOver_cons (skipFiller_of_isBreak breaks text) (accepted c breaks)
  cases ends with
  | feed => exact skips _ rfl _
  | returnFeed => exact (skips _ rfl _).trans (skips _ rfl _)

theorem skipOver_facing {accepts : Char → Bool}
    (accepted : ∀ c, isBreak c = true → accepts c = true) {text text' : List Char}
    (relaid : Relaid text text') :
    Facing (skipOver accepts text) (skipOver accepts text') := by
  fun_induction skipOver accepts text generalizing text' with
  | case1 text empty =>
      have facing := skipFiller_facing relaid
      rw [skipOver_eq]
      rw [empty] at facing
      generalize skipFiller text' = trimmed at facing
      cases facing
      exact .nil
  | case2 text c rest filled accepts' inductionHypothesis =>
      have facing := skipFiller_facing relaid
      rw [← skipOver_skipFiller text']
      rw [filled] at facing
      generalize skipFiller text' = trimmed at facing
      cases facing with
      | token ordinary noTab relaid =>
          rw [skipOver_cons (skipFiller_of_isSolid (isSolid_of_isOrdinary ordinary noTab) _)
            accepts']
          exact inductionHypothesis relaid
      | newline ends relaid =>
          rw [skipOver_newline accepted ends]
          exact inductionHypothesis relaid
  | case3 text c rest filled rejected =>
      have facing := skipFiller_facing relaid
      rw [filled] at facing
      have stays : skipOver accepts text' = skipFiller text' := by
        rw [← skipOver_skipFiller]
        refine skipOver_of_rejected (skipFiller_skipFiller text') ?_
        generalize skipFiller text' = trimmed at facing
        cases facing with
        | token => simpa using rejected
        | newline => exact absurd (accepted '\n' rfl) rejected
      rwa [stays]

/-! Words. -/

theorem takeWhile_relaid {accepts : Char → Bool}
    (rejected : ∀ c, isLayout c = true → accepts c = false) {text text' : List Char}
    (relaid : Relaid text text') :
    text'.takeWhile accepts = text.takeWhile accepts ∧
      Relaid (text.dropWhile accepts) (text'.dropWhile accepts) := by
  induction relaid with
  | nil => exact ⟨rfl, .nil⟩
  | @keep c text text' ordinary relaid inductionHypothesis =>
      by_cases inside : accepts c = true
      · simpa [inside] using inductionHypothesis
      · simpa [inside] using Relaid.keep ordinary relaid
  | space gap relaid _ =>
      have stays := Relaid.space gap relaid
      obtain ⟨c, rest, rfl, layout⟩ := gap.head
      simpa [rejected c layout, rejected ' ' rfl] using stays
  | newline before ends relaid _ =>
      have stays := Relaid.newline before ends relaid
      obtain ⟨c, rest, same, layout⟩ := before.head ends _
      rw [same] at stays ⊢
      simpa [rejected c layout, rejected '\n' rfl] using stays

theorem firstWord_relaid {text text' : List Char} (relaid : Relaid text text') :
    firstWord text' = firstWord text ∧ Relaid (behindWord text) (behindWord text') := by
  refine takeWhile_relaid ?_ relaid
  intro c layout
  simp only [isLayout, Bool.or_eq_true, beq_iff_eq] at layout
  rcases layout with (rfl | rfl) | breaks
  · rfl
  · rfl
  · simp [isBoundary, isEnd, breaks]

theorem reservedAt?_relaid {text text' : List Char} (relaid : Relaid text text') :
    Keyword.reservedAt? text' = Keyword.reservedAt? text := by
  simp only [Keyword.reservedAt?, (firstWord_relaid relaid).1]

/-- The same was found, and what is left corresponds. -/
def Alike {α : Type} (found found' : α × List Char) : Prop :=
  found.1 = found'.1 ∧ Relaid found.2 found'.2

theorem isNamePart_of_isLayout {c : Char} (layout : isLayout c = true) :
    Rule.isNamePart c = false := by
  simp only [isLayout, isBreak, Bool.or_eq_true, beq_iff_eq] at layout
  rcases layout with (rfl | rfl) | rfl | rfl <;> rfl

theorem isDelimiter_of_isLayout {c : Char} (layout : isLayout c = true) : isDelimiter c = true := by
  simp only [isLayout, isBreak, Bool.or_eq_true, beq_iff_eq] at layout
  rcases layout with (rfl | rfl) | rfl | rfl <;> rfl

theorem readName?_of_isLayout {c : Char} (layout : isLayout c = true) (rest : List Char) :
    readName? (c :: rest) = none := by
  simp only [isLayout, isBreak, Bool.or_eq_true, beq_iff_eq] at layout
  rcases layout with (rfl | rfl) | rfl | rfl <;> rfl

theorem readName?_relaid {text text' : List Char} (relaid : Relaid text text') :
    Option.Rel Alike (readName? text) (readName? text') := by
  rcases relaid.head with ⟨rfl, rfl⟩ | ⟨c, rest, rest', rfl, rfl, _, relaid⟩ |
    ⟨c, rest, c', rest', rfl, rfl, layout, layout'⟩
  · exact .none
  · obtain ⟨same, behind⟩ := takeWhile_relaid (fun _ => isNamePart_of_isLayout) relaid
    by_cases starts : Rule.isNameStart c = true
    · simp only [readName?, if_pos starts, same]
      exact .some ⟨rfl, behind⟩
    · simp only [readName?, if_neg starts]
      exact .none
  · rw [readName?_of_isLayout layout, readName?_of_isLayout layout']
    exact .none

theorem readReferred?_relaid {text text' : List Char} (relaid : Relaid text text') :
    Option.Rel Alike (readReferred? text) (readReferred? text') := by
  rcases relaid.head_eq_or (d := '?') rfl with ⟨rest, rest', rfl, rfl, behind⟩ | ⟨other, other'⟩
  · exact .some ⟨rfl, behind⟩
  · rw [readReferred?_of_ne other, readReferred?_of_ne other']
    exact readName?_relaid relaid

theorem readReference?_relaid {text text' : List Char} (relaid : Relaid text text') :
    Option.Rel Alike (readReference? text) (readReference? text') := by
  rcases relaid.head_eq_or (d := '\x7b') rfl with ⟨rest, rest', rfl, rfl, behind⟩ | ⟨other, other'⟩
  · have referred := readReferred?_relaid behind
    simp only [readReference?]
    generalize readReferred? rest = found at referred ⊢
    generalize readReferred? rest' = found' at referred ⊢
    cases referred with
    | none => exact .none
    | @some found found' alike =>
        obtain ⟨name, left⟩ := found
        obtain ⟨name', left'⟩ := found'
        obtain ⟨rfl, closes⟩ : name = name' ∧ Relaid left left' := alike
        rcases closes.head_eq_or (d := '\x7d') rfl with
            ⟨last, last', rfl, rfl, behind⟩ | ⟨open', open''⟩
        · exact .some ⟨rfl, behind⟩
        · split
          · simp_all
          · split
            · simp_all
            · exact .none
  · rw [readReference?_of_ne other, readReference?_of_ne other']
    exact readReferred?_relaid relaid

theorem readPlain?_relaid {text text' : List Char} (relaid : Relaid text text') :
    Option.Rel Alike (readPlain? text) (readPlain? text') := by
  rcases relaid.head with ⟨rfl, rfl⟩ | ⟨c, rest, rest', rfl, rfl, _, relaid⟩ |
    ⟨c, rest, c', rest', rfl, rfl, layout, layout'⟩
  · exact .none
  · have rejected : ∀ c, isLayout c = true → (!isDelimiter c) = false := by
      intro c layout
      simp [isDelimiter_of_isLayout layout]
    obtain ⟨same, behind⟩ := takeWhile_relaid rejected relaid
    by_cases ends : isDelimiter c = true
    · simp only [readPlain?, if_pos ends]
      exact .none
    · simp only [readPlain?, if_neg ends, same]
      exact .some ⟨rfl, behind⟩
  · simp only [readPlain?, isDelimiter_of_isLayout layout, isDelimiter_of_isLayout layout', if_true]
    exact .none

theorem Relaid.unquoted {text text' : List Char} (relaid : Relaid text text') {d : Char}
    (quote : d = '\x27' ∨ d = '\x22') : text.head? ≠ some d ∧ text'.head? ≠ some d := by
  rcases relaid.head with ⟨rfl, rfl⟩ | ⟨c, rest, rest', rfl, rfl, ordinary, _⟩ |
    ⟨c, rest, c', rest', rfl, rfl, layout, layout'⟩
  · exact ⟨by simp, by simp⟩
  · have other : c ≠ d := by
      rintro rfl
      rcases quote with rfl | rfl <;> contradiction
    exact ⟨by simpa using other, by simpa using other⟩
  · refine ⟨?_, ?_⟩
    · rintro ⟨⟩
      rcases quote with rfl | rfl <;> contradiction
    · rintro ⟨⟩
      rcases quote with rfl | rfl <;> contradiction

theorem readPiece?_relaid {text text' : List Char} (relaid : Relaid text text') :
    Option.Rel Alike (readPiece? text) (readPiece? text') := by
  obtain ⟨noSingle, noSingle'⟩ := relaid.unquoted (Or.inl rfl)
  obtain ⟨noDouble, noDouble'⟩ := relaid.unquoted (Or.inr rfl)
  rcases relaid.head_eq_or (d := '$') rfl with
      ⟨rest, rest', rfl, rfl, behind⟩ | ⟨noDollar, noDollar'⟩
  · have referred := readReference?_relaid behind
    simp only [readPiece?]
    generalize readReference? rest = found at referred ⊢
    generalize readReference? rest' = found' at referred ⊢
    cases referred with
    | none => exact .some ⟨rfl, behind⟩
    | some alike => exact .some ⟨by rw [alike.1], alike.2⟩
  · have plain := readPlain?_relaid relaid
    rw [readPiece?_of_ne noSingle noDouble noDollar, readPiece?_of_ne noSingle' noDouble' noDollar']
    generalize readPlain? text = found at plain ⊢
    generalize readPlain? text' = found' at plain ⊢
    cases plain with
    | none => exact .none
    | some alike => exact .some ⟨by simp only [alike.1], alike.2⟩

theorem readPieces_relaid {text text' : List Char} (relaid : Relaid text text') :
    Alike (readPieces text) (readPieces text') := by
  fun_induction readPieces text generalizing text' with
  | case1 text refused =>
      have piece := readPiece?_relaid relaid
      rw [refused] at piece
      cases refused' : readPiece? text' with
      | none =>
          rw [readPieces_of_none refused']
          exact ⟨rfl, relaid⟩
      | some found => simp [refused'] at piece
  | case2 text piece rest found inductionHypothesis =>
      have related := readPiece?_relaid relaid
      rw [found] at related
      cases found' : readPiece? text' with
      | none => simp [found'] at related
      | some pair =>
          obtain ⟨piece', rest'⟩ := pair
          rw [found', Option.rel_some_some] at related
          obtain ⟨rfl, behind⟩ : piece = piece' ∧ Relaid rest rest' := related
          obtain ⟨same, left⟩ := inductionHypothesis behind
          rw [readPieces_of_some found']
          exact ⟨by rw [same], left⟩

theorem readWords_facing {text text' : List Char} (facing : Facing text text') :
    (readWords text).1 = (readWords text').1 ∧ Facing (readWords text).2 (readWords text').2 := by
  fun_induction readWords text generalizing text' with
  | case1 text refused =>
      have piece := readPiece?_relaid facing.relaid
      rw [refused] at piece
      cases refused' : readPiece? text' with
      | none =>
          rw [readWords_of_none refused']
          exact ⟨rfl, facing⟩
      | some found => simp [refused'] at piece
  | case2 text piece found words more =>
      rename_i inductionHypothesis
      have related := readPiece?_relaid facing.relaid
      rw [found] at related
      have starts : readPiece? text' ≠ none := by
        intro refused
        simp [refused] at related
      obtain ⟨same, behind⟩ := readPieces_relaid facing.relaid
      obtain ⟨sameMore, left⟩ := inductionHypothesis (skipFiller_facing behind)
      rw [readWords_of_some starts]
      exact ⟨by rw [← same, ← sameMore], left⟩

/-! Parts of statements. -/

/-- The same was found and what is left corresponds, or both readings are stuck. -/
inductive Reading.Alike {α : Type} : Reading α → Reading α → Prop where
  | found (value : α) {rest rest' : List Char} :
      Facing rest rest' → Reading.Alike (.found value rest) (.found value rest')
  | stuck (stop stop' : List Char) : Reading.Alike (.stuck stop) (.stuck stop')

theorem Reading.Alike.bind {α β : Type} {reading reading' : Reading α}
    {next next' : α → List Char → Reading β} (alike : reading.Alike reading')
    (goesOn : ∀ value rest rest', Facing rest rest' → (next value rest).Alike (next' value rest')) :
    (reading.bind next).Alike (reading'.bind next') := by
  cases alike with
  | found value facing => exact goesOn value _ _ facing
  | stuck stop stop' => exact .stuck stop stop'

theorem isEnd_of_isBreak (c : Char) (breaks : isBreak c = true) : isEnd c = true := by
  simp [isEnd, breaks]

theorem readSeparator_alike {text text' : List Char} (facing : Facing text text') :
    (readSeparator text).Alike (readSeparator text') := by
  have behind := skipOver_facing isEnd_of_isBreak facing.relaid
  cases facing with
  | nil => exact .stuck [] []
  | @token c rest rest' ordinary noTab relaid =>
      by_cases ends : isEnd c = true
      · rw [readSeparator_of_isEnd ends, readSeparator_of_isEnd ends]
        exact .found () behind
      · simp only [readSeparator, if_neg ends]
        exact .stuck _ _
  | newline newline relaid =>
      obtain ⟨c, rest, rfl, breaks⟩ := newline.head
      rw [List.cons_append] at behind ⊢
      rw [readSeparator_of_isEnd rfl, readSeparator_of_isEnd (isEnd_of_isBreak c breaks)]
      exact .found () behind

theorem readEnd_alike {text text' : List Char} (facing : Facing text text') :
    (readEnd text).Alike (readEnd text') := by
  have behind := skipOver_facing isEnd_of_isBreak facing.relaid
  cases facing with
  | nil => exact .found false .nil
  | @token c rest rest' ordinary noTab relaid =>
      by_cases ends : isEnd c = true
      · rw [readEnd_of_isEnd ends, readEnd_of_isEnd ends]
        exact .found false behind
      · by_cases mark : c = '&'
        · subst mark
          exact .found true (skipOver_facing isEnd_of_isBreak relaid)
        · simp only [readEnd, if_neg ends]
          exact .stuck _ _
  | newline newline relaid =>
      obtain ⟨c, rest, rfl, breaks⟩ := newline.head
      rw [List.cons_append] at behind ⊢
      rw [readEnd_of_isEnd rfl, readEnd_of_isEnd (isEnd_of_isBreak c breaks)]
      exact .found false behind

theorem readKeyword_alike (keyword : Keyword) {text text' : List Char}
    (facing : Facing text text') :
    (readKeyword keyword text).Alike (readKeyword keyword text') := by
  obtain ⟨same, behind⟩ := firstWord_relaid facing.relaid
  unfold readKeyword
  rw [same]
  split
  · exact .found () (skipFiller_facing behind)
  · exact .stuck text text'

theorem startsProgram_relaid {text text' : List Char} (relaid : Relaid text text') :
    startsProgram text' = startsProgram text := by
  have piece := readPiece?_relaid relaid
  simp only [startsProgram, reservedAt?_relaid relaid]
  generalize readPiece? text = found at piece ⊢
  generalize readPiece? text' = found' at piece ⊢
  cases piece <;> rfl

theorem readPipeline_alike {text text' : List Char} (facing : Facing text text') :
    (readPipeline text).Alike (readPipeline text') := by
  fun_induction readPipeline text generalizing text' with
  | case1 text starts more bar inductionHypothesis =>
      obtain ⟨same, behind⟩ := readWords_facing facing
      have starts' : startsProgram text' = true := by rwa [startsProgram_relaid facing.relaid]
      rw [bar] at behind
      rw [readPipeline_of_starts starts', ← same]
      generalize (readWords text').2 = left at behind ⊢
      cases behind with
      | token _ _ relaid =>
          refine (inductionHypothesis (skipOver_facing (fun _ => id) relaid)).bind ?_
          intro programs rest rest' facing
          exact .found _ facing
  | case2 text starts noBar =>
      obtain ⟨same, behind⟩ := readWords_facing facing
      have single : readLinks (readWords text').2 = .found [] (readWords text').2 := by
        refine readLinks_of_ne ?_
        rcases behind.relaid.head_eq_or (d := '|') rfl with ⟨rest, rest', bar, _⟩ | ⟨_, other⟩
        · exact absurd bar (noBar rest)
        · exact other
      rw [readPipeline_of_starts (by rwa [startsProgram_relaid facing.relaid]), ← same, single]
      exact .found _ behind
  | case3 text idle =>
      rw [readPipeline_of_not_starts (by simpa [startsProgram_relaid facing.relaid] using idle)]
      exact .stuck text text'

theorem readTest_alike {text text' : List Char} (facing : Facing text text') :
    (readTest text).Alike (readTest text') := by
  refine (readPipeline_alike facing).bind ?_
  intro test rest rest' facing
  refine (readSeparator_alike facing).bind ?_
  intro _ rest rest' facing
  refine (readKeyword_alike .thenWord facing).bind ?_
  intro _ rest rest' facing
  exact .found test (skipOver_facing isEnd_of_isBreak facing.relaid)

theorem readParallel_alike {text text' : List Char} (facing : Facing text text') :
    (readParallel text).Alike (readParallel text') := by
  obtain ⟨same, behind⟩ := firstWord_relaid facing.relaid
  unfold readParallel
  rw [same]
  split
  · exact .found true (skipFiller_facing behind)
  · exact .found false facing

theorem readHead_alike {text text' : List Char} (facing : Facing text text') :
    (readHead text).Alike (readHead text') := by
  have named := readName?_relaid facing.relaid
  unfold readHead
  generalize readName? text = found at named ⊢
  generalize readName? text' = found' at named ⊢
  cases named with
  | none => exact .stuck text text'
  | @some found found' alike =>
      obtain ⟨name, left⟩ := found
      obtain ⟨name', left'⟩ := found'
      obtain ⟨rfl, behind⟩ : name = name' ∧ Relaid left left' := alike
      refine (readKeyword_alike .inWord (skipFiller_facing behind)).bind ?_
      intro _ rest rest' facing
      obtain ⟨same, behind⟩ := readWords_facing facing
      rw [same]
      refine (readSeparator_alike behind).bind ?_
      intro _ rest rest' facing
      refine (readParallel_alike facing).bind ?_
      intro parallel rest rest' facing
      refine (readKeyword_alike .doWord facing).bind ?_
      intro _ rest rest' facing
      exact .found _ (skipOver_facing isEnd_of_isBreak facing.relaid)

theorem readAssigned?_relaid {text text' : List Char} (relaid : Relaid text text') :
    Option.Rel Alike (readAssigned? text) (readAssigned? text') := by
  have named := readName?_relaid relaid
  unfold readAssigned?
  generalize readName? text = found at named ⊢
  generalize readName? text' = found' at named ⊢
  cases named with
  | none => exact .none
  | @some found found' alike =>
      obtain ⟨name, left⟩ := found
      obtain ⟨name', left'⟩ := found'
      obtain ⟨rfl, behind⟩ : name = name' ∧ Relaid left left' := alike
      rcases behind.head_eq_or (d := '=') rfl with
          ⟨value, value', rfl, rfl, assigned⟩ | ⟨other, other'⟩
      · exact .some ⟨rfl, assigned⟩
      · split
        · simp_all
        · split
          · simp_all
          · exact .none

theorem readSimple_alike {text text' : List Char} (facing : Facing text text') :
    (readSimple text).Alike (readSimple text') := by
  have assigned := readAssigned?_relaid facing.relaid
  unfold readSimple
  generalize readAssigned? text = found at assigned ⊢
  generalize readAssigned? text' = found' at assigned ⊢
  cases assigned with
  | none =>
      refine (readPipeline_alike facing).bind ?_
      intro stages rest rest' facing
      exact .found _ facing
  | @some found found' alike =>
      obtain ⟨name, value⟩ := found
      obtain ⟨name', value'⟩ := found'
      obtain ⟨rfl, behind⟩ : name = name' ∧ Relaid value value' := alike
      obtain ⟨same, left⟩ := readPieces_relaid behind
      simp only [same]
      exact .found _ (skipFiller_facing left)

/-! Steps of the machine, and whole runs. -/

theorem readRest_alike (state : State) (command : Command) {text text' : List Char}
    (facing : Facing text text') :
    (readRest state command text).Alike (readRest state command text') := by
  refine (readEnd_alike facing).bind ?_
  intro background rest rest' facing
  exact .found _ facing

theorem readReserved_alike (state : State) (keyword : Keyword) {text text' : List Char}
    (facing : Facing text text') :
    (readReserved state keyword text).Alike (readReserved state keyword text') := by
  have behind := skipFiller_facing (firstWord_relaid facing.relaid).2
  unfold readReserved
  dsimp only
  split
  · refine (readTest_alike behind).bind ?_
    intro test rest rest' facing
    exact .found _ facing
  · refine (readHead_alike behind).bind ?_
    intro head rest rest' facing
    exact .found _ facing
  · refine (readTest_alike behind).bind ?_
    intro test rest rest' facing
    exact .found _ facing
  · exact .found _ (skipOver_facing isEnd_of_isBreak behind.relaid)
  · unfold readClosing
    split
    · exact readRest_alike _ _ behind
    · exact .stuck text text'

theorem step_alike (state : State) {text text' : List Char} (facing : Facing text text') :
    (step state text).Alike (step state text') := by
  unfold step
  rw [reservedAt?_relaid facing.relaid]
  split
  · exact readReserved_alike state _ facing
  · refine (readSimple_alike facing).bind ?_
    intro command rest rest' facing
    exact readRest_alike state command facing

theorem run_facing (state : State) {text text' : List Char} (facing : Facing text text')
    (script : Script) :
    run state text' = .ok script ↔ run state text = .ok script := by
  fun_induction run state text generalizing text' with
  | case1 state text finished =>
      obtain ⟨rfl, outside⟩ := finished
      cases facing
      rw [run_nil outside]
  | case2 state text going next rest stepped inductionHypothesis =>
      have alike := step_alike state facing
      rw [stepped] at alike
      rw [run_eq (facing.going going)]
      generalize step state text' = reading at alike ⊢
      cases alike with
      | found _ facing => exact inductionHypothesis facing
  | case3 state text going stop stepped =>
      have alike := step_alike state facing
      rw [stepped] at alike
      rw [run_eq (facing.going going)]
      generalize step state text' = reading at alike ⊢
      cases alike
      simp [resume]

theorem read_relaid {text text' : List Char} (relaid : Relaid text text') (script : Script) :
    read text' = .ok script ↔ read text = .ok script :=
  run_facing .start (skipOver_facing isEnd_of_isBreak relaid) script

end Reader

open Reader

/-- Two texts that differ in their layout only are the same script, or neither is one. -/
theorem Script.parse_relaid {source source' : String}
    (relaid : Relaid source.toList source'.toList) :
    (∀ script, Script.parse source' = .ok script ↔ Script.parse source = .ok script) ∧
      ((∃ error, Script.parse source' = .error error) ↔
        ∃ error, Script.parse source = .error error) := by
  have same : ∀ script, Script.parse source' = .ok script ↔ Script.parse source = .ok script := by
    intro script
    rw [Script.parse, Script.parse, parseChars_eq_ok, parseChars_eq_ok]
    exact read_relaid relaid script
  refine ⟨same, ?_⟩
  cases parsed : Script.parse source with
  | ok script => simp [(same script).mpr parsed]
  | error error =>
      cases parsed' : Script.parse source' with
      | ok script => simp [(same script).mp parsed'] at parsed
      | error error' => simp

/-- Between the words of the second text stand a tab, a line that goes on, a comment and both line
breaks. -/
theorem Script.parse_relaid_conditional :
    Relaid "if a\nthen b c\nfi".toList "if\ta \t# x\r\nthen b \\\n  c\nfi".toList ∧
    Script.parse "if\ta \t# x\r\nthen b \\\n  c\nfi" =
      .ok [.mk (.conditional
        [.mk [[.literal "a"]] [.mk (.pipeline [[.literal "b", .literal "c"]]) false]] none)
        false] := by
  have relaid : Relaid "if a\nthen b c\nfi".toList "if\ta \t# x\r\nthen b \\\n  c\nfi".toList := by
    refine .keep rfl <| .keep rfl <| @Relaid.space ['\t'] _ _ (.tab .none) <| .keep rfl ?_
    refine @Relaid.newline [' ', '\t', '#', ' ', 'x'] ['\r', '\n'] _ _
      (@Trailing.comment [' ', '\t'] _ (.space (.tab .none)) (by simp [isBreak])) .returnFeed ?_
    refine .keep rfl <| .keep rfl <| .keep rfl <| .keep rfl <|
      @Relaid.space [' '] _ _ (.space .none) ?_
    refine .keep rfl <| @Relaid.space [' ', '\\', '\n', ' ', ' '] _ _
      (.space (@Blanks.continuation ['\n'] _ .feed (.space (.space .none)))) <| .keep rfl ?_
    exact @Relaid.newline [] ['\n'] _ _ .none .feed <| .keep rfl <| .keep rfl .nil
  exact ⟨relaid, ((Script.parse_relaid relaid).1 _).mpr (by with_unfolding_all rfl)⟩

end CommandShell
