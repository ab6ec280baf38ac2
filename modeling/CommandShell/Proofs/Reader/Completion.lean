import CommandShell.Proofs.Script.Printer
import CommandShell.Proofs.Reader.Unfinished

/-!
Texts at whose end the machine waits for something can be completed. What is missing is added behind
the last word: a word or a keyword where one is due, and then the words that close what is open. The
only texts that cannot be completed end in a comment where no line break may follow.
-/

namespace CommandShell.Reader

variable {source text more : List Char} {α β : Type}

/-- What is to be said of a part that is stuck at the end of the text. Something can be put behind
the text with which the part is found; or a comment takes in what follows on the same line, and the
line break that ends the comment is refused. -/
inductive Pending (source : List Char) (part : List Char → Reading α) (text : List Char) :
    Prop where
  | completes (added : List Char → List Char) (value : α)
      (parted : ∀ more, Parted (added more)) (meets : ∀ more, Meets source (added more) text)
      (found : ∀ more, Cleared more → part (joined (added more) text) = .found value more)
  | swallows (solid : Solid text)
      (stuck : ∀ more, Parted more → part (joined more text) = .stuck (dropLine more))

namespace Pending

variable {part : List Char → Reading α}

theorem of_newline (added : List Char → List Char) (value : α)
    (found : ∀ more, Cleared more →
      part (joined (' ' :: '\n' :: added more) text) = .found value more) :
    Pending source part text :=
  .completes (fun more => ' ' :: '\n' :: added more) value (fun _ => parted_space _)
    (fun _ => Or.inl (apart_newline _ _)) found

theorem of_filler (next : List Char → Reading α) {rest : List Char} (solid : Solid text)
    (ended : skipFiller rest = [])
    (reads : ∀ more, Parted more → part (joined more text) = next (skipFiller (rest ++ more)))
    (added : List Char → List Char) (value : α)
    (found : ∀ more, Cleared more → next (skipFiller (added more)) = .found value more)
    (refused : ∀ more, next (dropLine more) = .stuck (dropLine more)) :
    Pending source part text := by
  rcases skipFiller_eq_nil ended with blank | comment
  · refine .completes (fun more => ' ' :: added more) value (fun _ => parted_space _)
      (fun _ => Or.inr solid) fun more cleared => ?_
    rw [reads _ (parted_space _), skipFiller_append_space blank, found more cleared]
  · exact .swallows solid fun more parted => by rw [reads more parted, comment, refused]

theorem congr {next : List Char → Reading α} {rest : List Char} (pending : Pending source next rest)
    (suffix : rest <:+ text)
    (moves : ∀ more, Parted more → Meets source more rest →
      part (joined more text) = next (joined more rest)) : Pending source part text := by
  cases pending with
  | completes added value parted meets found =>
      refine .completes added value parted (fun more => (meets more).of_suffix suffix) ?_
      intro more cleared
      rw [moves _ (parted more) (meets more), found more cleared]
  | swallows solid stuck =>
      refine .swallows (solid.of_suffix suffix) fun more parted => ?_
      rw [moves more parted (Or.inr solid), stuck more parted]

theorem bind {words : Bool} {place : List Char → List Char → List Char}
    (next : α → List Char → Reading β) {value : α} {rest : List Char}
    (pending : Pending source (next value) rest) (follows : Follows source words place part text)
    (found : part text = .found value rest) (suffix : rest <:+ text)
    (unquoted : words = true → atQuote rest = false)
    (moves : ∀ more, next value (place more rest) = next value (joined more rest)) :
    Pending source (fun text => (part text).bind next) text :=
  pending.congr suffix fun more parted meets => by
    simp only [follows.of_found parted meets found unquoted, Reading.found_bind, moves]

theorem map (pending : Pending source part text) (make : α → β) :
    Pending source (fun text => (part text).bind fun value rest => .found (make value) rest)
      text := by
  cases pending with
  | completes added value parted meets found =>
      exact .completes added (make value) parted meets fun more cleared => by
        simp only [found more cleared, Reading.found_bind]
  | swallows solid stuck =>
      exact .swallows solid fun more parted => by
        simp only [stuck more parted, Reading.stuck_bind]

end Pending

/-! Behind a comment nothing is found where no line break may stand. -/

theorem firstWord_dropLine (text : List Char) : firstWord (dropLine text) = [] := by
  rcases dropLine_eq text with ended | ⟨c, rest, broken, breaks⟩
  · rw [ended]
    rfl
  · rw [broken]
    simp [firstWord, isBoundary, isEnd, breaks]

theorem readKeyword_dropLine (keyword : Keyword) (text : List Char) :
    readKeyword keyword (dropLine text) = .stuck (dropLine text) := by
  rw [readKeyword, firstWord_dropLine, if_neg keyword.letters_ne_nil.symm]

theorem startsProgram_of_isBreak {c : Char} (breaks : isBreak c = true) (rest : List Char) :
    startsProgram (c :: rest) = false := by
  simp only [isBreak, Bool.or_eq_true, beq_iff_eq] at breaks
  rcases breaks with rfl | rfl <;> rfl

theorem startsProgram_dropLine (text : List Char) : startsProgram (dropLine text) = false := by
  rcases dropLine_eq text with ended | ⟨c, rest, broken, breaks⟩
  · rw [ended]
    rfl
  · rw [broken]
    exact startsProgram_of_isBreak breaks rest

theorem readTest_dropLine (text : List Char) :
    readTest (dropLine text) = .stuck (dropLine text) := by
  rw [readTest, readPipeline_of_not_starts (startsProgram_dropLine text), Reading.stuck_bind]

theorem readHead_dropLine (text : List Char) :
    readHead (dropLine text) = .stuck (dropLine text) := by
  refine readHead_of_none ?_
  rcases dropLine_eq text with ended | ⟨c, rest, broken, breaks⟩
  · rw [ended]
    rfl
  · simp only [isBreak, Bool.or_eq_true, beq_iff_eq] at breaks
    rw [broken]
    rcases breaks with rfl | rfl <;> rfl

/-! What is added where a part is unfinished. -/

/-- A pipeline to put where one is due. -/
def spare : Pipeline := [[.literal ""]]

theorem spare_wellFormed : spare.wellFormed = true := by decide

theorem skipOver_space_newline {accepts : Char → Bool} (newline : accepts '\n' = true)
    (more : List Char) :
    skipOver accepts (' ' :: '\n' :: more) = skipOver accepts more := by
  rw [← skipOver_skipFiller, skipFiller_space, skipOver_skipFiller,
    skipOver_cons (skipFiller_of_isBreak rfl more) newline]

theorem skipOver_spare {accepts : Char → Bool} (ends : ∀ c, accepts c = true → isEnd c = true)
    (more : List Char) : skipOver accepts (spare.print ++ more) = spare.print ++ more :=
  (opens_printPipeline spare_wellFormed more).skipOver_eq ends

theorem readPipeline_completes (nonempty : text ≠ []) (stuck : readPipeline text = .stuck []) :
    ∃ stages, ∀ more, readPipeline (text ++ ' ' :: '\n' :: (spare.print ++ ';' :: more)) =
      .found stages (';' :: more) := by
  fun_induction readPipeline text with
  | case1 text starts behind bar inductionHypothesis =>
      have grows : ∃ stages, ∀ more,
          readPipeline (settle isBreak (' ' :: '\n' :: (spare.print ++ ';' :: more))
            (skipOver isBreak behind)) = .found stages (';' :: more) := by
        by_cases ended : skipOver isBreak behind = []
        · refine ⟨spare, fun more => ?_⟩
          rw [ended, settle, if_pos rfl, skipOver_space_newline rfl,
            skipOver_spare (fun c breaks => by simp [isEnd, breaks])]
          exact readPipeline_print spare_wellFormed rfl more
        · simp only [settle_of_ne_nil isBreak ended]
          exact inductionHypothesis ended (Reading.eq_stuck_of_bind stuck)
      obtain ⟨stages, grows⟩ := grows
      refine ⟨(readWords text).1 :: stages, fun more => ?_⟩
      have parted := parted_space ('\n' :: (spare.print ++ ';' :: more))
      have words := readWords_joined parted (List.suffix_refl text) (Or.inl (apart_newline _ _))
        (by simp [bar, atQuote])
      rw [joined_of_ne_nil nonempty, bar, joined_of_ne_nil (by simp)] at words
      rw [readPipeline_of_starts (startsProgram_lengthen parted starts), words]
      simp only [List.cons_append, readLinks,
        skipOver_append (List.suffix_refl behind) (Or.inl (apart_newline _ _)), grows,
        Reading.found_bind]
  | case2 text starts noBar => simp at stuck
  | case3 text idle => exact absurd (Reading.stuck.inj stuck) nonempty

theorem readSeparator_cases {α : Type} {part : List Char → Reading α}
    (stuck : ((readSeparator text).bind fun _ rest => part rest) = .stuck []) :
    text = [] ∨ ∃ rest, readSeparator text = .found () rest ∧ part rest = .stuck [] := by
  rcases Reading.bind_eq_stuck.mp stuck with stopped | ⟨_, rest, found, stopped⟩
  · left
    unfold readSeparator at stopped
    split at stopped
    · rfl
    · split at stopped
      · simp at stopped
      · simp at stopped
  · exact Or.inr ⟨rest, found, stopped⟩

theorem readSeparator_newline (ended : text = [] ∨ readSeparator text = .found () [])
    (cleared : Cleared more) :
    readSeparator (joined (' ' :: '\n' :: more) text) = .found () more := by
  rcases ended with rfl | found
  · rw [joined_nil, skipFiller_space, skipFiller_of_isBreak rfl, readSeparator_of_isEnd rfl,
      skipOver_cons (skipFiller_of_isBreak rfl more) rfl, cleared]
  · rw [(readSeparator_follows (List.suffix_refl text)).of_found (parted_space _)
      (Or.inl (apart_newline _ _)) found (by simp), settle, if_pos rfl, skipOver_space_newline rfl,
        cleared]

theorem readSeparator_pending {part : List Char → Reading α} (inside : text <:+ source)
    {keyword : Keyword} {value : α}
    (keywordFound : ∀ more, Cleared more →
      part (keyword.letters ++ ';' :: more) = .found value more)
    (unfinished : ∀ rest, rest <:+ source → rest ≠ [] → part rest = .stuck [] →
      Pending source part rest)
    (stuck : ((readSeparator text).bind fun _ rest => part rest) = .stuck []) :
    Pending source (fun text => (readSeparator text).bind fun _ rest => part rest) text := by
  have added : (text = [] ∨ readSeparator text = .found () []) →
      Pending source (fun text => (readSeparator text).bind fun _ rest => part rest) text := by
    intro ended
    refine .of_newline (fun more => keyword.letters ++ ';' :: more) value fun more cleared => ?_
    rw [readSeparator_newline ended (cleared_letters _ _), Reading.found_bind,
      keywordFound more cleared]
  rcases readSeparator_cases stuck with empty | ⟨rest, found, stopped⟩
  · exact added (Or.inl empty)
  · by_cases ended : rest = []
    · exact added (Or.inr (by rw [found, ended]))
    · have suffix := endsIn_readSeparator text
      rw [found] at suffix
      exact (unfinished rest (List.IsSuffix.trans suffix inside) ended stopped).bind _
        (readSeparator_follows inside) found suffix (by simp)
        fun more => by rw [settle_of_ne_nil isEnd ended, joined_of_ne_nil ended]

theorem readKeyword_eq_stuck_nil {keyword : Keyword} :
    readKeyword keyword text = .stuck [] ↔ text = [] := by
  constructor
  · intro stuck
    unfold readKeyword at stuck
    split at stuck
    · simp at stuck
    · exact Reading.stuck.inj stuck
  · rintro rfl
    exact readKeyword_nil keyword

theorem readThen_letters (test : Pipeline) (cleared : Cleared more) :
    readThen test (Keyword.thenWord.letters ++ ';' :: more) = .found test more := by
  rw [readThen, readKeyword_letters .thenWord rfl, Reading.found_bind, skipOver_skipFiller,
    skipOver_semicolon cleared]

theorem readTest_pending (inside : text <:+ source) (nonempty : text ≠ [])
    (stuck : readTest text = .stuck []) : Pending source readTest text := by
  rw [readTest_eq] at stuck
  rcases Reading.bind_eq_stuck.mp stuck with stopped | ⟨test, rest, found, stopped⟩
  · obtain ⟨test, completes⟩ := readPipeline_completes nonempty stopped
    refine .of_newline
      (fun more => spare.print ++ ';' :: (Keyword.thenWord.letters ++ ';' :: more)) test ?_
    intro more cleared
    rw [joined_of_ne_nil nonempty, readTest_eq, completes, Reading.found_bind,
      readSeparator_semicolon (cleared_letters _ _), Reading.found_bind,
      readThen_letters test cleared]
  · have suffix := endsIn_readPipeline text
    rw [found] at suffix
    have behind : Pending source
        (fun rest => (readSeparator rest).bind fun _ rest => readThen test rest) rest := by
      refine readSeparator_pending (List.IsSuffix.trans suffix inside)
        (fun more => readThen_letters test) ?_ stopped
      intro rest _ ended stopped
      exact absurd (readKeyword_eq_stuck_nil.mp (Reading.eq_stuck_of_bind stopped)) ended
    exact behind.bind (fun test rest => (readSeparator rest).bind fun _ rest => readThen test rest)
      (readPipeline_follows inside) found suffix (fun _ => atQuote_of_readSeparator stopped)
      fun _ => rfl

/-- Only the mark of a parallel loop can stand in front of a word that is missing. -/
theorem readDo_pending {name : List Char} {values : List Word} (nonempty : text ≠ [])
    (stuck : readDo name values text = .stuck []) : Pending source (readDo name values) text := by
  unfold readDo readParallel at stuck
  split at stuck
  · next marked =>
      have solid : Solid text := by
        refine ⟨nonempty, ?_⟩
        rintro rfl
        simp [firstWord, isBoundary, isEnd, isBreak, Keyword.letters] at marked
      refine .of_filler (fun rest => (readKeyword .doWord rest).bind fun _ rest =>
          .found ⟨true, name, values⟩ (skipOver isEnd rest)) solid
        (readKeyword_eq_stuck_nil.mp (Reading.eq_stuck_of_bind stuck)) ?_
        (fun more => Keyword.doWord.letters ++ ';' :: more) ⟨true, name, values⟩ ?_ ?_
      · intro more parted
        rw [joined_of_ne_nil nonempty, readDo, readParallel, firstWord_append parted, if_pos marked,
          behindWord_append parted, Reading.found_bind]
      · intro more cleared
        rw [(cleared_letters _ _).trimmed, readKeyword_letters .doWord rfl, Reading.found_bind,
          skipOver_skipFiller, skipOver_semicolon cleared]
      · intro more
        rw [readKeyword_dropLine, Reading.stuck_bind]
  · exact absurd (readKeyword_eq_stuck_nil.mp (Reading.eq_stuck_of_bind stuck)) nonempty

theorem readDo_letters (name : List Char) (values : List Word) (cleared : Cleared more) :
    readDo name values (Keyword.doWord.letters ++ ';' :: more) =
      .found ⟨false, name, values⟩ more := by
  have unmarked : readParallel (Keyword.doWord.letters ++ ';' :: more) =
      .found false (Keyword.doWord.letters ++ ';' :: more) := readParallel_print false more
  rw [readDo, unmarked, Reading.found_bind, readKeyword_letters .doWord rfl,
    Reading.found_bind, skipOver_skipFiller, skipOver_semicolon cleared]

theorem readValues_pending {name : List Char} (inside : text <:+ source)
    (stuck : readValues name text = .stuck []) : Pending source (readValues name) text := by
  have unquoted := atQuote_of_readSeparator stuck
  have behind : Pending source (fun rest => (readSeparator rest).bind fun _ rest =>
      readDo name (readWords text).1 rest) (readWords text).2 :=
    readSeparator_pending ((suffix_readWords text).trans inside)
      (fun more => readDo_letters name _) (fun rest _ => readDo_pending) stuck
  refine behind.congr (suffix_readWords text) fun more parted meets => ?_
  rw [readValues, readWords_joined parted inside meets unquoted]

theorem readValues_semicolon (name : List Char) (cleared : Cleared more) :
    readValues name (';' :: (Keyword.doWord.letters ++ ';' :: more)) =
      .found ⟨false, name, []⟩ more := by
  rw [readValues, readWords_of_none (readPiece?_of_isMark rfl _),
    readSeparator_semicolon (cleared_letters _ _), Reading.found_bind,
    readDo_letters name [] cleared]

theorem readHead_pending (inside : text <:+ source) (nonempty : text ≠ [])
    (stuck : readHead text = .stuck []) : Pending source readHead text := by
  cases named : readName? text with
  | none =>
      rw [readHead_of_none named] at stuck
      exact absurd (Reading.stuck.inj stuck) nonempty
  | some pair =>
      obtain ⟨name, rest⟩ := pair
      have whole := eq_append_of_readName? named
      have within : rest <:+ source := by
        rw [whole] at inside
        exact (List.suffix_append _ _).trans inside
      have reads : ∀ more, Parted more → readHead (joined more text) =
          (readKeyword .inWord (skipFiller (rest ++ more))).bind fun _ => readValues name := by
        intro more parted
        have named' := readName?_lengthen parted text
        rw [named] at named'
        rw [joined_of_ne_nil nonempty, readHead_of_some named']
      rw [readHead_of_some named] at stuck
      rcases Reading.bind_eq_stuck.mp stuck with stopped | ⟨_, behind, found, stopped⟩
      · have solid : Solid text := by
          refine ⟨nonempty, ?_⟩
          rintro rfl
          simp [readName?, Rule.isNameStart] at named
        refine .of_filler (fun rest => (readKeyword .inWord rest).bind fun _ => readValues name)
          solid (readKeyword_eq_stuck_nil.mp stopped) reads (fun more => Keyword.inWord.letters ++
            ' ' :: ';' :: (Keyword.doWord.letters ++ ';' :: more))
          ⟨false, name, []⟩ ?_ ?_
        · intro more cleared
          rw [(cleared_letters _ _).trimmed, readKeyword_letters .inWord rfl, Reading.found_bind,
            skipFiller_space, skipFiller_of_isEnd rfl, readValues_semicolon name cleared]
        · intro more
          rw [readKeyword_dropLine, Reading.stuck_bind]
      · have suffix := endsIn_readKeyword .inWord (skipFiller rest)
        rw [found] at suffix
        have trimmed : skipFiller rest <:+ source := (suffix_skipFiller rest).trans within
        have values := readValues_pending (List.IsSuffix.trans suffix trimmed) stopped
        have behind := values.bind (fun _ => readValues name) (readKeyword_follows .inWord trimmed)
          found suffix (by simp) fun _ => rfl
        have reaches : skipFiller rest <:+ text := by
          rw [whole]
          exact (suffix_skipFiller rest).trans (List.suffix_append _ _)
        refine behind.congr reaches fun more parted meets => ?_
        rw [reads more parted, skipFiller_append within meets]

/-! What closes the compound statements that are open. -/

/-- The word that closes a compound statement. -/
def Frame.closer : Frame → Keyword
  | .guarded _ _ => .fiWord
  | .fallback _ => .fiWord
  | .loop _ => .doneWord

def closing (stack : List (Frame × List Statement)) : List Char :=
  stack.flatMap fun entry => entry.1.closer.letters ++ [';']

theorem cleared_closing (stack : List (Frame × List Statement)) : Cleared (closing stack) := by
  cases stack with
  | nil => exact skipOver_nil
  | cons entry stack =>
      rw [closing, List.flatMap_cons, List.append_assoc]
      exact cleared_letters _ _

theorem run_closing (state : State) : ∃ script, run state (closing state.stack) = .ok script := by
  obtain ⟨stack, current⟩ := state
  induction stack generalizing current with
  | nil => exact ⟨current, run_nil rfl⟩
  | cons entry stack inductionHypothesis =>
      obtain ⟨frame, before⟩ := entry
      obtain ⟨command, left⟩ : ∃ command,
          State.leave? frame.closer ⟨(frame, before) :: stack, current⟩ =
            some (command, ⟨stack, before⟩) := by
        cases frame <;> exact ⟨_, rfl⟩
      have closes : frame.closer = .fiWord ∨ frame.closer = .doneWord := by
        cases frame <;> simp [Frame.closer]
      have text : closing ((frame, before) :: stack) =
          frame.closer.letters ++ ';' :: closing stack := by
        simp [closing]
      obtain ⟨script, runs⟩ := inductionHypothesis (before ++ [.mk command false])
      refine ⟨script, ?_⟩
      rw [text, run_close closes left rfl, readRest, readEnd_of_isEnd rfl,
        skipOver_semicolon (cleared_closing stack)]
      exact runs

/-! Steps of the machine, and whole runs. -/

theorem behindWord_pending {part : List Char → Reading α} (inside : text <:+ source)
    {keyword : Keyword} (starts : firstWord text = keyword.letters)
    (unfinished : ∀ text, text <:+ source → text ≠ [] → part text = .stuck [] →
      Pending source part text)
    (added : List Char → List Char) (value : α)
    (missing : ∀ more, Cleared more → part (skipFiller (added more)) = .found value more)
    (refused : ∀ more, part (dropLine more) = .stuck (dropLine more))
    (stuck : part (skipFiller (behindWord text)) = .stuck []) :
    Pending source (fun text => part (skipFiller (behindWord text))) text := by
  have within : behindWord text <:+ source := (suffix_behindWord text).trans inside
  have solid : Solid text := by
    refine ⟨?_, ?_⟩
    · rintro rfl
      exact keyword.letters_ne_nil starts.symm
    · rintro rfl
      cases keyword <;> simp [firstWord, isBoundary, isEnd, isBreak, Keyword.letters] at starts
  have reads : ∀ more, Parted more → part (skipFiller (behindWord (joined more text))) =
      part (skipFiller (behindWord text ++ more)) := by
    intro more parted
    rw [joined_of_ne_nil solid.1, behindWord_append parted]
  by_cases ended : skipFiller (behindWord text) = []
  · exact .of_filler part solid ended reads added value missing refused
  · refine (unfinished _ ((suffix_skipFiller _).trans within) ended stuck).congr
      (suffix_skipFiller_behindWord text) fun more parted meets => ?_
    rw [reads more parted, skipFiller_append within meets]

theorem test_pending (inside : text <:+ source) {keyword : Keyword}
    (starts : firstWord text = keyword.letters)
    (stuck : readTest (skipFiller (behindWord text)) = .stuck []) :
    Pending source (fun text => readTest (skipFiller (behindWord text))) text := by
  refine behindWord_pending inside starts (fun text => readTest_pending)
    (fun more => spare.print ++ ';' :: (Keyword.thenWord.letters ++ ';' :: more)) spare ?_
    readTest_dropLine stuck
  intro more cleared
  have opens : Cleared (spare.print ++ ';' :: (Keyword.thenWord.letters ++ ';' :: more)) :=
    skipOver_spare (fun c ends => ends) _
  rw [opens.trimmed, readTest_print spare_wellFormed cleared]

theorem head_pending (inside : text <:+ source) {keyword : Keyword}
    (starts : firstWord text = keyword.letters)
    (stuck : readHead (skipFiller (behindWord text)) = .stuck []) :
    Pending source (fun text => readHead (skipFiller (behindWord text))) text := by
  have named : isName "x" = true := by decide
  refine behindWord_pending inside starts (fun text => readHead_pending)
    (fun more => 'x' :: ' ' :: (Keyword.inWord.letters ++
      ' ' :: ';' :: (Keyword.doWord.letters ++ ';' :: more)))
    ⟨false, ['x'], []⟩ ?_ readHead_dropLine stuck
  intro more cleared
  have head := @readHead_print "x" named [] rfl false more cleared
  rw [skipFiller_of_isSolid rfl]
  simpa [printWords] using head

theorem readReserved_pending {state : State} {keyword : Keyword} (inside : text <:+ source)
    (nonempty : text ≠ []) (starts : firstWord text = keyword.letters)
    (stuck : readReserved state keyword text = .stuck []) :
    Pending source (readReserved state keyword) text := by
  unfold readReserved at stuck ⊢
  split at stuck
  · exact (test_pending inside starts (Reading.eq_stuck_of_bind stuck)).map _
  · exact (head_pending inside starts (Reading.eq_stuck_of_bind stuck)).map _
  · exact (test_pending inside starts (Reading.eq_stuck_of_bind stuck)).map _
  · simp at stuck
  · unfold readClosing at stuck
    split at stuck
    · exact absurd stuck (readRest_ne_stuck _ _ _)
    · exact absurd (Reading.stuck.inj stuck) nonempty

theorem step_pending {state : State} (inside : text <:+ source) (nonempty : text ≠ [])
    (stuck : step state text = .stuck []) : Pending source (step state) text := by
  unfold step at stuck
  split at stuck
  · next keyword reserved =>
      refine (readReserved_pending inside nonempty (Keyword.reservedAt?_eq_some.mp reserved).2
        stuck).congr (List.suffix_refl text) fun more parted _ => ?_
      rw [step, joined_of_ne_nil nonempty, reservedAt?_append parted, reserved]
  · next free =>
      rcases Reading.bind_eq_stuck.mp stuck with stopped | ⟨command, rest, _, stopped⟩
      · -- Only a pipeline can be unfinished: an assignment may end anywhere.
        unfold readSimple at stopped
        split at stopped
        · simp at stopped
        · next unassigned =>
            obtain ⟨stages, completes⟩ := readPipeline_completes nonempty
              (Reading.eq_stuck_of_bind stopped)
            refine .of_newline (fun more => spare.print ++ ';' :: more)
              (state.extend [.mk (.pipeline stages) false]) fun more cleared => ?_
            rw [joined_of_ne_nil nonempty, step, reservedAt?_append (parted_space _), free]
            simp only [readSimple, readAssigned?_lengthen (parted_space _), unassigned,
              Option.map_none, completes, Reading.found_bind, readRest,
              readEnd_of_isEnd (c := ';') rfl, skipOver_semicolon cleared]
      · exact absurd stopped (readRest_ne_stuck _ _ _)

/-- A run that ends where something is still open goes through to the end once that is added, or
ends in a comment that takes in whatever is added in the same line. -/
theorem run_completes {state : State} (inside : text <:+ source)
    (fails : run state text = .error []) :
    (∃ more, Parted more ∧ Meets source more text ∧
      ∃ script, run state (settle isEnd more text) = .ok script) ∨
    Solid text ∧ ∀ more, Parted more →
      run state (settle isEnd more text) = .error (dropLine more) := by
  fun_induction run state text with
  | case1 state text finished => simp at fails
  | case2 state text going next rest stepped inductionHypothesis =>
      have ends := endsIn_step state text
      rw [stepped] at ends
      refine (inductionHypothesis (List.IsSuffix.trans ends inside) fails).imp ?_ ?_
      · rintro ⟨more, parted, meets, script, runs⟩
        refine ⟨more, parted, meets.of_suffix ends, script, ?_⟩
        rw [run_append_of_found parted inside stepped meets, runs]
      · rintro ⟨solid, stuck⟩
        refine ⟨solid.of_suffix ends, fun more parted => ?_⟩
        rw [run_append_of_found parted inside stepped (Or.inr solid), stuck more parted]
  | case3 state text going stop stepped =>
      obtain rfl := Except.error.inj fails
      by_cases empty : text = []
      · obtain ⟨script, runs⟩ := run_closing state
        refine Or.inl ⟨' ' :: '\n' :: closing state.stack, parted_space _,
          Or.inl (apart_newline _ _), script, ?_⟩
        rw [settle, if_pos empty, skipOver_space_newline rfl, cleared_closing, runs]
      · have goesOn : ∀ more,
            run state (settle isEnd more text) = resume (step state (joined more text)) := by
          intro more
          rw [settle_of_ne_nil isEnd empty, joined_of_ne_nil empty,
            run_eq (Or.inl (by simp [empty]))]
        cases step_pending inside empty stepped with
        | completes added next parted meets found =>
            obtain ⟨script, runs⟩ := run_closing next
            refine Or.inl ⟨added (closing next.stack), parted _, meets _, script, ?_⟩
            rw [goesOn, found _ (cleared_closing _)]
            exact runs
        | swallows solid stuck =>
            refine Or.inr ⟨solid, fun more parted => ?_⟩
            rw [goesOn, stuck more parted]
            rfl

theorem read_completes (fails : read text = .error []) :
    (∃ more, Parted more ∧ ∃ script, read (text ++ more) = .ok script) ∨
    ∀ more, Parted more → read (text ++ more) = .error (dropLine more) := by
  have skipped : ∀ {more}, Meets text more (skipOver isEnd text) →
      read (text ++ more) = run .start (settle isEnd more (skipOver isEnd text)) := by
    intro more meets
    rw [read, skipOver_append (List.suffix_refl text) meets]
  refine (run_completes (suffix_skipOver text) fails).imp ?_ ?_
  · rintro ⟨more, parted, meets, script, runs⟩
    exact ⟨more, parted, script, by rw [skipped meets, runs]⟩
  · rintro ⟨solid, stuck⟩ more parted
    rw [skipped (Or.inr solid), stuck more parted]

end CommandShell.Reader
