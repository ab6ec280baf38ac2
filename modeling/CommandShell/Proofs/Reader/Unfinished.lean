import CommandShell.Proofs.Reader.Continuation

/-!
Texts at whose end the machine still waits for something. A line break alone is never what it waits
for: with one more it is stuck at the end again, or at the line break.
-/

namespace CommandShell.Reader

/-- Whether reading got stuck where there is nothing but a line break left. -/
def Reading.Waits {α : Type} : Reading α → Prop
  | .found _ _ => False
  | .stuck stop => stop <:+ ['\n']

namespace Reading.Waits

variable {α β : Type} {text : List Char}

theorem bind {reading : Reading α} (waits : reading.Waits) (next : α → List Char → Reading β) :
    (reading.bind next).Waits := by
  cases reading with
  | found value rest => exact waits.elim
  | stuck stop => exact waits

theorem of_nil : (Reading.stuck [] : Reading α).Waits := List.nil_suffix

theorem of_settle (part : List Char → Reading α) (blank : part [] = .stuck [])
    (accepts : Char → Bool) (accepted : accepts '\n' = true)
    (waits : text ≠ [] → (part (text ++ ['\n'])).Waits) :
    (part (settle accepts ['\n'] text)).Waits := by
  by_cases empty : text = []
  · rw [settle, if_pos empty, skipOver_cons (skipFiller_of_isBreak rfl []) accepted, skipOver_nil,
      blank]
    exact of_nil
  · rw [settle_of_ne_nil accepts empty]
    exact waits empty

end Reading.Waits

variable {text : List Char}

theorem parted : Parted ['\n'] := parted_newline []

theorem Sealed.meets (whole : Sealed text) (rest : List Char) : Meets text ['\n'] rest :=
  Or.inl (whole.apart [])

/-- A part that is found in the text is found in front of a line break too. -/
theorem Follows.of_sealed {α : Type} {words : Bool} {place : List Char → List Char → List Char}
    {part : List Char → Reading α} {value : α} {rest : List Char}
    (follows : Follows text words place part text) (whole : Sealed text)
    (found : part text = .found value rest) (unquoted : words = true → atQuote rest = false) :
    part (text ++ ['\n']) = .found value (place ['\n'] rest) := by
  rw [← joined_newline text [], follows.of_found parted (whole.meets _) found unquoted]

theorem Sealed.skipFiller_append (whole : Sealed text) :
    skipFiller (text ++ ['\n']) = skipFiller text ++ ['\n'] := by
  rw [Reader.skipFiller_append (List.suffix_refl text) (whole.meets _), joined_newline]

theorem Sealed.readWords_append (whole : Sealed text)
    (unquoted : atQuote (readWords text).2 = false) :
    readWords (text ++ ['\n']) = ((readWords text).1, (readWords text).2 ++ ['\n']) := by
  rw [← joined_newline text [], ← joined_newline _ [],
    readWords_joined parted (List.suffix_refl text) (whole.meets _) unquoted]

theorem readPipeline_waits (whole : Sealed text) (stuck : readPipeline text = .stuck []) :
    (readPipeline (text ++ ['\n'])).Waits := by
  fun_induction readPipeline text with
  | case1 text starts behind bar inductionHypothesis =>
      have words := whole.readWords_append (by simp [bar, atQuote])
      have inside : Sealed behind := by
        have suffix := suffix_readWords text
        rw [bar] at suffix
        exact whole.of_suffix ((List.suffix_cons _ _).trans suffix)
      have waits : (readPipeline (settle isBreak ['\n'] (skipOver isBreak behind))).Waits := by
        refine .of_settle _ readPipeline_nil isBreak rfl fun _ => ?_
        exact inductionHypothesis (inside.of_suffix (suffix_skipOver behind))
          (Reading.eq_stuck_of_bind stuck)
      rw [readPipeline_of_starts (startsProgram_lengthen parted starts), words]
      simp only [bar, List.cons_append, readLinks,
        skipOver_append (List.suffix_refl behind) (inside.meets _)]
      exact waits.bind _
  | case2 text starts noBar => simp at stuck
  | case3 text idle =>
      obtain rfl := Reading.stuck.inj stuck
      rw [List.nil_append, readPipeline_of_not_starts rfl]
      exact List.suffix_refl _

theorem readKeyword_waits {keyword : Keyword} (stuck : readKeyword keyword text = .stuck []) :
    (readKeyword keyword (text ++ ['\n'])).Waits := by
  unfold readKeyword at stuck
  split at stuck
  · simp at stuck
  · obtain rfl := Reading.stuck.inj stuck
    have absent : firstWord ['\n'] ≠ keyword.letters := fun same => keyword.letters_ne_nil same.symm
    rw [List.nil_append, readKeyword, if_neg absent]
    exact List.suffix_refl _

theorem readSeparator_waits {α : Type} (whole : Sealed text) {next : Unit → List Char → Reading α}
    (blank : next () [] = .stuck [])
    (waits : ∀ rest, Sealed rest → next () rest = .stuck [] → (next () (rest ++ ['\n'])).Waits)
    (stuck : (readSeparator text).bind next = .stuck []) :
    ((readSeparator (text ++ ['\n'])).bind next).Waits := by
  rcases Reading.bind_eq_stuck.mp stuck with stopped | ⟨_, rest, found, stopped⟩
  · have empty : text = [] := by
      unfold readSeparator at stopped
      split at stopped
      · rfl
      · split at stopped
        · simp at stopped
        · simp at stopped
    have ends : isEnd '\n' = true := by rfl
    rw [empty, List.nil_append, readSeparator, if_pos ends, skipOver_nil, Reading.found_bind, blank]
    exact .of_nil
  · have suffix := endsIn_readSeparator text
    rw [found] at suffix
    rw [(readSeparator_follows (List.suffix_refl text)).of_sealed whole found (by simp),
      Reading.found_bind]
    exact .of_settle (next ()) blank isEnd rfl fun _ => waits rest (whole.of_suffix suffix) stopped

theorem atQuote_of_readSeparator {α : Type} {next : Unit → List Char → Reading α}
    (stuck : (readSeparator text).bind next = .stuck []) : atQuote text = false := by
  cases quoted : atQuote text with
  | false => rfl
  | true =>
      rw [readSeparator_of_atQuote quoted] at stuck
      obtain rfl := Reading.stuck.inj stuck
      simp [atQuote] at quoted

theorem readTest_waits (whole : Sealed text) (stuck : readTest text = .stuck []) :
    (readTest (text ++ ['\n'])).Waits := by
  rcases Reading.bind_eq_stuck.mp stuck with stopped | ⟨test, rest, found, stopped⟩
  · exact (readPipeline_waits whole stopped).bind _
  · have suffix := endsIn_readPipeline text
    rw [found] at suffix
    rw [readTest, (readPipeline_follows (List.suffix_refl text)).of_sealed whole found
      fun _ => atQuote_of_readSeparator stopped, Reading.found_bind, joined_newline]
    refine readSeparator_waits (whole.of_suffix suffix) ?_ ?_ stopped
    · rw [readKeyword_nil, Reading.stuck_bind]
    · intro rest _ stopped
      exact (readKeyword_waits (Reading.eq_stuck_of_bind stopped)).bind _

theorem readDo_waits {name : List Char} {values : List Word} (whole : Sealed text)
    (stuck : readDo name values text = .stuck []) :
    (readDo name values (text ++ ['\n'])).Waits := by
  by_cases nonempty : text = []
  · subst nonempty
    exact List.suffix_refl _
  · unfold readDo at stuck ⊢
    cases found : readParallel text with
    | stuck stop =>
        unfold readParallel at found
        split at found <;> simp at found
    | found parallel rest =>
        rw [found] at stuck
        rw [(readParallel_follows (List.suffix_refl text) nonempty).of_sealed whole found (by simp),
          joined_newline]
        exact (readKeyword_waits (Reading.eq_stuck_of_bind stuck)).bind _

theorem readHead_waits (whole : Sealed text) (stuck : readHead text = .stuck []) :
    (readHead (text ++ ['\n'])).Waits := by
  have named' := readName?_lengthen parted text
  cases named : readName? text with
  | none =>
      rw [readHead_of_none named] at stuck
      obtain rfl := Reading.stuck.inj stuck
      exact List.suffix_refl _
  | some pair =>
      obtain ⟨name, rest⟩ := pair
      have inside : Sealed rest := by
        rw [eq_append_of_readName? named] at whole
        exact whole.of_suffix (List.suffix_append _ _)
      have trimmed : Sealed (skipFiller rest) := inside.of_suffix (suffix_skipFiller rest)
      rw [named] at named'
      rw [readHead_of_some named] at stuck
      rw [readHead_of_some named', inside.skipFiller_append]
      rcases Reading.bind_eq_stuck.mp stuck with stopped | ⟨_, behind, found, stopped⟩
      · exact (readKeyword_waits stopped).bind _
      · have follows := readKeyword_follows .inWord (List.suffix_refl (skipFiller rest))
        have suffix := endsIn_readKeyword .inWord (skipFiller rest)
        rw [found] at suffix
        have beyond : Sealed behind := trimmed.of_suffix suffix
        have words := beyond.readWords_append (atQuote_of_readSeparator stopped)
        rw [follows.of_sealed trimmed found (by simp), Reading.found_bind, joined_newline]
        simp only [readValues, words]
        exact readSeparator_waits (beyond.of_suffix (suffix_readWords behind)) (readDo_nil name _)
          (fun _ sealed stopped => readDo_waits sealed stopped) stopped

/-! Steps of the machine, and whole runs. -/

theorem readRest_ne_stuck (state : State) (command : Command) (text : List Char) :
    readRest state command text ≠ .stuck [] := by
  intro stuck
  unfold readRest readEnd at stuck
  split at stuck
  · simp at stuck
  · simp at stuck
  · split at stuck <;> simp at stuck

theorem readReserved_waits {state : State} {keyword : Keyword} (whole : Sealed text)
    (nonempty : text ≠ []) (stuck : readReserved state keyword text = .stuck []) :
    (readReserved state keyword (text ++ ['\n'])).Waits := by
  have inside : Sealed (behindWord text) := whole.of_suffix (suffix_behindWord text)
  have behind : Sealed (skipFiller (behindWord text)) := inside.of_suffix (suffix_skipFiller _)
  unfold readReserved at stuck ⊢
  rw [behindWord_append parted, inside.skipFiller_append]
  split at stuck
  · exact (readTest_waits behind (Reading.eq_stuck_of_bind stuck)).bind _
  · exact (readHead_waits behind (Reading.eq_stuck_of_bind stuck)).bind _
  · exact (readTest_waits behind (Reading.eq_stuck_of_bind stuck)).bind _
  · simp at stuck
  · unfold readClosing at stuck
    split at stuck
    · exact absurd stuck (readRest_ne_stuck _ _ _)
    · exact absurd (Reading.stuck.inj stuck) nonempty

theorem step_waits {state : State} (whole : Sealed text) (nonempty : text ≠ [])
    (stuck : step state text = .stuck []) : (step state (text ++ ['\n'])).Waits := by
  unfold step at stuck ⊢
  rw [reservedAt?_append parted]
  split at stuck
  · exact readReserved_waits whole nonempty stuck
  · rcases Reading.bind_eq_stuck.mp stuck with stopped | ⟨command, rest, _, stopped⟩
    · -- Only a pipeline can be unfinished: an assignment may end anywhere.
      unfold readSimple at stopped ⊢
      rw [readAssigned?_lengthen parted]
      split at stopped
      · simp at stopped
      · next free =>
          rw [free]
          exact ((readPipeline_waits whole (Reading.eq_stuck_of_bind stopped)).bind _).bind _
    · exact absurd stopped (readRest_ne_stuck _ _ _)

theorem run_waits {state : State} (whole : Sealed text) (fails : run state text = .error []) :
    ∃ stop, stop <:+ ['\n'] ∧ run state (settle isEnd ['\n'] text) = .error stop := by
  fun_induction run state text with
  | case1 state text finished => simp at fails
  | case2 state text going next rest stepped inductionHypothesis =>
      have ends := endsIn_step state text
      rw [stepped] at ends
      rw [run_append_of_found parted (List.suffix_refl text) stepped (whole.meets rest)]
      exact inductionHypothesis (whole.of_suffix ends) fails
  | case3 state text going stop stepped =>
      obtain rfl := Except.error.inj fails
      by_cases empty : text = []
      · subst empty
        refine ⟨[], List.nil_suffix, ?_⟩
        rw [settle, if_pos rfl, skipOver_cons (skipFiller_of_isBreak rfl []) rfl, skipOver_nil,
          run_eq (by simpa using going), stepped]
        rfl
      · have waits := step_waits whole empty stepped
        rw [settle_of_ne_nil isEnd empty, run_eq (Or.inl (by simp))]
        cases stepped' : step state (text ++ ['\n']) with
        | found next rest =>
            rw [stepped'] at waits
            exact waits.elim
        | stuck stop =>
            rw [stepped'] at waits
            exact ⟨stop, waits, rfl⟩

theorem read_waits (whole : Sealed text) (fails : read text = .error []) :
    ∃ stop, stop <:+ ['\n'] ∧ read (text ++ ['\n']) = .error stop := by
  rw [read, skipOver_append (List.suffix_refl text) (whole.meets _)]
  exact run_waits (whole.of_suffix (suffix_skipOver text)) fails

end CommandShell.Reader
