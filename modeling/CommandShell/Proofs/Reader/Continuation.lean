import CommandShell.Proofs.Reader.Joint

/-!
Reading a text with more behind it. What the machine has read up to a place in the text stays as it
was read, whatever follows, and so does the place where it got stuck, if that place is in the text.
Only at the end of the text, or at a quotation that is open where a word may stand, does it matter
what comes next.
-/

namespace CommandShell.Reader

variable {source text more : List Char}

namespace Reading

variable {α β : Type}

/-- The text that a reading leaves, found or stuck. -/
def left : Reading α → List Char
  | .found _ rest => rest
  | .stuck rest => rest

theorem EndsIn.left {reading : Reading α} (ends : reading.EndsIn text) : reading.left <:+ text := by
  cases reading <;> exact ends

theorem left_bind {reading : Reading α} {next : α → List Char → Reading β}
    (ended : reading.left = []) (ends : ∀ value rest, (next value rest).EndsIn rest) :
    (reading.bind next).left = [] := by
  cases reading with
  | stuck stop => exact ended
  | found value rest =>
      have suffix := (ends value rest).left
      rw [show rest = [] from ended] at suffix ⊢
      exact List.suffix_nil.mp suffix

/-- The reading with more behind the text: the same is found, and it gets stuck in the same place.
The given function says where reading goes on. -/
def carry (place : List Char → List Char → List Char) (more : List Char) : Reading α → Reading α
  | .found value rest => .found value (place more rest)
  | .stuck stop => .stuck (stop ++ more)

end Reading

/-- The part ends at an open quotation, and goes on to the end of the text once that is closed. -/
def Closes {α : Type} (part : List Char → Reading α) (text : List Char) : Prop :=
  atQuote (part text).left = true ∧ (part (joined (closure (part text).left) text)).left = []

/-- A part stays as it is with more behind the text. Only at a quotation that the further text may
close can it be otherwise. A part that may be found up to there ends with words. -/
def Follows {α : Type} (source : List Char) (words : Bool)
    (place : List Char → List Char → List Char) (part : List Char → Reading α)
    (text : List Char) : Prop :=
  ∀ more, Parted more → Meets source more (part text).left → part text ≠ .stuck [] →
    part (joined more text) = (part text).carry place more ∨
      (words = false → ∃ stop, part text = .stuck stop) ∧ Closes part text

namespace Follows

variable {α β : Type} {words words' : Bool} {place place' : List Char → List Char → List Char}
  {part : List Char → Reading α}

theorem of_found (follows : Follows source words place part text) (parted : Parted more)
    {value : α} {rest : List Char} (meets : Meets source more rest)
    (found : part text = .found value rest) (unquoted : words = true → atQuote rest = false) :
    part (joined more text) = .found value (place more rest) := by
  have same := follows more parted (by rwa [found]) (by simp [found])
  rw [found] at same
  rcases same with same | ⟨stuck, quoted, _⟩
  · exact same
  · rw [found] at quoted
    cases words with
    | false => simp at stuck
    | true => exact absurd quoted (by simp [Reading.left, unquoted rfl])

theorem congr {next : List Char → Reading α} {rest : List Char}
    (follows : Follows source words place next rest) (ends : (next rest).EndsIn rest)
    (same : part text = next rest)
    (moves : ∀ more, Parted more → Meets source more rest → next rest ≠ .stuck [] →
      part (joined more text) = next (joined more rest)) :
    Follows source words place part text := by
  intro more parted meets going
  rw [same] at meets going ⊢
  rw [moves more parted (meets.of_suffix ends.left) going]
  refine (follows more parted meets going).imp_right fun ⟨found, quoted, closes⟩ => ?_
  have solid : Solid rest := (solid_of_atQuote quoted).of_suffix ends.left
  refine ⟨found, ?_, ?_⟩
  · rwa [same]
  · rwa [same, moves _ (parted_closure _) (Or.inr solid) going]

theorem bind {next : α → List Char → Reading β} (first : Follows source words place part text)
    (ends : (part text).EndsIn source) (endsNext : ∀ value rest, (next value rest).EndsIn rest)
    (later : ∀ value rest, rest <:+ source → Follows source words' place' (next value) rest)
    (moves : ∀ value more rest, next value rest ≠ .stuck [] →
      next value (place more rest) = next value (joined more rest))
    (stops : words = true → ∀ value rest, atQuote rest = true → next value rest = .stuck rest) :
    Follows source words' place' (fun text => (part text).bind next) text := by
  cases found : part text with
  | stuck stop =>
      intro more parted meets going
      simp only [found, Reading.stuck_bind] at meets going ⊢
      have first := first more parted (by rwa [found]) (by simpa [found] using going)
      rw [found] at first
      rcases first with same | ⟨_, quoted, closes⟩
      · rw [same]
        exact Or.inl rfl
      · rw [found] at quoted closes
        refine Or.inr ⟨fun _ => ⟨stop, rfl⟩, ?_⟩
        simp only [Closes, found, Reading.stuck_bind]
        exact ⟨quoted, Reading.left_bind closes endsNext⟩
  | found value rest =>
      by_cases open_ : words = true ∧ Closes part text
      · obtain ⟨ended, quoted, closes⟩ := open_
        rw [found] at quoted closes
        have stopped := stops ended value rest quoted
        intro more parted meets going
        simp only [Closes, found, Reading.found_bind, stopped]
        exact Or.inr ⟨fun _ => ⟨rest, rfl⟩, quoted, Reading.left_bind closes endsNext⟩
      · rw [found] at ends
        refine congr (later value rest ends) (endsNext value rest) (by simp [found]) ?_
        intro more parted meets going
        have same := first more parted (by rwa [found]) (by simp [found])
        rw [found] at same
        rcases same with same | ⟨stuck, closes⟩
        · simp only [same, Reading.carry, Reading.found_bind]
          exact moves value more rest going
        · cases words with
          | false => simp at stuck
          | true => exact absurd ⟨rfl, closes⟩ open_

theorem map (follows : Follows source words place part text) (make : α → β) :
    Follows source words place
      (fun text => (part text).bind fun value rest => .found (make value) rest) text := by
  have left : ∀ reading : Reading α,
      (reading.bind fun value rest => .found (make value) rest).left = reading.left := by
    intro reading
    cases reading <;> rfl
  intro more parted meets going
  rw [left] at meets
  have going' : part text ≠ .stuck [] := by
    intro stuck
    simp [stuck] at going
  rcases follows more parted meets going' with same | ⟨found, closes⟩
  · dsimp only
    rw [same]
    cases part text <;> exact Or.inl rfl
  · refine Or.inr ⟨fun ended => ?_, ?_⟩
    · obtain ⟨stop, stuck⟩ := found ended
      exact ⟨stop, by simp [stuck]⟩
    · simpa only [Closes, left] using closes

end Follows

theorem readEnd_follows (inside : text <:+ source) :
    Follows source false (settle isEnd) readEnd text := by
  intro more parted meets _
  refine Or.inl ?_
  revert meets
  fun_cases readEnd text with
  | case1 =>
      rintro (apart | solid)
      · have ends := apart.ends
        rw [joined_nil, Reading.carry, settle, if_pos rfl, ← skipOver_skipFiller]
        cases filled : skipFiller more with
        | nil => rw [skipOver_nil, readEnd]
        | cons c rest =>
            rw [filled] at ends
            exact readEnd_of_isEnd (ends c rfl) rest
      · exact absurd rfl solid.1
  | case2 rest =>
      intro meets
      rw [joined_of_ne_nil (by simp), List.cons_append, readEnd, Reading.carry,
        skipOver_append ((List.suffix_cons _ _).trans inside) meets]
  | case3 c rest noMark ends =>
      intro meets
      rw [joined_of_ne_nil (by simp), List.cons_append, readEnd, if_pos ends, Reading.carry,
        skipOver_append ((List.suffix_cons _ _).trans inside) meets]
      exact noMark
  | case4 c rest noMark other =>
      intro _
      rw [joined_of_ne_nil (by simp), List.cons_append, readEnd, if_neg other]
      · rfl
      · exact noMark

theorem readSeparator_follows (inside : text <:+ source) :
    Follows source false (settle isEnd) readSeparator text := by
  intro more parted meets going
  refine Or.inl ?_
  revert meets going
  fun_cases readSeparator text with
  | case1 => exact fun _ going => absurd rfl going
  | case2 c rest ends =>
      intro meets _
      rw [joined_of_ne_nil (by simp), List.cons_append, readSeparator, if_pos ends, Reading.carry,
        skipOver_append ((List.suffix_cons _ _).trans inside) meets]
  | case3 c rest other =>
      intro _ _
      rw [joined_of_ne_nil (by simp), List.cons_append, readSeparator, if_neg other]
      rfl

theorem readKeyword_follows (keyword : Keyword) (inside : text <:+ source) :
    Follows source false joined (readKeyword keyword) text := by
  intro more parted meets going
  refine Or.inl ?_
  by_cases starts : firstWord text = keyword.letters
  · have nonempty : text ≠ [] := by
      rintro rfl
      exact keyword.letters_ne_nil starts.symm
    rw [readKeyword, if_pos starts] at meets
    rw [joined_of_ne_nil nonempty, readKeyword, readKeyword, firstWord_append parted,
      behindWord_append parted, if_pos starts, if_pos starts,
      skipFiller_append ((suffix_behindWord text).trans inside) meets]
    rfl
  · have stuck : readKeyword keyword text = .stuck text := if_neg starts
    have nonempty : text ≠ [] := by simpa [stuck] using going
    rw [stuck, joined_of_ne_nil nonempty, readKeyword, firstWord_append parted, if_neg starts]
    rfl

theorem readKeyword_nil (keyword : Keyword) : readKeyword keyword [] = .stuck [] :=
  if_neg fun same => keyword.letters_ne_nil same.symm

theorem startsProgram_lengthen (parted : Parted more) (starts : startsProgram text = true) :
    startsProgram (text ++ more) = true := by
  obtain ⟨free, found⟩ := startsProgram_iff.mp starts
  obtain ⟨⟨piece, rest⟩, first⟩ := Option.ne_none_iff_exists'.mp found
  refine startsProgram_iff.mpr ⟨by rw [reservedAt?_append parted, free], ?_⟩
  simp [readPiece?_lengthen_some parted first]

theorem startsProgram_lengthen_false (parted : Parted more) (idle : startsProgram text = false)
    (unquoted : atQuote text = false) : startsProgram (text ++ more) = false := by
  simp only [startsProgram, reservedAt?_append parted]
  cases found : readPiece? text with
  | none => simp [readPiece?_lengthen_none parted found unquoted]
  | some pair =>
      have reserved : (Keyword.reservedAt? text).isNone = false := by
        simpa [startsProgram, found] using idle
      simp [reserved]

theorem reservedAt?_of_atQuote (quoted : atQuote text = true) :
    Keyword.reservedAt? text = none := by
  refine Keyword.reservedAt?_eq_none.mpr fun keyword _ starts => ?_
  obtain ⟨rest, rfl | rfl⟩ := head?_of_atQuote quoted <;> cases keyword <;>
    simp [firstWord, isBoundary, isEnd, isBreak, Keyword.letters] at starts

theorem startsProgram_closure (quoted : atQuote text = true) (idle : startsProgram text = false) :
    readPiece? text = none ∧ startsProgram (text ++ closure text) = true := by
  have free := reservedAt?_of_atQuote quoted
  have refused : readPiece? text = none := by
    rw [startsProgram, free] at idle
    simpa using idle
  obtain ⟨piece, closed⟩ := readPiece?_closure quoted refused
  refine ⟨refused, startsProgram_iff.mpr ⟨?_, by simp [closed]⟩⟩
  rw [reservedAt?_append (parted_closure _), free]

theorem readPipeline_nil : readPipeline [] = .stuck [] := readPipeline_of_not_starts rfl

/-- A program that ends in an open quotation, or has to start with it, goes to the end of the text
once that is closed. -/
theorem left_readPipeline_closure {rest : List Char} (ends : (readWords text).2 = rest)
    (quoted : atQuote rest = true) (starts : startsProgram (text ++ closure rest) = true) :
    (readPipeline (text ++ closure rest)).left = [] := by
  subst ends
  rw [readPipeline_of_starts starts, readWords_closure quoted]
  rfl

theorem ne_nil_of_startsProgram (starts : startsProgram text = true) : text ≠ [] := by
  rintro rfl
  simp [startsProgram, readPiece?, readPlain?] at starts

theorem readPipeline_single_follows (inside : text <:+ source) (starts : startsProgram text = true)
    (noBar : (readWords text).2.head? ≠ some '|') :
    Follows source true joined readPipeline text := by
  have alone : readPipeline text = .found [(readWords text).1] (readWords text).2 := by
    rw [readPipeline_of_starts starts, readLinks_of_ne noBar]
    rfl
  have kept := ne_nil_of_startsProgram starts
  intro more parted meets going
  simp only [Closes, alone, Reading.left] at meets ⊢
  cases quoted : atQuote (readWords text).2 with
  | true =>
      refine Or.inr ⟨by simp, rfl, ?_⟩
      rw [joined_of_ne_nil kept]
      exact left_readPipeline_closure rfl quoted (startsProgram_lengthen (parted_closure _) starts)
  | false =>
      have words := readWords_joined parted inside meets quoted
      have solitary := readLinks_of_ne (meets.head_joined_ne (d := '|') rfl noBar)
      rw [joined_of_ne_nil kept] at words ⊢
      rw [readPipeline_of_starts (startsProgram_lengthen parted starts), words, solitary]
      exact Or.inl rfl

theorem readPipeline_idle_follows (idle : startsProgram text = false) :
    Follows source true joined readPipeline text := by
  have stuck := readPipeline_of_not_starts idle
  intro more parted meets going
  have nonempty : text ≠ [] := by
    rw [stuck] at going
    simpa using going
  simp only [Closes, stuck, Reading.left, joined_of_ne_nil nonempty]
  cases quoted : atQuote text with
  | true =>
      obtain ⟨refused, starts⟩ := startsProgram_closure quoted idle
      have words : (readWords text).2 = text := by rw [readWords_of_none refused]
      exact Or.inr ⟨by simp, rfl, left_readPipeline_closure words quoted starts⟩
  | false =>
      have idle' := startsProgram_lengthen_false parted idle quoted
      exact Or.inl (readPipeline_of_not_starts idle')

theorem readPipeline_follows (inside : text <:+ source) :
    Follows source true joined readPipeline text := by
  fun_induction readPipeline text with
  | case1 text starts behind bar inductionHypothesis =>
      have suffix := suffix_readWords text
      rw [bar] at suffix
      have within : behind <:+ source := ((List.suffix_cons _ _).trans suffix).trans inside
      refine .congr ((inductionHypothesis ((suffix_skipOver behind).trans within)).map
        ((readWords text).1 :: ·)) ((endsIn_readPipeline _).map _) ?_ ?_
      · rw [readPipeline_of_starts starts, bar]
        rfl
      · intro more parted meets going
        have nonempty : skipOver isBreak behind ≠ [] := by
          intro ended
          simp [ended, readPipeline_nil] at going
        have beyond : skipOver isBreak behind <:+ '|' :: behind :=
          (suffix_skipOver behind).trans (List.suffix_cons _ _)
        have words := readWords_joined parted inside (bar ▸ meets.of_suffix beyond)
          (by simp [bar, atQuote])
        rw [joined_of_ne_nil (ne_nil_of_startsProgram starts)] at words ⊢
        rw [readPipeline_of_starts (startsProgram_lengthen parted starts), words, bar,
          joined_of_ne_nil (by simp), joined_of_ne_nil nonempty]
        simp only [List.cons_append, readLinks, skipOver_append within meets,
          settle_of_ne_nil isBreak nonempty]
  | case2 text starts noBar =>
      exact readPipeline_single_follows inside starts (head?_ne_of_ne_cons noBar)
  | case3 text idle => exact readPipeline_idle_follows (by simpa using idle)

theorem readEnd_of_atQuote (quoted : atQuote text = true) : readEnd text = .stuck text := by
  obtain ⟨rest, rfl | rfl⟩ := head?_of_atQuote quoted <;> rfl

theorem readSeparator_of_atQuote (quoted : atQuote text = true) :
    readSeparator text = .stuck text := by
  obtain ⟨rest, rfl | rfl⟩ := head?_of_atQuote quoted <;> rfl

/-- What needs text takes no notice of what is skipped in front of the further text. -/
theorem settle_eq_joined {α : Type} {part : List Char → Reading α} (blank : part [] = .stuck [])
    {rest : List Char} (going : part rest ≠ .stuck []) (accepts : Char → Bool) (more : List Char) :
    part (settle accepts more rest) = part (joined more rest) := by
  have nonempty : rest ≠ [] := by
    rintro rfl
    exact going blank
  rw [settle_of_ne_nil accepts nonempty, joined_of_ne_nil nonempty]

theorem readSeparator_bind_follows {α : Type} {words : Bool}
    {place : List Char → List Char → List Char} {part : List Char → Reading α}
    (blank : part [] = .stuck []) (ends : ∀ rest, (part rest).EndsIn rest)
    (follows : ∀ rest, rest <:+ source → Follows source words place part rest)
    (inside : text <:+ source) :
    Follows source words place (fun text => (readSeparator text).bind fun _ rest => part rest)
      text :=
  (readSeparator_follows inside).bind ((endsIn_readSeparator text).of_suffix inside)
    (fun _ => ends) (fun _ => follows)
    (fun _ more _ going => settle_eq_joined blank going isEnd more) (by simp)

theorem skipOver_follows {α : Type} (value : α) (inside : text <:+ source) :
    Follows source false (settle isEnd) (fun text => .found value (skipOver isEnd text)) text := by
  intro more parted meets going
  simp only [skipOver_joined inside meets]
  exact Or.inl rfl

theorem readThen_follows (test : Pipeline) (inside : text <:+ source) :
    Follows source false (settle isEnd) (readThen test) text :=
  (readKeyword_follows .thenWord inside).bind
    ((endsIn_readKeyword .thenWord text).of_suffix inside) (fun _ rest => suffix_skipOver rest)
    (fun _ _ => skipOver_follows test) (fun _ _ _ _ => rfl) (by simp)

theorem readThen_nil (test : Pipeline) : readThen test [] = .stuck [] := by
  rw [readThen, readKeyword_nil, Reading.stuck_bind]

theorem readTest_follows (inside : text <:+ source) :
    Follows source false (settle isEnd) readTest text :=
  (readPipeline_follows inside).bind ((endsIn_readPipeline text).of_suffix inside)
    (fun test rest => (endsIn_readSeparator rest).bind fun _ rest => endsIn_readThen test rest)
    (fun test _ => readSeparator_bind_follows (readThen_nil test) (endsIn_readThen test)
      fun _ => readThen_follows test)
    (fun _ _ _ _ => rfl) fun _ test rest quoted => by
      rw [readSeparator_of_atQuote quoted, Reading.stuck_bind]

theorem readParallel_follows (inside : text <:+ source) (nonempty : text ≠ []) :
    Follows source false joined readParallel text := by
  intro more parted meets going
  refine Or.inl ?_
  unfold readParallel at meets ⊢
  rw [joined_of_ne_nil nonempty, firstWord_append parted, behindWord_append parted]
  split
  · next marked =>
      rw [if_pos marked] at meets
      rw [skipFiller_append ((suffix_behindWord text).trans inside) meets]
      rfl
  · rw [Reading.carry, joined_of_ne_nil nonempty]

theorem readDo_nil (name : List Char) (values : List Word) : readDo name values [] = .stuck [] :=
  rfl

theorem readDo_follows (name : List Char) (values : List Word) (inside : text <:+ source) :
    Follows source false (settle isEnd) (readDo name values) text := by
  by_cases nonempty : text = []
  · intro more parted meets going
    exact absurd (nonempty ▸ readDo_nil name values) going
  · exact (readParallel_follows inside nonempty).bind ((endsIn_readParallel text).of_suffix inside)
      (fun _ rest => (endsIn_readKeyword .doWord rest).bind fun _ rest => suffix_skipOver rest)
      (fun _ rest inside => (readKeyword_follows .doWord inside).bind
        ((endsIn_readKeyword .doWord rest).of_suffix inside) (fun _ rest => suffix_skipOver rest)
        (fun _ _ => skipOver_follows _) (fun _ _ _ _ => rfl) (by simp))
      (fun _ _ _ _ => rfl) (by simp)

theorem readValues_follows (name : List Char) (inside : text <:+ source) :
    Follows source false (settle isEnd) (readValues name) text := by
  cases quoted : atQuote (readWords text).2 with
  | true =>
      have stuck : readValues name text = .stuck (readWords text).2 := by
        rw [readValues, readSeparator_of_atQuote quoted, Reading.stuck_bind]
      have nonempty : text ≠ [] := ((solid_of_atQuote quoted).of_suffix (suffix_readWords text)).1
      intro more parted meets going
      simp only [Closes, stuck, Reading.left, joined_of_ne_nil nonempty]
      refine Or.inr ⟨by simp, quoted, ?_⟩
      rw [readValues, readWords_closure quoted]
      rfl
  | false =>
      refine .congr (readSeparator_bind_follows (readDo_nil name (readWords text).1)
        (endsIn_readDo name _) (fun rest => readDo_follows name _)
        ((suffix_readWords text).trans inside)) (endsIn_readValues name text) rfl ?_
      intro more parted meets going
      rw [readValues, readWords_joined parted inside meets quoted]

theorem readHead_follows (inside : text <:+ source) :
    Follows source false (settle isEnd) readHead text := by
  cases found : readName? text with
  | none =>
      have stuck := readHead_of_none found
      intro more parted meets going
      have nonempty : text ≠ [] := by
        rw [stuck] at going
        simpa using going
      refine Or.inl ?_
      rw [stuck, joined_of_ne_nil nonempty, readHead_of_none]
      · rfl
      · rw [readName?_lengthen parted, found]
        rfl
  | some pair =>
      obtain ⟨name, rest⟩ := pair
      have nonempty : text ≠ [] := by
        rintro rfl
        simp [readName?] at found
      have within : rest <:+ source := by
        rw [eq_append_of_readName? found] at inside
        exact (List.suffix_append _ _).trans inside
      have trimmed : skipFiller rest <:+ source := (suffix_skipFiller rest).trans within
      have ends : ∀ _ : Unit, ∀ rest, (readValues name rest).EndsIn rest :=
        fun _ rest => (endsIn_readValues name rest).of_suffix (suffix_readWords rest)
      refine .congr ((readKeyword_follows .inWord trimmed).bind
        ((endsIn_readKeyword .inWord _).of_suffix trimmed) ends
        (fun _ _ => readValues_follows name) (fun _ _ _ _ => rfl) (by simp))
        ((endsIn_readKeyword .inWord _).bind ends) (readHead_of_some found) ?_
      intro more parted meets going
      have named := readName?_lengthen parted text
      rw [found] at named
      rw [joined_of_ne_nil nonempty, readHead_of_some named, skipFiller_append within meets]

theorem readAssigned?_lengthen (parted : Parted more) (text : List Char) :
    readAssigned? (text ++ more) = (readAssigned? text).map (lengthen more) := by
  unfold readAssigned?
  rw [readName?_lengthen parted]
  cases found : readName? text with
  | none => rfl
  | some pair =>
      obtain ⟨name, rest⟩ := pair
      by_cases assigned : rest.head? = some '='
      · obtain ⟨value, rfl⟩ := List.head?_eq_some_iff.mp assigned
        rfl
      · have free := parted.head_append_ne (d := '=') rfl assigned
        simp only [Option.map_some, lengthen]
        split
        · next name' value same =>
            rw [(Prod.mk.inj (Option.some.inj same)).2] at free
            exact absurd rfl free
        · split
          · next name' value same =>
              rw [(Prod.mk.inj (Option.some.inj same)).2] at assigned
              exact absurd rfl assigned
          · rfl

theorem readSimple_follows (inside : text <:+ source) :
    Follows source true joined readSimple text := by
  cases found : readAssigned? text with
  | none =>
      refine .congr ((readPipeline_follows inside).map .pipeline) ((endsIn_readPipeline text).map _)
        (by rw [readSimple, found]) ?_
      intro more parted meets going
      have nonempty : text ≠ [] := by
        rintro rfl
        simp [readPipeline_nil] at going
      rw [joined_of_ne_nil nonempty, readSimple, readAssigned?_lengthen parted, found]
      rfl
  | some pair =>
      obtain ⟨name, value⟩ := pair
      have whole := eq_append_of_readAssigned? found
      have nonempty : text ≠ [] := by simp [whole]
      have within : (readPieces value).2 <:+ source := by
        rw [whole] at inside
        exact ((suffix_readPieces value).trans ⟨name ++ ['='], by simp⟩).trans inside
      have reads : readSimple text = .found (.assignment (.ofList name) (readPieces value).1)
          (skipFiller (readPieces value).2) := by
        rw [readSimple, found]
      have goesOn : ∀ {more}, Parted more → readSimple (text ++ more) =
          .found (.assignment (.ofList name) (readPieces (value ++ more)).1)
            (skipFiller (readPieces (value ++ more)).2) := by
        intro more parted
        rw [readSimple, readAssigned?_lengthen parted, found]
        rfl
      intro more parted meets going
      simp only [Closes, reads, Reading.left, joined_of_ne_nil nonempty] at meets ⊢
      cases quoted : atQuote (readPieces value).2 with
      | true =>
          rw [skipFiller_of_atQuote quoted]
          refine Or.inr ⟨by simp, quoted, ?_⟩
          rw [goesOn (parted_closure _)]
          simp only [readPieces_closure quoted, skipFiller_nil]
      | false =>
          refine Or.inl ?_
          rw [goesOn parted, readPieces_lengthen parted value quoted, lengthen,
            skipFiller_append within meets]
          rfl

/-! Steps of the machine, and whole runs. -/

theorem readRest_follows (state : State) (command : Command) (inside : text <:+ source) :
    Follows source false (settle isEnd) (readRest state command) text :=
  (readEnd_follows inside).map _

theorem behindWord_follows {α : Type} (part : List Char → Reading α) (nonempty : text ≠ [])
    (ends : ∀ text, (part text).EndsIn text)
    (follows : ∀ text, text <:+ source → Follows source false (settle isEnd) part text)
    (inside : text <:+ source) :
    Follows source false (settle isEnd) (fun text => part (skipFiller (behindWord text))) text := by
  have within : behindWord text <:+ source := (suffix_behindWord text).trans inside
  refine .congr (follows _ ((suffix_skipFiller _).trans within)) (ends _) rfl ?_
  intro more parted meets _
  rw [joined_of_ne_nil nonempty, behindWord_append parted, skipFiller_append within meets]

theorem readReserved_follows (state : State) (keyword : Keyword) (nonempty : text ≠ [])
    (inside : text <:+ source) :
    Follows source false (settle isEnd) (readReserved state keyword) text := by
  have test := behindWord_follows readTest nonempty endsIn_readTest
    (fun _ => readTest_follows) inside
  have head := behindWord_follows readHead nonempty endsIn_readHead
    (fun _ => readHead_follows) inside
  have closes : Follows source false (settle isEnd)
      (fun text => readClosing state keyword text (skipFiller (behindWord text))) text := by
    unfold readClosing
    split
    · exact behindWord_follows _ nonempty (endsIn_readRest _ _) (fun _ => readRest_follows _ _)
        inside
    · intro more parted meets going
      exact Or.inl (by rw [joined_of_ne_nil nonempty]; rfl)
  unfold readReserved
  dsimp only
  split
  · exact test.map _
  · exact head.map _
  · exact test.map _
  · next branches outer _ =>
      exact behindWord_follows
        (fun text => .found (outer.enter (.fallback branches)) (skipOver isEnd text)) nonempty
        suffix_skipOver (fun _ => skipOver_follows _) inside
  · exact closes

theorem step_nil (state : State) : step state [] = .stuck [] := by
  have simple : readSimple [] = .stuck [] := by
    rw [readSimple, show readAssigned? [] = none from rfl, readPipeline_nil]
    rfl
  rw [step, show Keyword.reservedAt? [] = none from rfl, simple]
  rfl

theorem step_follows (state : State) (inside : text <:+ source) :
    Follows source false (settle isEnd) (step state) text := by
  by_cases nonempty : text = []
  · intro more parted meets going
    exact absurd (nonempty ▸ step_nil state) going
  cases reserved : Keyword.reservedAt? text with
  | some keyword =>
      refine .congr (readReserved_follows state keyword nonempty inside) ?_ ?_ ?_
      · have ends := endsIn_step state text
        rwa [step, reserved] at ends
      · rw [step, reserved]
      · intro more parted _ _
        rw [joined_of_ne_nil nonempty, step, reservedAt?_append parted, reserved]
  | none =>
      refine .congr ((readSimple_follows inside).bind ((endsIn_readSimple text).of_suffix inside)
        (fun command rest => endsIn_readRest state command rest)
        (fun command _ => readRest_follows state command) (fun _ _ _ _ => rfl)
        fun _ command rest quoted => by rw [readRest, readEnd_of_atQuote quoted]; rfl)
        ((endsIn_readSimple text).bind fun command => endsIn_readRest state command) ?_ ?_
      · rw [step, reserved]
      · intro more parted _ _
        rw [joined_of_ne_nil nonempty, step, reservedAt?_append parted, reserved]

theorem run_append_of_found {state next : State} {rest : List Char} (parted : Parted more)
    (inside : text <:+ source) (stepped : step state text = .found next rest)
    (meets : Meets source more rest) :
    run state (settle isEnd more text) = run next (settle isEnd more rest) := by
  have nonempty : text ≠ [] := by
    rintro rfl
    simpa using length_lt_of_step stepped
  have goesOn := (step_follows state inside).of_found parted meets stepped (by simp)
  rw [joined_of_ne_nil nonempty] at goesOn
  rw [settle_of_ne_nil isEnd nonempty, run_eq (Or.inl (by simp [nonempty])), goesOn]
  rfl

/-- A run to the end of the text goes on with the further text. -/
theorem run_append_of_ok {state : State} {script : Script} (parted : Parted more)
    (apart : Apart source more) (inside : text <:+ source) (runs : run state text = .ok script) :
    run state (settle isEnd more text) = run ⟨[], script⟩ (skipOver isEnd more) := by
  fun_induction run state text with
  | case1 state text finished =>
      obtain ⟨rfl, outside⟩ := finished
      obtain rfl := Except.ok.inj runs
      rw [settle, if_pos rfl, ← outside]
  | case2 state text going next rest stepped inductionHypothesis =>
      have ends := endsIn_step state text
      rw [stepped] at ends
      rw [run_append_of_found parted inside stepped (Or.inl apart)]
      exact inductionHypothesis (List.IsSuffix.trans ends inside) runs
  | case3 state text going stop stepped => simp at runs

/-- A run that gets stuck in the text gets stuck in the same place, whatever follows, unless it is
stuck at a quotation that it can get through to the end of the text once that is closed. -/
theorem run_append_of_error {state : State} {stop : List Char} (parted : Parted more)
    (solid : Solid stop) (inside : text <:+ source) (fails : run state text = .error stop) :
    run state (settle isEnd more text) = .error (stop ++ more) ∨
      atQuote stop = true ∧
        ∀ stop', run state (settle isEnd (closure stop) text) = .error stop' → stop' = [] := by
  fun_induction run state text with
  | case1 state text finished => simp at fails
  | case2 state text going next rest stepped inductionHypothesis =>
      have ends := endsIn_step state text
      rw [stepped] at ends
      have kept : Solid rest := solid.of_suffix (suffix_of_run fails)
      rw [run_append_of_found parted inside stepped (Or.inr kept),
        run_append_of_found (parted_closure _) inside stepped (Or.inr kept)]
      exact inductionHypothesis (List.IsSuffix.trans ends inside) fails
  | case3 state text going last stepped =>
      obtain rfl : last = stop := Except.error.inj fails
      have ends := endsIn_step state text
      have follows := step_follows state inside more parted
      rw [stepped] at ends follows
      have started : text ≠ [] := (solid.of_suffix ends).1
      have goesOn : ∀ more,
          run state (settle isEnd more text) = resume (step state (joined more text)) := by
        intro more
        rw [settle_of_ne_nil isEnd started, joined_of_ne_nil started,
          run_eq (Or.inl (by simp [started]))]
      rw [goesOn, goesOn]
      refine (follows (Or.inr solid) (by simp [solid.1])).imp ?_ ?_
      · intro same
        rw [same]
        rfl
      · rintro ⟨_, quoted, closes⟩
        rw [stepped] at quoted closes
        refine ⟨quoted, fun stop' fails' => List.suffix_nil.mp ?_⟩
        simp only [Reading.left] at closes
        cases closed : step state (joined (closure last) text) with
        | stuck rest =>
            rw [closed] at closes fails'
            obtain rfl := Except.error.inj fails'
            exact closes ▸ List.suffix_refl _
        | found next rest =>
            rw [closed] at closes fails'
            exact closes ▸ suffix_of_run fails'

theorem read_append_of_ok {script : Script} (parted : Parted more) (reads : read text = .ok script)
    (apart : Apart text more) :
    read (text ++ more) = run ⟨[], script⟩ (skipOver isEnd more) := by
  rw [read, skipOver_append (List.suffix_refl text) (Or.inl apart)]
  exact run_append_of_ok parted apart (suffix_skipOver text) reads

theorem read_append_of_error {stop : List Char} (parted : Parted more) (solid : Solid stop)
    (fails : read text = .error stop) :
    read (text ++ more) = .error (stop ++ more) ∨
      atQuote stop = true ∧ ∀ stop', read (text ++ closure stop) = .error stop' → stop' = [] := by
  have kept : Solid (skipOver isEnd text) := solid.of_suffix (suffix_of_run fails)
  rw [read, read, skipOver_append (List.suffix_refl text) (Or.inr kept),
    skipOver_append (List.suffix_refl text) (Or.inr kept)]
  exact run_append_of_error parted solid (suffix_skipOver text) fails

end CommandShell.Reader
