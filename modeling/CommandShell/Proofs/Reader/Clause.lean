import CommandShell.Proofs.Reader.Word

/-!
The parts of statements that hold no statements themselves: pipelines, assignments, the tests of
conditionals, the heads of loops and the ends of statements.
-/

namespace CommandShell.Reader

/-- What comes of reading a part: what was found and the text behind it, or the text at which it
became clear that there is no such part. -/
inductive Reading (α : Type) where
  | found (value : α) (rest : List Char)
  | stuck (text : List Char)

namespace Reading

variable {α β : Type}

/-- Read on behind what was found. -/
def bind : Reading α → (α → List Char → Reading β) → Reading β
  | .found value rest, next => next value rest
  | .stuck text, _ => .stuck text

@[simp]
theorem found_bind (value : α) (rest : List Char) (next : α → List Char → Reading β) :
    (found value rest).bind next = next value rest := rfl

@[simp]
theorem stuck_bind (text : List Char) (next : α → List Char → Reading β) :
    (stuck text).bind next = .stuck text := rfl

theorem bind_eq_found {reading : Reading α} {next : α → List Char → Reading β} {value : β}
    {rest : List Char} :
    reading.bind next = .found value rest ↔
      ∃ value' rest', reading = .found value' rest' ∧ next value' rest' = .found value rest := by
  cases reading <;> simp [and_assoc]

theorem bind_eq_stuck {reading : Reading α} {next : α → List Char → Reading β} {text : List Char} :
    reading.bind next = .stuck text ↔
      reading = .stuck text ∨
        ∃ value' rest', reading = .found value' rest' ∧ next value' rest' = .stuck text := by
  cases reading <;> simp [and_assoc]

theorem eq_stuck_of_bind {reading : Reading α} {value : α → β} {behind : α → List Char → List Char}
    {text : List Char}
    (stuck : (reading.bind fun found rest => .found (value found) (behind found rest)) =
      .stuck text) :
    reading = .stuck text := by
  rcases bind_eq_stuck.mp stuck with stopped | ⟨found, rest, _, same⟩
  · exact stopped
  · simp at same

/-- Whether reading ends at a suffix of the text, found or stuck. -/
def EndsIn (text : List Char) : Reading α → Prop
  | .found _ rest => rest <:+ text
  | .stuck rest => rest <:+ text

theorem EndsIn.of_suffix {reading : Reading α} {text text' : List Char} (ends : reading.EndsIn text)
    (suffix : text <:+ text') : reading.EndsIn text' := by
  cases reading <;> exact List.IsSuffix.trans ends suffix

theorem EndsIn.bind {reading : Reading α} {next : α → List Char → Reading β} {text : List Char}
    (ends : reading.EndsIn text) (endsNext : ∀ value rest, (next value rest).EndsIn rest) :
    (reading.bind next).EndsIn text := by
  cases reading with
  | found value rest => exact (endsNext value rest).of_suffix ends
  | stuck rest => exact ends

theorem EndsIn.map {reading : Reading α} {text : List Char} (ends : reading.EndsIn text)
    (make : α → β) :
    (reading.bind fun value rest => .found (make value) rest).EndsIn text :=
  ends.bind fun _ rest => List.suffix_refl rest

end Reading

/-- Whether a program may start here: with a word, and not with a reserved one. -/
def startsProgram (text : List Char) : Bool :=
  (Keyword.reservedAt? text).isNone && (readPiece? text).isSome

theorem startsProgram_iff {text : List Char} :
    startsProgram text = true ↔ Keyword.reservedAt? text = none ∧ readPiece? text ≠ none := by
  simp [startsProgram, Option.isSome_iff_ne_none]

theorem length_readWords_lt {text : List Char} (found : readPiece? text ≠ none) :
    (readWords text).2.length < text.length := by
  rw [readWords_of_some found]
  exact Nat.lt_of_le_of_lt (length_readWords_skipFiller_le _) (length_readPieces_lt found)

/-- Programs with bars between them. Line breaks may stand behind a bar. -/
def readPipeline (text : List Char) : Reading Pipeline :=
  if _ : startsProgram text then
    match _ : (readWords text).2 with
    | '|' :: more =>
      (readPipeline (skipOver isBreak more)).bind fun programs rest =>
        .found ((readWords text).1 :: programs) rest
    | rest => .found [(readWords text).1] rest
  else .stuck text
termination_by text.length
decreasing_by
  rename_i starts behind
  have shorter := length_readWords_lt (startsProgram_iff.mp starts).2
  rw [behind] at shorter
  exact Nat.lt_of_le_of_lt (suffix_skipOver more).length_le (Nat.lt_of_succ_lt shorter)

/-- What follows the first program of a pipeline. -/
def readLinks : List Char → Reading Pipeline
  | '|' :: more => readPipeline (skipOver isBreak more)
  | text => .found [] text

theorem readLinks_of_ne {text : List Char} (other : text.head? ≠ some '|') :
    readLinks text = .found [] text := by
  fun_cases readLinks text with
  | case1 more => simp at other
  | case2 => rfl

theorem readPipeline_of_starts {text : List Char} (starts : startsProgram text = true) :
    readPipeline text =
      (readLinks (readWords text).2).bind fun programs rest =>
        .found ((readWords text).1 :: programs) rest := by
  rw [readPipeline, dif_pos starts]
  generalize (readWords text).2 = rest
  unfold readLinks
  split <;> simp_all

theorem readPipeline_of_not_starts {text : List Char} (idle : startsProgram text = false) :
    readPipeline text = .stuck text := by
  rw [readPipeline]
  simp [idle]

/-- The end of a statement; a mark sends it to the background. -/
def readEnd : List Char → Reading Bool
  | [] => .found false []
  | '&' :: rest => .found true (skipOver isEnd rest)
  | c :: rest => if isEnd c then .found false (skipOver isEnd rest) else .stuck (c :: rest)

def readSeparator : List Char → Reading Unit
  | [] => .stuck []
  | c :: rest => if isEnd c then .found () (skipOver isEnd rest) else .stuck (c :: rest)

theorem readEnd_of_isEnd {c : Char} (ends : isEnd c = true) (rest : List Char) :
    readEnd (c :: rest) = .found false (skipOver isEnd (c :: rest)) := by
  have noMark : c ≠ '&' := by rintro rfl; contradiction
  rw [skipOver_cons (skipFiller_of_isEnd ends rest) ends, readEnd, if_pos ends]
  simpa using noMark

theorem readSeparator_of_isEnd {c : Char} (ends : isEnd c = true) (rest : List Char) :
    readSeparator (c :: rest) = .found () (skipOver isEnd (c :: rest)) := by
  rw [readSeparator, if_pos ends, skipOver_cons (skipFiller_of_isEnd ends rest) ends]

def readKeyword (keyword : Keyword) (text : List Char) : Reading Unit :=
  if firstWord text = keyword.letters then .found () (skipFiller (behindWord text)) else .stuck text

/-- The test of a conditional, up to the first statement it guards. -/
def readTest (text : List Char) : Reading Pipeline :=
  (readPipeline text).bind fun test rest =>
    (readSeparator rest).bind fun _ rest =>
      (readKeyword .thenWord rest).bind fun _ rest => .found test (skipOver isEnd rest)

/-- What is said of a loop before its body. -/
structure Head where
  parallel : Bool
  name : List Char
  values : List Word

/-- The mark of a parallel loop, if it is there. -/
def readParallel (text : List Char) : Reading Bool :=
  if firstWord text = Keyword.parallelWord.letters then .found true (skipFiller (behindWord text))
  else .found false text

/-- The head of a loop, up to the first statement of its body. -/
def readHead (text : List Char) : Reading Head :=
  match readName? text with
  | none => .stuck text
  | some (name, rest) =>
    (readKeyword .inWord (skipFiller rest)).bind fun _ rest =>
      (readSeparator (readWords rest).2).bind fun _ behind =>
        (readParallel behind).bind fun parallel behind =>
          (readKeyword .doWord behind).bind fun _ behind =>
            .found ⟨parallel, name, (readWords rest).1⟩ (skipOver isEnd behind)

/-- What stands between the test of a conditional and the statements it guards. -/
def readThen (test : Pipeline) (text : List Char) : Reading Pipeline :=
  (readKeyword .thenWord text).bind fun _ rest => .found test (skipOver isEnd rest)

theorem readTest_eq (text : List Char) :
    readTest text = (readPipeline text).bind fun test rest =>
      (readSeparator rest).bind fun _ rest => readThen test rest := rfl

/-- What stands between the values of a loop and its body. -/
def readDo (name : List Char) (values : List Word) (text : List Char) : Reading Head :=
  (readParallel text).bind fun parallel rest =>
    (readKeyword .doWord rest).bind fun _ rest =>
      .found ⟨parallel, name, values⟩ (skipOver isEnd rest)

/-- The values of a loop, up to the first statement of its body. -/
def readValues (name text : List Char) : Reading Head :=
  (readSeparator (readWords text).2).bind fun _ rest => readDo name (readWords text).1 rest

theorem readHead_of_none {text : List Char} (refused : readName? text = none) :
    readHead text = .stuck text := by
  rw [readHead, refused]

theorem readHead_of_some {text name rest : List Char} (found : readName? text = some (name, rest)) :
    readHead text = (readKeyword .inWord (skipFiller rest)).bind fun _ rest =>
      readValues name rest := by
  rw [readHead, found]
  rfl

/-- The value behind an assignment to a name, if the text is one. -/
def readAssigned? (text : List Char) : Option (List Char × List Char) :=
  match readName? text with
  | some (name, '=' :: value) => some (name, value)
  | _ => none

/-- A command that holds no statements. -/
def readSimple (text : List Char) : Reading Command :=
  match readAssigned? text with
  | some (name, value) =>
    .found (.assignment (.ofList name) (readPieces value).1) (skipFiller (readPieces value).2)
  | none => (readPipeline text).bind fun stages rest => .found (.pipeline stages) rest

/-! Reading ends in the text that was given. -/

theorem endsIn_readPipeline (text : List Char) : (readPipeline text).EndsIn text := by
  fun_induction readPipeline text with
  | case1 text starts more behind inductionHypothesis =>
      have suffix := suffix_readWords text
      rw [behind] at suffix
      have ends := (inductionHypothesis.of_suffix (suffix_skipOver more)).of_suffix
        ((List.suffix_cons '|' more).trans suffix)
      exact ends.bind fun _ rest => List.suffix_refl rest
  | case2 text starts noBar => exact suffix_readWords text
  | case3 text idle => exact List.suffix_refl text

theorem endsIn_readEnd (text : List Char) : (readEnd text).EndsIn text := by
  fun_cases readEnd text with
  | case1 => exact List.nil_suffix
  | case2 rest => exact (suffix_skipOver rest).trans (List.suffix_cons _ _)
  | case3 c rest noMark ends => exact (suffix_skipOver rest).trans (List.suffix_cons _ _)
  | case4 c rest noMark other => exact List.suffix_refl _

theorem endsIn_readSeparator (text : List Char) : (readSeparator text).EndsIn text := by
  fun_cases readSeparator text with
  | case1 => exact List.nil_suffix
  | case2 c rest ends => exact (suffix_skipOver rest).trans (List.suffix_cons _ _)
  | case3 c rest other => exact List.suffix_refl _

theorem suffix_skipFiller_behindWord (text : List Char) : skipFiller (behindWord text) <:+ text :=
  (suffix_skipFiller _).trans (suffix_behindWord text)

theorem endsIn_readKeyword (keyword : Keyword) (text : List Char) :
    (readKeyword keyword text).EndsIn text := by
  unfold readKeyword
  split
  · exact suffix_skipFiller_behindWord text
  · exact List.suffix_refl text

theorem endsIn_readParallel (text : List Char) : (readParallel text).EndsIn text := by
  unfold readParallel
  split
  · exact suffix_skipFiller_behindWord text
  · exact List.suffix_refl text

theorem endsIn_readThen (test : Pipeline) (text : List Char) : (readThen test text).EndsIn text :=
  (endsIn_readKeyword .thenWord text).bind fun _ rest => suffix_skipOver rest

theorem endsIn_readTest (text : List Char) : (readTest text).EndsIn text :=
  (endsIn_readPipeline text).bind fun test rest =>
    (endsIn_readSeparator rest).bind fun _ rest => endsIn_readThen test rest

theorem endsIn_readDo (name : List Char) (values : List Word) (text : List Char) :
    (readDo name values text).EndsIn text :=
  (endsIn_readParallel text).bind fun _ rest =>
    (endsIn_readKeyword .doWord rest).bind fun _ rest => suffix_skipOver rest

theorem endsIn_readValues (name text : List Char) :
    (readValues name text).EndsIn (readWords text).2 :=
  (endsIn_readSeparator _).bind fun _ rest => endsIn_readDo name _ rest

theorem endsIn_readHead (text : List Char) : (readHead text).EndsIn text := by
  cases found : readName? text with
  | none =>
      rw [readHead_of_none found]
      exact List.suffix_refl text
  | some pair =>
      obtain ⟨name, rest⟩ := pair
      have suffix : skipFiller rest <:+ text := by
        rw [eq_append_of_readName? found]
        exact (suffix_skipFiller rest).trans (List.suffix_append _ _)
      rw [readHead_of_some found]
      exact ((endsIn_readKeyword .inWord _).of_suffix suffix).bind fun _ rest =>
        (endsIn_readValues name rest).of_suffix (suffix_readWords rest)

theorem eq_append_of_readAssigned? {text name value : List Char}
    (found : readAssigned? text = some (name, value)) : text = name ++ '=' :: value := by
  unfold readAssigned? at found
  split at found
  · next name' value' named =>
      obtain ⟨rfl, rfl⟩ := Prod.mk.inj (Option.some.inj found)
      exact eq_append_of_readName? named
  · simp at found

theorem endsIn_readSimple (text : List Char) : (readSimple text).EndsIn text := by
  unfold readSimple
  split
  · next name value found =>
      rw [eq_append_of_readAssigned? found]
      exact ((suffix_skipFiller _).trans (suffix_readPieces value)).trans ⟨name ++ ['='], by simp⟩
  · exact (endsIn_readPipeline text).bind fun _ rest => List.suffix_refl rest

/-! A command is never empty. -/

theorem length_lt_of_readPipeline {text rest : List Char} {stages : Pipeline}
    (found : readPipeline text = .found stages rest) : rest.length < text.length := by
  by_cases starts : startsProgram text = true
  · have shorter := length_readWords_lt (startsProgram_iff.mp starts).2
    rw [readPipeline_of_starts starts] at found
    have ends : (readLinks (readWords text).2).EndsIn (readWords text).2 := by
      unfold readLinks
      split
      · next more behind =>
          rw [behind]
          exact (endsIn_readPipeline _).of_suffix
            ((suffix_skipOver more).trans (List.suffix_cons _ _))
      · exact List.suffix_refl _
    obtain ⟨programs, rest', links, same⟩ := Reading.bind_eq_found.mp found
    obtain ⟨rfl, rfl⟩ := Reading.found.inj same
    rw [links] at ends
    exact Nat.lt_of_le_of_lt (List.IsSuffix.length_le ends) shorter
  · rw [readPipeline_of_not_starts (by simpa using starts)] at found
    simp at found

theorem length_lt_of_readSimple {text rest : List Char} {command : Command}
    (found : readSimple text = .found command rest) : rest.length < text.length := by
  unfold readSimple at found
  split at found
  · next name value assigned =>
      obtain ⟨rfl, rfl⟩ := Reading.found.inj found
      have length_le := ((suffix_skipFiller _).trans (suffix_readPieces value)).length_le
      rw [eq_append_of_readAssigned? assigned]
      simp only [List.length_append, List.length_cons]
      omega
  · obtain ⟨stages, rest', piped, same⟩ := Reading.bind_eq_found.mp found
    obtain ⟨rfl, rfl⟩ := Reading.found.inj same
    exact length_lt_of_readPipeline piped

end CommandShell.Reader
