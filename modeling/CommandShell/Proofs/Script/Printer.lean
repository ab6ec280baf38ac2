import CommandShell.Proofs.Script.WellFormed

/-!
A text for every well-formed script. All literals are quoted and all references stand in braces, so
nothing that is printed can be taken for a word that divides or closes a statement.
-/

namespace CommandShell

open Reader (Keyword)

/-- A piece of a word, quoted or in braces. -/
def Word.print : Word → List Char
  | .literal text =>
    if text.toList.contains '\x27' then '\x22' :: (text.toList ++ ['\x22'])
    else '\x27' :: (text.toList ++ ['\x27'])
  | .reference name => '$' :: '\x7b' :: (name.toList ++ ['\x7d'])

/-- The pieces of a program in one word. -/
def printWords (words : List Word) : List Char := words.flatMap Word.print

def Pipeline.print : Pipeline → List Char
  | [] => []
  | [program] => printWords program
  | program :: stages => printWords program ++ '|' :: Pipeline.print stages

mutual

def Command.print : Command → List Char
  | .pipeline stages => Pipeline.print stages
  | .assignment name value => name.toList ++ '=' :: printWords value
  | .conditional branches fallback =>
    printBranches .ifWord branches ++ (printFallback fallback ++ Keyword.fiWord.letters)
  | .loop parallel binder values body =>
    Keyword.forWord.letters ++ ' ' :: (binder.text.toList ++
      ' ' :: (Keyword.inWord.letters ++ ' ' :: (printWords values ++
        ';' :: ((if parallel then Keyword.parallelWord.letters ++ [' '] else []) ++
          (Keyword.doWord.letters ++ ';' :: (printStatements body ++ Keyword.doneWord.letters))))))

/-- The branches of a conditional; the given word opens the first of them. -/
def printBranches (keyword : Keyword) : List Branch → List Char
  | [] => []
  | .mk test body :: branches =>
    keyword.letters ++ ' ' :: (Pipeline.print test ++ ';' :: (Keyword.thenWord.letters ++
      ';' :: (printStatements body ++ printBranches .elifWord branches)))

def printFallback : Option (List Statement) → List Char
  | none => []
  | some body => Keyword.elseWord.letters ++ ';' :: printStatements body

def printStatements : List Statement → List Char
  | [] => []
  | .mk command background :: statements =>
    command.print ++ (if background then '&' else ';') :: printStatements statements

end

def Script.print (script : Script) : List Char := printStatements script

namespace Reader

/-! Texts that start with a character of their own. -/

theorem cleared_of_isSolid {c : Char} (solid : isSolid c = true) (inside : isEnd c = false)
    (rest : List Char) : Cleared (c :: rest) :=
  skipOver_of_rejected (skipFiller_of_isSolid solid rest) (by simpa using inside)

/-! The pieces of a word, and what ends it. -/

theorem readName?_append {name : String} (named : isName name = true) {c : Char}
    (other : Rule.isNamePart c = false) (rest : List Char) :
    readName? (name.toList ++ c :: rest) = some (name.toList, c :: rest) := by
  unfold isName at named
  split at named
  · simp at named
  · next first letters same =>
      obtain ⟨starts, continues⟩ := Bool.and_eq_true_iff.mp named
      have all := List.all_eq_true.mp continues
      rw [same, List.cons_append, readName?, if_pos starts, List.takeWhile_append_of_pos all,
        List.dropWhile_append_of_pos all]
      simp [other]

theorem readReferred?_append {name : String} (referable : (Word.reference name).wellFormed = true)
    (rest : List Char) :
    readReferred? (name.toList ++ '\x7d' :: rest) = some (name.toList, '\x7d' :: rest) := by
  rcases Bool.or_eq_true_iff.mp referable with named | mark
  · have found := readName?_append named (by decide : Rule.isNamePart '\x7d' = false) rest
    unfold readReferred?
    split
    · next same =>
        rw [same] at found
        simp [readName?, Rule.isNameStart] at found
    · exact found
  · obtain rfl : name = "?" := by simpa using mark
    rfl

theorem readPiece?_print {word : Word} (wellFormed : word.wellFormed = true) (rest : List Char) :
    readPiece? (word.print ++ rest) = some (word, rest) := by
  cases word with
  | literal text =>
      rw [Word.print]
      split
      · next single =>
          have present : '\x27' ∈ text.toList := by simpa using single
          have absent : '\x22' ∉ text.toList := by simpa [Word.wellFormed, present] using wellFormed
          simp [readPiece?, readQuoted?_append absent]
      · next noSingle =>
          have absent : '\x27' ∉ text.toList := by simpa using noSingle
          simp [readPiece?, readQuoted?_append absent]
  | reference name =>
      simp [Word.print, readPiece?, readReference?, readReferred?_append wellFormed]

theorem readPieces_print {words : List Word} (wellFormed : words.all Word.wellFormed = true)
    {rest : List Char} (ended : readPiece? rest = none) :
    readPieces (printWords words ++ rest) = (words, rest) := by
  induction words with
  | nil => exact readPieces_of_none ended
  | cons word words inductionHypothesis =>
      obtain ⟨first, others⟩ := Bool.and_eq_true_iff.mp wellFormed
      have found := readPiece?_print first (printWords words ++ rest)
      rw [printWords, List.flatMap_cons, List.append_assoc, ← printWords, readPieces_of_some found,
        inductionHypothesis others]

/-- The characters that are printed behind words. -/
def isMark (c : Char) : Bool := c == ';' || c == '&' || c == '|'

theorem isSolid_of_isMark {c : Char} (mark : isMark c = true) : isSolid c = true := by
  simp only [isMark, Bool.or_eq_true, beq_iff_eq] at mark
  rcases mark with (rfl | rfl) | rfl <;> rfl

theorem readPiece?_of_isMark {c : Char} (mark : isMark c = true) (rest : List Char) :
    readPiece? (c :: rest) = none := by
  simp only [isMark, Bool.or_eq_true, beq_iff_eq] at mark
  rcases mark with (rfl | rfl) | rfl <;> rfl

theorem readWords_print {words : List Word} (wellFormed : words.all Word.wellFormed = true)
    {c : Char} (mark : isMark c = true) (rest : List Char) :
    readWords (printWords words ++ c :: rest) = (words, c :: rest) := by
  have ended := readPiece?_of_isMark mark rest
  have pieces := readPieces_print wellFormed ended
  by_cases empty : readPiece? (printWords words ++ c :: rest) = none
  · rw [readWords_of_none empty, ← readPieces_of_none empty, pieces]
  · rw [readWords_of_some empty, pieces, skipFiller_of_isSolid (isSolid_of_isMark mark),
      readWords_of_none ended]
    simp

/-! Pipelines. -/

/-- Whether a text starts the way printed words do. -/
def Opens (text : List Char) : Prop :=
  ∃ c rest, text = c :: rest ∧ (c == '\x27' || c == '\x22' || c == '$') = true

theorem opens_print (word : Word) (rest : List Char) : Opens (word.print ++ rest) := by
  cases word with
  | literal text =>
      rw [Word.print]
      split
      · exact ⟨_, _, rfl, rfl⟩
      · exact ⟨_, _, rfl, rfl⟩
  | reference name => exact ⟨_, _, rfl, rfl⟩

theorem opens_printWords {words : List Word} (nonempty : words ≠ []) (rest : List Char) :
    Opens (printWords words ++ rest) := by
  obtain ⟨word, words, rfl⟩ := List.exists_cons_of_ne_nil nonempty
  rw [printWords, List.flatMap_cons, List.append_assoc]
  exact opens_print word _

namespace Opens

variable {text : List Char}

theorem skipOver_eq (opens : Opens text) {accepts : Char → Bool}
    (rejected : ∀ c, accepts c = true → isEnd c = true) : skipOver accepts text = text := by
  obtain ⟨c, rest, rfl, opening⟩ := opens
  simp only [Bool.or_eq_true, beq_iff_eq] at opening
  refine skipOver_of_rejected ?_ ?_
  · rcases opening with (rfl | rfl) | rfl <;> exact skipFiller_of_isSolid rfl rest
  · cases accepted : accepts c with
    | false => simp [accepted]
    | true =>
        have ends := rejected c accepted
        rcases opening with (rfl | rfl) | rfl <;> simp [isEnd, isBreak] at ends

theorem reservedAt?_eq (opens : Opens text) : Keyword.reservedAt? text = none := by
  obtain ⟨c, rest, rfl, opening⟩ := opens
  simp only [Bool.or_eq_true, beq_iff_eq] at opening
  refine Keyword.reservedAt?_eq_none.mpr fun keyword membership same => ?_
  rcases opening with (rfl | rfl) | rfl <;> cases keyword <;>
    simp [firstWord, isBoundary, isEnd, isBreak, Keyword.letters] at same

theorem readAssigned?_eq (opens : Opens text) : readAssigned? text = none := by
  obtain ⟨c, rest, rfl, opening⟩ := opens
  simp only [Bool.or_eq_true, beq_iff_eq] at opening
  rcases opening with (rfl | rfl) | rfl <;> rfl

end Opens

theorem opens_printPipeline {stages : Pipeline} (wellFormed : stages.wellFormed = true)
    (rest : List Char) : Opens (stages.print ++ rest) := by
  fun_cases Pipeline.print stages with
  | case1 => simp [Pipeline.wellFormed] at wellFormed
  | case2 program =>
      exact opens_printWords
        (by rintro rfl; simp [Pipeline.wellFormed, Program.wellFormed] at wellFormed) _
  | case3 program stages more =>
      rw [List.append_assoc]
      exact opens_printWords
        (by rintro rfl; simp [Pipeline.wellFormed, Program.wellFormed] at wellFormed) _

theorem startsProgram_print {program : Program} (wellFormed : program.wellFormed = true)
    (rest : List Char) : startsProgram (printWords program ++ rest) = true := by
  obtain ⟨nonempty, words⟩ := Bool.and_eq_true_iff.mp wellFormed
  obtain ⟨word, more, rfl⟩ := List.exists_cons_of_ne_nil (by simpa using nonempty : program ≠ [])
  refine startsProgram_iff.mpr ⟨(opens_printWords (by simp) rest).reservedAt?_eq, ?_⟩
  rw [printWords, List.flatMap_cons, List.append_assoc,
    readPiece?_print (Bool.and_eq_true_iff.mp words).1]
  simp

theorem readPipeline_print {stages : Pipeline} (wellFormed : stages.wellFormed = true) {c : Char}
    (mark : (c == ';' || c == '&') = true) (rest : List Char) :
    readPipeline (stages.print ++ c :: rest) = .found stages (c :: rest) := by
  fun_induction Pipeline.print stages with
  | case1 => simp [Pipeline.wellFormed] at wellFormed
  | case2 program =>
      have programs : program.wellFormed = true := by simpa [Pipeline.wellFormed] using wellFormed
      have words := readWords_print (Bool.and_eq_true_iff.mp programs).2
        (by simp [isMark, mark] : isMark c = true) rest
      have noBar : c ≠ '|' := by rintro rfl; simp at mark
      rw [readPipeline_of_starts (startsProgram_print programs _), words]
      simp [readLinks, noBar]
  | case3 program stages more inductionHypothesis =>
      obtain ⟨programs, others⟩ : program.wellFormed = true ∧
          Pipeline.wellFormed stages = true := by
        simp_all [Pipeline.wellFormed]
      have words := readWords_print (Bool.and_eq_true_iff.mp programs).2
        (by rfl : isMark '|' = true) (Pipeline.print stages ++ c :: rest)
      have settled := (opens_printPipeline others (c :: rest)).skipOver_eq
        (fun c breaks => by simp [isEnd, breaks] : ∀ c, isBreak c = true → isEnd c = true)
      rw [List.append_assoc, List.cons_append,
        readPipeline_of_starts (startsProgram_print programs _), words]
      simp only [readLinks]
      rw [settled, inductionHypothesis others]
      rfl

/-! Words that divide compound statements, and what stands between them. -/

theorem firstWord_letters (keyword : Keyword) {c : Char} (boundary : isBoundary c = true)
    (rest : List Char) : firstWord (keyword.letters ++ c :: rest) = keyword.letters := by
  have all : ∀ letter ∈ keyword.letters, (!isBoundary letter) = true := by
    intro letter membership
    simp [Keyword.isBoundary_of_mem_letters letter membership]
  rw [firstWord, List.takeWhile_append_of_pos all]
  simp [boundary]

theorem behindWord_letters (keyword : Keyword) {c : Char} (boundary : isBoundary c = true)
    (rest : List Char) : behindWord (keyword.letters ++ c :: rest) = c :: rest := by
  have same := firstWord_append_behindWord (keyword.letters ++ c :: rest)
  rw [firstWord_letters keyword boundary] at same
  exact List.append_cancel_left same

theorem cleared_letters (keyword : Keyword) (rest : List Char) :
    Cleared (keyword.letters ++ rest) := by
  cases keyword <;> exact cleared_of_isSolid rfl rfl _

theorem readKeyword_letters (keyword : Keyword) {c : Char} (boundary : isBoundary c = true)
    (rest : List Char) :
    readKeyword keyword (keyword.letters ++ c :: rest) = .found () (skipFiller (c :: rest)) := by
  rw [readKeyword, if_pos (firstWord_letters keyword boundary rest),
    behindWord_letters keyword boundary rest]

theorem readSeparator_semicolon {rest : List Char} (cleared : Cleared rest) :
    readSeparator (';' :: rest) = .found () rest := by
  have ends : isEnd ';' = true := by rfl
  rw [readSeparator, if_pos ends, cleared]

theorem skipOver_semicolon {rest : List Char} (cleared : Cleared rest) :
    skipOver isEnd (';' :: rest) = rest := by
  rw [skipOver_cons (skipFiller_of_isSolid rfl rest) rfl, cleared]

theorem readEnd_print (background : Bool) {rest : List Char} (cleared : Cleared rest) :
    readEnd ((if background then '&' else ';') :: rest) = .found background rest := by
  have ends : isEnd ';' = true := by rfl
  cases background with
  | true => rw [if_pos rfl, readEnd, cleared]
  | false => rw [if_neg (by simp), readEnd, if_pos ends, cleared]; simp

theorem readTest_print {test : Pipeline} (wellFormed : test.wellFormed = true) {rest : List Char}
    (cleared : Cleared rest) :
    readTest (test.print ++ ';' :: (Keyword.thenWord.letters ++ ';' :: rest)) =
      .found test rest := by
  rw [readTest, readPipeline_print wellFormed rfl, Reading.found_bind,
    readSeparator_semicolon (cleared_letters _ _), Reading.found_bind,
    readKeyword_letters .thenWord rfl, Reading.found_bind, skipOver_skipFiller,
    skipOver_semicolon cleared]

theorem trimmed_printWords (words : List Word) (rest : List Char) :
    skipFiller (printWords words ++ ';' :: rest) = printWords words ++ ';' :: rest := by
  by_cases empty : words = []
  · rw [empty]
    exact skipFiller_of_isSolid rfl rest
  · have cleared : Cleared (printWords words ++ ';' :: rest) :=
      (opens_printWords empty _).skipOver_eq fun c ends => ends
    exact cleared.trimmed

theorem readParallel_print (parallel : Bool) (rest : List Char) :
    readParallel ((if parallel then Keyword.parallelWord.letters ++ [' '] else []) ++
      (Keyword.doWord.letters ++ ';' :: rest)) =
        .found parallel (Keyword.doWord.letters ++ ';' :: rest) := by
  cases parallel with
  | true =>
      rw [if_pos rfl, List.append_assoc, List.singleton_append, readParallel,
        if_pos (firstWord_letters _ rfl _), behindWord_letters _ rfl, skipFiller_space,
        (cleared_letters _ _).trimmed]
  | false =>
      have noMark :
          firstWord (Keyword.doWord.letters ++ ';' :: rest) ≠ Keyword.parallelWord.letters := by
        rw [firstWord_letters _ rfl]
        decide
      rw [if_neg (by simp), List.nil_append, readParallel, if_neg noMark]

theorem readHead_print {name : String} (named : isName name = true) {values : List Word}
    (wellFormed : values.all Word.wellFormed = true) (parallel : Bool) {rest : List Char}
    (cleared : Cleared rest) :
    readHead (name.toList ++ ' ' :: (Keyword.inWord.letters ++ ' ' :: (printWords values ++
      ';' :: ((if parallel then Keyword.parallelWord.letters ++ [' '] else []) ++
        (Keyword.doWord.letters ++ ';' :: rest))))) =
          .found ⟨parallel, name.toList, values⟩ rest := by
  have cleared' : Cleared ((if parallel then Keyword.parallelWord.letters ++ [' '] else []) ++
      (Keyword.doWord.letters ++ ';' :: rest)) := by
    cases parallel with
    | true =>
        rw [if_pos rfl, List.append_assoc]
        exact cleared_letters _ _
    | false => exact cleared_letters _ _
  rw [readHead, readName?_append named (by decide)]
  simp only [skipFiller_space, (cleared_letters _ _).trimmed,
    readKeyword_letters .inWord (c := ' ') rfl, Reading.found_bind, trimmed_printWords,
    readWords_print wellFormed (c := ';') rfl, readSeparator_semicolon cleared', readParallel_print,
    readKeyword_letters .doWord (c := ';') rfl, skipOver_skipFiller, skipOver_semicolon cleared]

/-! Whole statements. -/

theorem isSolid_of_isNameStart {c : Char} (starts : Rule.isNameStart c = true) :
    isSolid c = true := by
  cases solid : isSolid c with
  | true => rfl
  | false =>
      simp only [isSolid, Bool.not_eq_false', Bool.or_eq_true, beq_iff_eq] at solid
      rcases solid with ((rfl | rfl) | rfl) | rfl <;> simp [Rule.isNameStart] at starts

theorem isEnd_of_isNameStart {c : Char} (starts : Rule.isNameStart c = true) : isEnd c = false := by
  cases ends : isEnd c with
  | false => rfl
  | true =>
      simp only [isEnd, isBreak, Bool.or_eq_true, beq_iff_eq] at ends
      rcases ends with rfl | rfl | rfl <;> simp [Rule.isNameStart] at starts

theorem cleared_name {name : String} (named : isName name = true) (rest : List Char) :
    Cleared (name.toList ++ rest) := by
  unfold isName at named
  split at named
  · simp at named
  · next first letters same =>
      have starts := (Bool.and_eq_true_iff.mp named).1
      rw [same, List.cons_append]
      exact cleared_of_isSolid (isSolid_of_isNameStart starts) (isEnd_of_isNameStart starts) _

theorem cleared_printCommand {command : Command} (wellFormed : command.wellFormed = true)
    (rest : List Char) : Cleared (command.print ++ rest) := by
  cases command with
  | pipeline stages =>
      rw [Command.wellFormed] at wellFormed
      rw [Command.print]
      exact (opens_printPipeline wellFormed rest).skipOver_eq fun c ends => ends
  | assignment name value =>
      rw [Command.wellFormed] at wellFormed
      rw [Command.print, List.append_assoc]
      exact cleared_name (Bool.and_eq_true_iff.mp wellFormed).1 _
  | conditional branches fallback =>
      cases branches with
      | nil => simp [Command.wellFormed] at wellFormed
      | cons branch branches =>
          obtain ⟨test, body⟩ := branch
          rw [Command.print, printBranches, List.append_assoc, List.append_assoc]
          exact cleared_letters _ _
  | loop parallel binder values body =>
      rw [Command.print, List.append_assoc]
      exact cleared_letters _ _

theorem cleared_printStatements {statements : List Statement}
    (wellFormed : statementsWellFormed statements = true) {rest : List Char}
    (cleared : Cleared rest) :
    Cleared (printStatements statements ++ rest) := by
  cases statements with
  | nil => exact cleared
  | cons statement statements =>
      obtain ⟨command, background⟩ := statement
      rw [statementsWellFormed] at wellFormed
      rw [printStatements, List.append_assoc]
      exact cleared_printCommand (Bool.and_eq_true_iff.mp wellFormed).1 _

theorem cleared_printBranches (branches : List Branch) {rest : List Char} (cleared : Cleared rest) :
    Cleared (printBranches .elifWord branches ++ rest) := by
  cases branches with
  | nil => exact cleared
  | cons branch branches =>
      obtain ⟨test, body⟩ := branch
      rw [printBranches, List.append_assoc]
      exact cleared_letters _ _

theorem cleared_printFallback (fallback : Option (List Statement)) {rest : List Char}
    (cleared : Cleared rest) : Cleared (printFallback fallback ++ rest) := by
  cases fallback with
  | none => exact cleared
  | some body =>
      rw [printFallback, List.append_assoc]
      exact cleared_letters _ _

theorem run_letters (keyword : Keyword) (membership : keyword ∈ Keyword.reserved) {c : Char}
    (boundary : isBoundary c = true) (rest : List Char) (state : State) :
    run state (keyword.letters ++ c :: rest) =
      resume (readReserved state keyword (keyword.letters ++ c :: rest)) :=
  run_of_reserved membership (firstWord_letters keyword boundary rest) state

theorem behind_print (keyword : Keyword) {test : Pipeline} (wellFormed : test.wellFormed = true)
    (rest : List Char) :
    skipFiller (behindWord (keyword.letters ++ ' ' :: (test.print ++ rest))) = test.print ++
      rest := by
  have cleared : Cleared (test.print ++ rest) :=
    (opens_printPipeline wellFormed rest).skipOver_eq fun c ends => ends
  rw [behindWord_letters keyword rfl, skipFiller_space, cleared.trimmed]

theorem run_close {state outer : State} {keyword : Keyword} {command : Command}
    (membership : keyword = .fiWord ∨ keyword = .doneWord)
    (left : state.leave? keyword = some (command, outer)) {c : Char}
    (mark : (c == ';' || c == '&') = true) (rest : List Char) :
    run state (keyword.letters ++ c :: rest) = resume (readRest outer command (c :: rest)) := by
  have boundary : isBoundary c = true := by
    simp only [Bool.or_eq_true, beq_iff_eq] at mark
    rcases mark with rfl | rfl <;> rfl
  have trimmed : skipFiller (c :: rest) = c :: rest :=
    skipFiller_of_isSolid (isSolid_of_isMark (by simp [isMark, mark])) rest
  have closes : readReserved state keyword (keyword.letters ++ c :: rest) =
      readRest outer command (c :: rest) := by
    rcases membership with rfl | rfl <;>
      simp only [readReserved, readClosing, left, behindWord_letters _ boundary, trimmed]
  have reserved : keyword ∈ Keyword.reserved := by rcases membership with rfl | rfl <;> decide
  rw [run_letters keyword reserved boundary, closes]

mutual

theorem run_printCommand : ∀ {command : Command}, command.wellFormed = true →
    ∀ (state : State) (c : Char) (rest : List Char), (c == ';' || c == '&') = true →
      run state (command.print ++ c :: rest) = resume (readRest state command (c :: rest))
  | .pipeline stages, wellFormed, state, c, rest, mark => by
      rw [Command.wellFormed] at wellFormed
      have opens := opens_printPipeline wellFormed (c :: rest)
      have going : Pipeline.print stages ++ c :: rest ≠ [] ∨ state.stack ≠ [] := Or.inl (by simp)
      rw [Command.print, run_eq going, step, opens.reservedAt?_eq]
      simp only [readSimple, opens.readAssigned?_eq, readPipeline_print wellFormed mark,
        Reading.found_bind]
  | .assignment name value, wellFormed, state, c, rest, mark => by
      rw [Command.wellFormed] at wellFormed
      obtain ⟨named, words⟩ := Bool.and_eq_true_iff.mp wellFormed
      have marks : isMark c = true := by simp [isMark, mark]
      have assigned : readAssigned? (name.toList ++ '=' :: (printWords value ++ c :: rest)) =
          some (name.toList, printWords value ++ c :: rest) := by
        simp only [readAssigned?, readName?_append named (c := '=') (by decide)]
      have free : Keyword.reservedAt? (name.toList ++ '=' :: (printWords value ++ c :: rest)) =
          none := by
        cases reserved :
          Keyword.reservedAt? (name.toList ++ '=' :: (printWords value ++ c :: rest)) with
        | none => rfl
        | some keyword =>
            rw [readAssigned?_of_reserved (Keyword.reservedAt?_eq_some.mp reserved).2] at assigned
            simp at assigned
      rw [Command.print, List.append_assoc, List.cons_append, run_eq (Or.inl (by simp)), step, free]
      simp only [readSimple, assigned, readPieces_print words (readPiece?_of_isMark marks rest),
        skipFiller_of_isSolid (isSolid_of_isMark marks), String.ofList_toList, Reading.found_bind]
  | .conditional [] fallback, wellFormed, _, _, _, _ => by simp [Command.wellFormed] at wellFormed
  | .conditional (.mk test body :: branches) fallback, wellFormed, state, c, rest, mark => by
      simp only [Command.wellFormed, branchesWellFormed, Bool.and_eq_true] at wellFormed
      obtain ⟨⟨_, ⟨tests, statements⟩, others⟩, last⟩ := wellFormed
      have cleared := cleared_printFallback fallback (cleared_letters .fiWord (c :: rest))
      have inside := cleared_printBranches branches cleared
      simp only [Command.print, printBranches, List.append_assoc, List.cons_append]
      rw [run_letters .ifWord (by decide) rfl, readReserved, behind_print .ifWord tests,
        readTest_print tests (cleared_printStatements statements inside)]
      simp only [Reading.found_bind, resume]
      rw [run_printStatements statements _ _ inside]
      exact run_printBranches others state [] test body _ (fun branches =>
        resume (readRest state (.conditional branches fallback) (c :: rest))) cleared
        fun before test current => run_printFallback last state before test current c rest mark
  | .loop parallel (.reference name) values body, wellFormed, _, _, _, _ => by
      simp [Command.wellFormed, Word.isBinder] at wellFormed
  | .loop parallel (.literal name) values body, wellFormed, state, c, rest, mark => by
      simp only [Command.wellFormed, Bool.and_eq_true] at wellFormed
      obtain ⟨⟨named, words⟩, statements⟩ := wellFormed
      have cleared := cleared_letters .doneWord (c :: rest)
      simp only [Command.print, Word.text, List.append_assoc, List.cons_append]
      rw [run_letters .forWord (by decide) rfl, readReserved, behindWord_letters .forWord rfl,
        skipFiller_space, (cleared_name named _).trimmed,
        readHead_print named words parallel (cleared_printStatements statements cleared)]
      simp only [Reading.found_bind, resume]
      rw [run_printStatements statements _ _ cleared]
      refine run_close (Or.inr rfl) ?_ mark rest
      simp [State.leave?, State.enter, State.extend]

theorem run_printBranches : ∀ {branches : List Branch}, branchesWellFormed branches = true →
    ∀ (state : State) (before : List Branch) (test : Pipeline) (current : List Statement)
      (rest : List Char) (result : List Branch → Except (List Char) Script),
      Cleared rest →
      (∀ before test current,
        run (Rule.inBranch before test current state) rest =
          result (before ++ [.mk test current])) →
      run (Rule.inBranch before test current state) (printBranches .elifWord branches ++ rest) =
        result (before ++ .mk test current :: branches)
  | [], _, state, before, test, current, rest, result, _, closes => closes before test current
  | .mk test' body :: branches, wellFormed, state, before, test, current, rest, result, cleared,
      closes => by
      simp only [branchesWellFormed, Bool.and_eq_true] at wellFormed
      obtain ⟨⟨tests, statements⟩, others⟩ := wellFormed
      have inside := cleared_printBranches branches cleared
      have divided : (Rule.inBranch before test current state).branches? =
          some (before ++ [.mk test current], state) := rfl
      simp only [printBranches, List.append_assoc, List.cons_append]
      rw [run_letters .elifWord (by decide) rfl]
      simp only [readReserved, divided, behind_print .elifWord tests,
        readTest_print tests (cleared_printStatements statements inside), Reading.found_bind,
        resume]
      rw [run_printStatements statements _ _ inside]
      have runs :=
        run_printBranches others state (before ++ [.mk test current]) test' body rest result
        cleared closes
      rwa [List.append_assoc, List.singleton_append] at runs

theorem run_printFallback :
    ∀ {fallback : Option (List Statement)}, fallbackWellFormed fallback = true →
    ∀ (state : State) (branches : List Branch) (test : Pipeline) (current : List Statement)
      (c : Char) (rest : List Char), (c == ';' || c == '&') = true →
      run (Rule.inBranch branches test current state)
          (printFallback fallback ++ (Keyword.fiWord.letters ++ c :: rest)) =
        resume (readRest state (.conditional (branches ++ [.mk test current]) fallback) (c :: rest))
  | none, _, state, branches, test, current, c, rest, mark => run_close (Or.inl rfl) rfl mark rest
  | some body, wellFormed, state, branches, test, current, c, rest, mark => by
      have divided : (Rule.inBranch branches test current state).branches? =
          some (branches ++ [.mk test current], state) := rfl
      have cleared := cleared_letters .fiWord (c :: rest)
      rw [fallbackWellFormed] at wellFormed
      rw [printFallback, List.append_assoc, List.cons_append, run_letters .elseWord (by decide) rfl]
      simp only [readReserved, divided, behindWord_letters .elseWord (c := ';') rfl,
        skipOver_skipFiller, skipOver_semicolon (cleared_printStatements wellFormed cleared),
        resume]
      rw [run_printStatements wellFormed _ _ cleared]
      exact run_close (Or.inl rfl) rfl mark rest

theorem run_printStatements : ∀ {statements : List Statement},
    statementsWellFormed statements = true → ∀ (state : State) (rest : List Char), Cleared rest →
      run state (printStatements statements ++ rest) = run (state.extend statements) rest
  | [], _, state, rest, _ => by simp [printStatements]
  | .mk command background :: statements, wellFormed, state, rest, cleared => by
      rw [statementsWellFormed] at wellFormed
      obtain ⟨first, others⟩ := Bool.and_eq_true_iff.mp wellFormed
      have mark : ((if background then '&' else ';') == ';' ||
          (if background then '&' else ';') == '&') = true := by
        cases background <;> rfl
      rw [printStatements, List.append_assoc, List.cons_append,
        run_printCommand first state _ _ mark, readRest,
        readEnd_print background (cleared_printStatements others cleared), Reading.found_bind,
        resume, run_printStatements others _ rest cleared, State.extend_extend]
      rfl

end

/-- What is printed is read as the script that was printed. -/
theorem read_print {script : Script} (wellFormed : script.wellFormed = true) :
    read script.print = .ok script := by
  have cleared : Cleared [] := skipOver_nil
  have runs := run_printStatements wellFormed .start [] cleared
  have settled := cleared_printStatements wellFormed cleared
  rw [List.append_nil] at runs settled
  rw [read, Script.print, settled, runs, run_nil rfl]
  rfl

end Reader

/-- The scripts that have a text are the well-formed ones. -/
theorem Script.exists_parse_iff (script : Script) :
    (∃ text : String, Script.parse text = .ok script) ↔ script.wellFormed = true := by
  constructor
  · rintro ⟨text, parsed⟩
    exact wellFormed_of_parseChars parsed
  · intro wellFormed
    refine ⟨.ofList script.print, ?_⟩
    rw [Script.parse, String.toList_ofList]
    exact parseChars_of_read_ok (Reader.read_print wellFormed)

-- Bodies, values and literals may be empty, and a literal may hold a line break, a NUL or a
-- keyword.
example : Script.wellFormed
    [.mk (.assignment "x" []) true,
     .mk (.loop true (.literal "x") [] []) false,
     .mk (.conditional [.mk [[.literal ""]] []] (some [])) true,
     .mk (.pipeline [[.literal "\n", .literal "\x00", .literal "fi"], [.reference "?"]]) false] =
       true := by
  decide

end CommandShell
