import CommandShell.Proofs.Reader.ClauseRule
import CommandShell.Proofs.Reader.Machine
import CommandShell.Proofs.Script.Ranking

/-!
The grammar matches statements as the machine reads them. A statement that the grammar matches takes
the machine from its start to the start of the next one; where the grammar refuses a statement,
either none can start there, or the machine gets stuck at the furthest refusal.
-/

namespace CommandShell.Reader

/-- Whether a statement may start here. -/
def opens (text : List Char) : Bool :=
  match Keyword.reservedAt? text with
  | some keyword => keyword = .ifWord || keyword = .forWord
  | none => (readPiece? text).isSome

theorem opens_of_reserved {text : List Char} {keyword : Keyword}
    (reserved : Keyword.reservedAt? text = some keyword) :
    opens text = (decide (keyword = .ifWord) || decide (keyword = .forWord)) := by
  simp [opens, reserved]

theorem opens_of_free {text : List Char} (free : Keyword.reservedAt? text = none) :
    opens text = (readPiece? text).isSome := by
  simp [opens, free]

/-- Where a statement may start, no compound statement is divided or closed. -/
theorem firstWord_ne_of_opens {text : List Char} (opened : opens text = true) {keyword : Keyword}
    (membership : keyword ∈ Keyword.reserved) (notIf : keyword ≠ .ifWord)
    (notFor : keyword ≠ .forWord) :
    firstWord text ≠ keyword.letters := by
  intro starts
  rw [opens_of_reserved (Keyword.reservedAt?_eq_some.mpr ⟨membership, starts⟩)] at opened
  simp [notIf, notFor] at opened

theorem firstWord_ne_of_not_opens {text : List Char} (closed : opens text = false) :
    firstWord text ≠ Keyword.ifWord.letters ∧ firstWord text ≠ Keyword.forWord.letters := by
  constructor <;> intro starts
  · rw [opens_of_reserved (Keyword.reservedAt?_eq_some.mpr ⟨by decide, starts⟩)] at closed
    simp at closed
  · rw [opens_of_reserved (Keyword.reservedAt?_eq_some.mpr ⟨by decide, starts⟩)] at closed
    simp at closed

theorem startsProgram_of_not_opens {text : List Char} (closed : opens text = false) :
    startsProgram text = false := by
  cases reserved : Keyword.reservedAt? text with
  | some keyword => simp [startsProgram, reserved]
  | none =>
      rw [opens_of_free reserved] at closed
      simp [startsProgram, reserved, closed]

theorem isBoundary_of_isNamePart {c : Char} (part : Rule.isNamePart c = true) :
    isBoundary c = false := by
  cases boundary : isBoundary c with
  | false => rfl
  | true =>
      simp only [isBoundary, isEnd, isBreak, Bool.or_eq_true, beq_iff_eq] at boundary
      rcases boundary with ((((rfl | rfl) | rfl | rfl | rfl) | rfl) | rfl) | rfl <;> contradiction

theorem isNamePart_of_isNameStart {c : Char} (starts : Rule.isNameStart c = true) :
    Rule.isNamePart c = true := by
  simp only [Rule.isNameStart, Rule.isNamePart, Char.isAlphanum, Bool.or_eq_true] at starts ⊢
  rcases starts with alpha | underscore
  · exact Or.inl (Or.inl alpha)
  · exact Or.inr underscore

theorem isNamePart_of_readName? {text name rest : List Char}
    (found : readName? text = some (name, rest)) :
    ∀ c ∈ name, Rule.isNamePart c = true := by
  cases text with
  | nil => simp [readName?] at found
  | cons d text =>
      simp only [readName?, Option.ite_none_right_eq_some, Option.some.injEq,
        Prod.mk.injEq] at found
      obtain ⟨starts, rfl, rfl⟩ := found
      intro c membership
      rcases List.mem_cons.mp membership with rfl | later
      · exact isNamePart_of_isNameStart starts
      · exact List.all_eq_true.mp List.all_takeWhile c later

theorem readAssigned?_eq_some {text name value : List Char} :
    readAssigned? text = some (name, value) ↔ readName? text = some (name, '=' :: value) := by
  unfold readAssigned?
  split <;> simp_all

theorem readAssigned?_of_reserved {text : List Char} {keyword : Keyword}
    (starts : firstWord text = keyword.letters) : readAssigned? text = none := by
  cases assigned : readAssigned? text with
  | none => rfl
  | some pair =>
      obtain ⟨name, value⟩ := pair
      have named := readAssigned?_eq_some.mp assigned
      have word : firstWord text = name ++ '=' :: firstWord value := by
        rw [eq_append_of_readName? named, firstWord, List.takeWhile_append_of_pos]
        · simp [firstWord, isBoundary, isEnd, isBreak]
        · intro c membership
          simp [isBoundary_of_isNamePart (isNamePart_of_readName? named c membership)]
      have impossible : '=' ∈ keyword.letters := by
        rw [← starts, word]
        simp
      cases keyword <;> simp [Keyword.letters] at impossible

theorem isDelimiter_of_isNamePart {c : Char} (part : Rule.isNamePart c = true) :
    isDelimiter c = false := by
  cases delimiter : isDelimiter c with
  | false => rfl
  | true =>
      simp only [isDelimiter, isEnd, isBreak, Bool.or_eq_true, beq_iff_eq] at delimiter
      rcases delimiter with
        ((((((rfl | rfl) | rfl | rfl | rfl) | rfl) | rfl) | rfl) | rfl) | rfl <;>
        contradiction

theorem readPiece?_of_plain {c : Char} {text : List Char} (plain : isDelimiter c = false) :
    readPiece? (c :: text) =
      some (.literal (.ofList (c :: text.takeWhile fun c => !isDelimiter c)),
        text.dropWhile fun c => !isDelimiter c) := by
  unfold readPiece?
  split
  · next same => simp [(List.cons.inj same).1, isDelimiter] at plain
  · next same => simp [(List.cons.inj same).1, isDelimiter] at plain
  · next same => simp [(List.cons.inj same).1, isDelimiter] at plain
  · simp [readPlain?, plain]

theorem readAssigned?_of_no_piece {text : List Char} (unread : readPiece? text = none) :
    readAssigned? text = none := by
  cases assigned : readAssigned? text with
  | none => rfl
  | some pair =>
      obtain ⟨name, value⟩ := pair
      have named := readAssigned?_eq_some.mp assigned
      cases text with
      | nil => simp [readName?] at named
      | cons c text =>
          simp only [readName?, Option.ite_none_right_eq_some] at named
          have plain := isDelimiter_of_isNamePart (isNamePart_of_isNameStart named.1)
          simp [readPiece?_of_plain plain] at unread

theorem readAssigned?_of_not_opens {text : List Char} (closed : opens text = false) :
    readAssigned? text = none := by
  cases reserved : Keyword.reservedAt? text with
  | some keyword => exact readAssigned?_of_reserved (Keyword.reservedAt?_eq_some.mp reserved).2
  | none =>
      rw [opens_of_free reserved] at closed
      exact readAssigned?_of_no_piece (by simpa using closed)

/-- A text with neither filler nor the end of a statement at its start. -/
def Cleared (text : List Char) : Prop := skipOver isEnd text = text

theorem Cleared.trimmed {text : List Char} (cleared : Cleared text) : skipFiller text = text := by
  rw [← cleared, skipFiller_skipOver]

theorem cleared_skipOver (text : List Char) : Cleared (skipOver isEnd text) :=
  skipOver_skipOver text

theorem cleared_of_readEnd {text behind : List Char} {background : Bool}
    (found : readEnd text = .found background behind) : Cleared behind := by
  unfold readEnd at found
  split at found
  · obtain ⟨_, rfl⟩ := Reading.found.inj found
    exact skipOver_nil
  · obtain ⟨_, rfl⟩ := Reading.found.inj found
    exact cleared_skipOver _
  · split at found
    · obtain ⟨_, rfl⟩ := Reading.found.inj found
      exact cleared_skipOver _
    · simp at found

end CommandShell.Reader

namespace CommandShell.Rule

open Peg Reader

variable {total : Nat}

/-- A tree that stands for a command, whatever stands around it. -/
def Stands (tree : Peg.Tree Rule) (command : Command) : Prop :=
  ∀ text marks trees, statementsOfTrees? (.node .statement text (tree :: marks) :: trees) =
    (statementsOfTrees? trees).map (.mk command (hasNode .background marks) :: ·)

theorem stands_pipeline {tree : Peg.Tree Rule} {stages : Pipeline}
    (isPipeline : tree.rule = .pipeline) (means : Pipeline.ofTree? tree = some stages) :
    Stands tree (.pipeline stages) := by
  intro text marks trees
  obtain ⟨rule, inside, parts⟩ := tree
  obtain rfl : rule = .pipeline := isPipeline
  cases later : statementsOfTrees? trees <;> simp [statementsOfTrees?, means, later]

theorem stands_assignment {tree : Peg.Tree Rule} {command : Command}
    (isAssignment : tree.rule = .assignment)
    (means : Command.assignmentOf? tree.children = some command) : Stands tree command := by
  intro text marks trees
  obtain ⟨rule, inside, parts⟩ := tree
  obtain rfl : rule = .assignment := isAssignment
  have means : Command.assignmentOf? parts = some command := means
  cases later : statementsOfTrees? trees <;> simp [statementsOfTrees?, means, later]

/-- The commands a statement may hold. -/
def choice : Expr Rule :=
  .oneOf (.call .conditional) [.call .loop, .call .assignment, .call .pipeline]

theorem conditional_refused {text : List Char} (other : firstWord text ≠ Keyword.ifWord.letters) :
    grammar.Derives total (.call .conditional) .loose .straight text
      none [text.length, text.length] := by
  have inside : grammar.Derives total (grammar.body .conditional) .loose .straight text none _ :=
    .seqRefused (keyword_refused other)
  exact inside.call_none (by decide)

theorem loop_refused {text : List Char} (other : firstWord text ≠ Keyword.forWord.letters) :
    grammar.Derives total (.call .loop) .loose .straight text none [text.length, text.length] := by
  have inside : grammar.Derives total (grammar.body .loop) .loose .straight text none _ :=
    .seqRefused (keyword_refused other)
  exact inside.call_none (by decide)

theorem choice_none (total : Nat) {text : List Char} {refusals refusals' : List Nat}
    (trimmed : skipFiller text = text) (idle : startsProgram text = false)
    (unassigned : readAssigned? text = none)
    (conditional : grammar.Derives total (.call .conditional) .loose .straight text none refusals)
    (loop : grammar.Derives total (.call .loop) .loose .straight text none refusals') :
    ∃ later,
      grammar.Derives total choice .loose .straight text none (refusals ++ (refusals' ++ later)) ∧
      Furthest text.length later := by
  obtain ⟨refusals'', derived, furthest⟩ := assignment_none total unassigned
  obtain ⟨refusals3, derived', furthest'⟩ := pipeline_none total trimmed idle
  exact ⟨_, .altSecond conditional (.altSecond loop (.altSecond derived derived')),
    furthest.append_left furthest'.least⟩

/-- What the grammar and the machine make of the statement at the start of a text. -/
inductive StatementAt (total : Nat) (text : List Char) : Prop where
  /-- None can start here. -/
  | refused {refusals} (closed : opens text = false)
      (derived : grammar.Derives total (.call .statement) .loose .straight text none refusals)
      (furthest : Furthest text.length refusals)
  /-- Both come to the next one. -/
  | matched {tree rest refusals statement}
      (derived : grammar.Derives total (.call .statement) .loose .straight text
        (some ([tree], rest))
        refusals)
      (means : ∀ trees, statementsOfTrees? (tree :: trees) =
        (statementsOfTrees? trees).map (statement :: ·))
      (cleared : Cleared (skipFiller rest))
      (least : ∀ refusal ∈ refusals, (skipFiller rest).length ≤ refusal)
      (runs : ∀ state, run state text = run (state.extend [statement]) (skipFiller rest))
  /-- One starts here, and it goes wrong. -/
  | stuck {refusals stuck} (opened : opens text = true)
      (derived : grammar.Derives total (.call .statement) .loose .straight text none refusals)
      (furthest : Furthest stuck.length refusals) (shorter : stuck.length ≤ text.length)
      (runs : ∀ state, run state text = .error stuck)

theorem statementAt_of_command {text rest : List Char} {tree : Peg.Tree Rule} {command : Command}
    {refusals : List Nat} (opened : opens text = true)
    (derived : grammar.Derives total choice .loose .straight text (some ([tree], rest)) refusals)
    (stands : Stands tree command)
    (least : ∀ refusal ∈ refusals, (skipFiller rest).length ≤ refusal)
    (runs : ∀ state, run state text = resume (readRest state command (skipFiller rest))) :
    StatementAt total text := by
  have ends := endsIn_readEnd (skipFiller rest)
  cases ended : readEnd (skipFiller rest) with
  | found background behind =>
      rw [ended] at ends
      obtain ⟨marks, rest', refusals', derivedEnd, marked, reached, leastEnd⟩ :=
        ending_some total ended
      refine .matched (.call_some (by decide) (derives_seq derived rfl derivedEnd))
        (stands _ marks) ?_ ?_ fun state => ?_
      · rw [reached]
        exact cleared_of_readEnd ended
      · rw [reached]
        refine List.forall_mem_append.mpr ⟨fun refusal membership => ?_, leastEnd⟩
        exact Nat.le_trans ends.length_le (least refusal membership)
      · rw [runs, reached, readRest, ended, marked]
        rfl
  | stuck stuck =>
      rw [ended] at ends
      obtain ⟨refusals', derivedEnd, furthest⟩ := ending_none total ended
      have shorter : stuck.length ≤ text.length := by
        have readLength : rest.length ≤ text.length := derived.length_le _ rfl
        exact Nat.le_trans (ends.trans (suffix_skipFiller rest)).length_le readLength
      refine .stuck opened (.call_none (by decide) (derives_seq derived rfl derivedEnd)) ?_ shorter
        fun state => ?_
      · refine (furthest.append_right fun refusal membership => ?_).append_left
          (by simpa using shorter)
        exact Nat.le_trans ends.length_le (least refusal membership)
      · rw [runs, readRest, ended]
        rfl

theorem statementAt_simple (total : Nat) {text : List Char} (trimmed : skipFiller text = text)
    (free : Keyword.reservedAt? text = none) (found : readPiece? text ≠ none) :
    StatementAt total text := by
  have opened : opens text = true := by
    rw [opens_of_free free]
    exact Option.isSome_iff_ne_none.mpr found
  have nonempty : text ≠ [] := by
    rintro rfl
    exact found rfl
  have noIf : firstWord text ≠ Keyword.ifWord.letters :=
    Keyword.reservedAt?_eq_none.mp free _ (by decide)
  have noFor : firstWord text ≠ Keyword.forWord.letters :=
    Keyword.reservedAt?_eq_none.mp free _ (by decide)
  have stepped (state : State) :
      run state text = resume ((readSimple text).bind (readRest state)) := by
    rw [run_eq (Or.inl nonempty), step, free]
  cases assigned : readAssigned? text with
  | some pair =>
      obtain ⟨name, value⟩ := pair
      obtain ⟨tree, refusals, derived, isAssignment, means, least⟩ := assignment_some total assigned
      refine statementAt_of_command opened
        (.altSecond (conditional_refused noIf)
          (.altSecond (loop_refused noFor) (.altFirst derived)))
        (stands_assignment isAssignment means) ?_ fun state => ?_
      · have filled := length_skipFiller_le (readPieces value).2
        have readLength : (readPieces value).2.length ≤ text.length := derived.length_le _ rfl
        grind
      · rw [stepped, readSimple, assigned]
        rfl
  | none =>
      obtain ⟨refusals, unassigned, furthest⟩ := assignment_none total assigned
      have starts : startsProgram text = true := startsProgram_iff.mpr ⟨free, found⟩
      cases piped : readPipeline text with
      | found stages behind =>
          obtain ⟨tree, rest, refusals', derived, isPipeline, means, reached, furthest'⟩ :=
            pipeline_some total trimmed piped
          refine statementAt_of_command opened (.altSecond (conditional_refused noIf)
            (.altSecond (loop_refused noFor) (.altSecond unassigned derived)))
            (stands_pipeline isPipeline means) ?_ fun state => ?_
          · have filled := length_skipFiller_le rest
            have readLength : rest.length ≤ text.length := derived.length_le _ rfl
            have least := furthest.least
            have least' := furthest'.least
            grind
          · rw [stepped, readSimple, assigned, piped, reached]
            rfl
      | stuck stuck =>
          obtain ⟨tree, rest, refusals', derived, bar, shorter, furthest'⟩ :=
            pipeline_blocked total trimmed starts piped
          -- The grammar stops before a bar, which ends no statement.
          obtain ⟨more, filled⟩ := List.head?_eq_some_iff.mp bar
          have barred : readEnd ('|' :: more) = .stuck ('|' :: more) := rfl
          obtain ⟨refusals'', derivedEnd, furthestEnd⟩ := ending_none total barred
          have stuckLength : stuck.length ≤ text.length := by
            have ends := endsIn_readPipeline text
            rw [piped] at ends
            exact List.IsSuffix.length_le ends
          refine .stuck opened
            (.call_none (by decide) (derives_seq (.altSecond (conditional_refused noIf)
            (.altSecond (loop_refused noFor) (.altSecond unassigned derived))) filled derivedEnd))
            (Furthest.append_left (Furthest.append_left ?_ ?_) (by simpa using stuckLength))
              stuckLength fun state => ?_
          · refine Furthest.append_right (Furthest.append_right (furthest'.append_right ?_) ?_) ?_
            · exact furthest.below stuckLength
            · simpa using stuckLength
            · simpa using stuckLength
          · rw [filled] at shorter
            exact furthestEnd.below shorter
          · rw [stepped, readSimple, assigned, piped]
            rfl

theorem statementAt_closed (total : Nat) {text : List Char} (trimmed : skipFiller text = text)
    (closed : opens text = false) : StatementAt total text := by
  obtain ⟨noIf, noFor⟩ := firstWord_ne_of_not_opens closed
  obtain ⟨later, derived, furthest⟩ := choice_none total trimmed (startsProgram_of_not_opens closed)
    (readAssigned?_of_not_opens closed) (conditional_refused noIf) (loop_refused noFor)
  refine .refused closed (.call_none (by decide) (.seqRefused derived)) ?_
  exact (Furthest.append_right (furthest.append_right (by simp)) (by simp)).append_left (by simp)

/-- Where a sequence of statements ends: none can start there, or the next one goes wrong. -/
inductive StopsAt (text : List Char) (refusals : List Nat) : Prop where
  | closed (closed : opens text = false) (furthest : Furthest text.length refusals)
  | stuck {stuck} (opened : opens text = true) (furthest : Furthest stuck.length refusals)
      (shorter : stuck.length ≤ text.length) (runs : ∀ state, run state text = .error stuck)

theorem StopsAt.append {text : List Char} {earlier later : List Nat} (stops : StopsAt text later)
    (least : ∀ refusal ∈ earlier, text.length ≤ refusal) : StopsAt text (earlier ++ later) := by
  cases stops with
  | closed closed furthest => exact .closed closed (furthest.append_right least)
  | stuck opened furthest shorter runs =>
      refine .stuck opened (furthest.append_right fun refusal membership => ?_) shorter runs
      exact Nat.le_trans shorter (least refusal membership)

/-- Statements that end at a word that divides or closes a compound statement end well. -/
theorem StopsAt.furthest {text : List Char} {refusals : List Nat} (stops : StopsAt text refusals)
    {keyword : Keyword} (starts : firstWord text = keyword.letters)
    (membership : keyword ∈ Keyword.reserved) (notIf : keyword ≠ .ifWord)
    (notFor : keyword ≠ .forWord) :
    Furthest text.length refusals := by
  cases stops with
  | closed _ furthest => exact furthest
  | stuck opened => exact absurd starts (firstWord_ne_of_opens opened membership notIf notFor)

/-- If the machine cannot go on from where the statements end, it is stuck at the furthest
refusal. -/
theorem StopsAt.error {α : Type} {text : List Char} {refusals : List Nat}
    (stops : StopsAt text refusals) {states : α → State}
    (unaccepted : opens text = false → ∀ a, run (states a) text = .error text) :
    ∃ stuck, Furthest stuck.length refusals ∧ stuck.length ≤ text.length ∧
      ∀ a, run (states a) text = .error stuck := by
  cases stops with
  | closed closed furthest => exact ⟨text, furthest, Nat.le_refl _, unaccepted closed⟩
  | stuck opened furthest shorter runs => exact ⟨_, furthest, shorter, fun a => runs (states a)⟩

/-- The grammar matches statements one after the other as the machine reads them. -/
theorem statements_repeat {bound : Nat}
    (statementAt : ∀ text, Cleared text → text.length < bound → StatementAt total text)
    {text next : List Char} (reached : skipFiller text = next) (cleared : Cleared next)
    (small : next.length < bound) :
    ∃ trees rest refusals statements,
      Repeats total (.call .statement) text (some (trees, rest)) refusals ∧
      (∀ more, statementsOfTrees? (trees ++ more) =
        (statementsOfTrees? more).map (statements ++ ·)) ∧
      Cleared (skipFiller rest) ∧ (skipFiller rest).length ≤ next.length ∧
      (∀ state, run state next = run (state.extend statements) (skipFiller rest)) ∧
      StopsAt (skipFiller rest) refusals := by
  induction size : next.length using Nat.strongRecOn generalizing text next with
  | _ _ inductionHypothesis =>
      cases statementAt _ cleared small with
      | refused closed derived furthest =>
          rw [← reached] at cleared closed furthest size
          exact ⟨[], text, _, [], .stop reached derived, by simp, cleared,
            Nat.le_of_eq size, fun state => by simp [reached], .closed closed furthest⟩
      | stuck opened derived furthest shorter runs =>
          rw [← reached] at cleared opened shorter runs size
          exact ⟨[], text, _, [], .stop reached derived, by simp, cleared,
            Nat.le_of_eq size, fun state => by simp [reached], .stuck opened furthest shorter runs⟩
      | @matched tree rest refusals statement derived means clearedNext least runs =>
          have readLength : rest.length < next.length := derived.length_lt ranking rfl _ rfl
          have shorter : (skipFiller rest).length < next.length :=
            Nat.lt_of_le_of_lt (length_skipFiller_le rest) readLength
          obtain ⟨trees, rest', refusals', statements, later, meansLater, clearedLater,
            shorterLater, runsLater, stops⟩ := inductionHypothesis _ (size ▸ shorter) rfl
              clearedNext (Nat.lt_trans shorter small) rfl
          refine ⟨_, rest', _, statement :: statements, .step reached derived later, ?_,
            clearedLater, Nat.le_trans shorterLater (size ▸ Nat.le_of_lt shorter), fun state => ?_,
            stops.append ?_⟩
          · intro more
            simp [means, meansLater, Function.comp_def]
          · rw [runs, runsLater, State.extend_extend]
            rfl
          · exact fun refusal membership => Nat.le_trans shorterLater (least refusal membership)

/-- A body from where its rule is called; its statements start behind the separators. -/
def BodyAt (total : Nat) (start : List Char) : Prop :=
  ∃ tree rest refusals statements,
    grammar.Derives total (.call .body) .loose .straight start (some ([tree], rest)) refusals ∧
    tree.rule = .body ∧ statementsOfTrees? tree.children = some statements ∧
    Cleared (skipFiller rest) ∧ (skipFiller rest).length ≤ (skipOver isEnd start).length ∧
    (∀ state, run state (skipOver isEnd start) = run (state.extend statements) (skipFiller rest)) ∧
    StopsAt (skipFiller rest) refusals

theorem bodyAt {bound : Nat}
    (statementAt : ∀ text, Cleared text → text.length < bound → StatementAt total text)
    {start : List Char} (trimmed : skipFiller start = start)
    (small : (skipOver isEnd start).length < bound) : BodyAt total start := by
  obtain ⟨rest, separated, reached⟩ := derives_optSeparator total trimmed
  have cleared := cleared_skipOver start
  obtain ⟨trees, rest', refusals, statements, repeated, means, clearedRest, shorter, runs, stops⟩ :=
    statements_repeat statementAt cleared.trimmed cleared small
  exact ⟨_, rest', _, statements, .call_some (by decide) (derives_seq separated reached
    (repeated.star cleared.trimmed)), rfl, by
      simpa [statementsOfTrees?] using means [], clearedRest,
    shorter, runs, stops⟩

end CommandShell.Rule
