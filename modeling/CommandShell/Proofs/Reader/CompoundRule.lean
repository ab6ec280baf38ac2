import CommandShell.Proofs.Reader.StatementRule

/-!
The grammar matches loops and conditionals as the machine reads them. The grammar goes down into a
body and comes back; the machine puts what it is inside of on its stack and takes it off again.
-/

namespace CommandShell.Reader

variable {state : State} {text : List Char} {keyword : Keyword}

theorem run_of_reserved (membership : keyword ∈ Keyword.reserved)
    (starts : firstWord text = keyword.letters) (state : State) :
    run state text = resume (readReserved state keyword text) := by
  have nonempty : text ≠ [] := by
    rintro rfl
    exact keyword.letters_ne_nil starts.symm
  rw [run_eq (Or.inl nonempty), step, Keyword.reservedAt?_eq_some.mpr ⟨membership, starts⟩]

theorem run_of_closed (closed : opens text = false) (going : text ≠ [] ∨ state.stack ≠ [])
    (unaccepted : ∀ keyword, firstWord text = keyword.letters → keyword ≠ .ifWord →
      keyword ≠ .forWord → readReserved state keyword text = .stuck text) :
    run state text = .error text := by
  rw [run_eq going, step]
  cases reserved : Keyword.reservedAt? text with
  | some keyword =>
      have starts := (Keyword.reservedAt?_eq_some.mp reserved).2
      obtain ⟨noIf, noFor⟩ := firstWord_ne_of_not_opens closed
      have stuck := unaccepted keyword starts (fun same => noIf (same ▸ starts))
        (fun same => noFor (same ▸ starts))
      simp [stuck, resume]
  | none =>
      simp [readSimple, readAssigned?_of_not_opens closed,
        readPipeline_of_not_starts (startsProgram_of_not_opens closed), resume]

end CommandShell.Reader

namespace CommandShell.Rule

open Peg Reader

variable {total : Nat} {tree : Peg.Tree Rule} {trees more : List (Peg.Tree Rule)}

/-! What trees stand for, one node at a time. -/

theorem bodyOfTrees?_skip (other : tree.rule ≠ .body) :
    bodyOfTrees? (tree :: trees) = bodyOfTrees? trees := by
  rw [bodyOfTrees?]
  rintro text children rfl
  exact other rfl

theorem bodyOfTrees?_body (isBody : tree.rule = .body) :
    bodyOfTrees? (tree :: trees) = statementsOfTrees? tree.children := by
  obtain ⟨rule, text, children⟩ := tree
  obtain rfl : rule = .body := isBody
  simp [bodyOfTrees?]

theorem bodyOfTrees?_append (others : ∀ tree ∈ trees, tree.rule ≠ .body) :
    bodyOfTrees? (trees ++ more) = bodyOfTrees? more := by
  induction trees with
  | nil => rfl
  | cons tree trees inductionHypothesis =>
      obtain ⟨other, later⟩ := List.forall_mem_cons.mp others
      rw [List.cons_append, bodyOfTrees?_skip other, inductionHypothesis later]

/-! Loops. -/

theorem stands_loop {text opening closing : List Char} {body : Peg.Tree Rule}
    {statements : List Statement} {head : Head} (headed : HeadTrees trees head)
    (isBody : body.rule = .body) (means : statementsOfTrees? body.children = some statements) :
    Stands (.node .loop text
      (.node .forWord opening [] :: (trees ++ [body, .node .doneWord closing []])))
      (.loop head.parallel (.literal (.ofList head.name)) head.values statements) := by
  have inside :
      bodyOfTrees? (.node .forWord opening [] :: (trees ++ [body, .node .doneWord closing []])) =
      some statements := by
    rw [bodyOfTrees?_skip (by simp), bodyOfTrees?_append headed.no_body, bodyOfTrees?_body isBody,
      means]
  have names :
      nodesOf .name (.node .forWord opening [] :: (trees ++ [body, .node .doneWord closing []])) =
      [.node .name head.name []] := by
    rw [← headed.names]
    simp [nodesOf, isBody]
  have values :
      Word.allOfTrees?
        (.node .forWord opening [] :: (trees ++ [body, .node .doneWord closing []])) =
      some head.values := by
    rw [← headed.values]
    unfold Word.allOfTrees?
    congr 2
    simp [nodesOf, isBody]
  have parallel : hasNode .parallelWord
      (.node .forWord opening [] :: (trees ++ [body, .node .doneWord closing []])) =
        head.parallel := by
    rw [← headed.parallel]
    simp [hasNode, isBody]
  intro outer marks later
  cases rest : statementsOfTrees? later <;>
    simp [statementsOfTrees?, inside, Command.loopOf?, names, values, parallel, firstText?,
      Peg.Tree.text, rest]

section Refused

variable {text stuck : List Char} {keyword : Keyword} {refusals refusals' : List Nat}

/-- A compound statement that goes wrong is no other statement either. -/
theorem statementAt_of_none (trimmed : skipFiller text = text)
    (reserved : Keyword.reservedAt? text = some keyword) (opened : opens text = true)
    (conditional : grammar.Derives total (.call .conditional) .loose .straight text none refusals)
    (loop : grammar.Derives total (.call .loop) .loose .straight text none refusals')
    (furthest : Furthest stuck.length (refusals ++ refusals'))
    (shorter : stuck.length ≤ text.length) (runs : ∀ state, run state text = .error stuck) :
    StatementAt total text := by
  have idle : startsProgram text = false := by simp [startsProgram, reserved]
  have unassigned := readAssigned?_of_reserved (Keyword.reservedAt?_eq_some.mp reserved).2
  obtain ⟨later, derived, furthestLater⟩ :=
    choice_none total trimmed idle unassigned conditional loop
  refine .stuck opened (.call_none (by decide) (.seqRefused derived)) ?_ shorter runs
  rw [← List.append_assoc]
  exact (furthest.append_left (furthestLater.below shorter)).append_left (by simpa using shorter)

end Refused

theorem statementAt_loop (total : Nat) {text : List Char} (trimmed : skipFiller text = text)
    (starts : firstWord text = Keyword.forWord.letters)
    (bodies : ∀ start, skipFiller start = start → (skipOver isEnd start).length < text.length →
      BodyAt total start) :
    StatementAt total text := by
  have reserved := Keyword.reservedAt?_eq_some.mpr ⟨by decide, starts⟩
  have opened : opens text = true := by simp [opens_of_reserved reserved]
  have noIf : firstWord text ≠ Keyword.ifWord.letters := by
    rw [starts]
    decide
  have entered (state : State) : run state text =
      resume ((readHead (skipFiller (behindWord text))).bind fun head rest =>
        .found (state.enter (.loop head)) rest) := run_of_reserved (by decide) starts state
  have shorterText := suffix_skipFiller_behindWord text
  have none_of {stuck : List Char} {refusals : List Nat}
      (inside : grammar.Derives total (grammar.body .loop) .loose .straight text none refusals)
      (furthest : Furthest stuck.length refusals) (shorter : stuck.length ≤ text.length)
      (runs : ∀ state, run state text = .error stuck) : StatementAt total text := by
    refine statementAt_of_none trimmed reserved opened (conditional_refused noIf)
      (inside.call_none (by decide)) ?_ shorter runs
    exact (furthest.append_left (by simpa using shorter)).append_right (by simpa using shorter)
  cases headed : readHead (skipFiller (behindWord text)) with
  | stuck stuck =>
      obtain ⟨refusals, derived, furthest⟩ :=
        head_none total headed (.seq (.call .body) (.call .doneWord))
      have ends := endsIn_readHead (skipFiller (behindWord text))
      rw [headed] at ends
      refine none_of (derives_seq (keyword_matches starts) rfl derived) (by simpa using furthest)
        (ends.trans shorterText).length_le fun state => ?_
      rw [entered, headed]
      rfl
  | found head next =>
      obtain ⟨headTrees, start, refusals, means, trimmedStart, reached, least, derived⟩ :=
        head_some total headed
      have ends := endsIn_readHead (skipFiller (behindWord text))
      rw [headed] at ends
      have nextLength : next.length < text.length :=
        Nat.lt_of_le_of_lt (ends.trans (suffix_skipFiller _)).length_le
          (length_behindWord_lt starts)
      obtain ⟨body, rest, refusals', statements, derivedBody, isBody, meansBody, cleared, shorter,
        runs, stops⟩ := bodies start trimmedStart (reached ▸ nextLength)
      rw [reached] at shorter runs
      have runs (state : State) : run state text =
          run ((state.enter (.loop head)).extend statements) (skipFiller rest) := by
        rw [entered, headed]
        exact runs _
      by_cases done : firstWord (skipFiller rest) = Keyword.doneWord.letters
      · have closed := stops.furthest done (by decide) (by decide) (by decide)
        have behindLength := (suffix_skipFiller_behindWord (skipFiller rest)).length_le
        have loop : grammar.Derives total (.call .loop) .loose .straight text
            (some ([.node .loop _ (markOf .forWord :: (headTrees ++ [body, markOf .doneWord]))],
              behindWord (skipFiller rest))) (refusals ++ (refusals' ++ [])) :=
          .call_some (by decide) (derives_seq (keyword_matches starts) rfl
            (derived (derives_seq derivedBody rfl (keyword_matches done))))
        refine statementAt_of_command opened
          (.altSecond (conditional_refused noIf) (.altFirst loop))
          (stands_loop means isBody meansBody) ?_ fun state => ?_
        · have leastBody := closed.least
          grind
        · rw [runs, run_of_reserved (by decide) done]
          rfl
      · have unaccepted (closed : opens (skipFiller rest) = false) (state : State) :
            run ((state.enter (.loop head)).extend statements) (skipFiller rest) =
              .error (skipFiller rest) := by
          refine run_of_closed closed (Or.inr (by simp [State.enter]))
            fun keyword word notIf notFor => ?_
          have notDone : keyword ≠ .doneWord := fun same => done (same ▸ word)
          cases keyword <;> first | rfl | contradiction
        obtain ⟨stuck, furthest, stuckLength, errors⟩ := stops.error unaccepted
        refine none_of (derives_seq (keyword_matches starts) rfl
          (derived (derives_seq derivedBody rfl (keyword_refused done)))) ?_ ?_
          fun state => (runs state).trans (errors state)
        · refine (furthest.append_left (by simpa using stuckLength)).append_right
            fun refusal member => ?_
          exact Nat.le_trans stuckLength (Nat.le_trans shorter (least refusal member))
        · omega

/-! Conditionals. -/

theorem branchesOfTrees?_skip (other : tree.rule ≠ .branch) :
    branchesOfTrees? (tree :: trees) = branchesOfTrees? trees := by
  rw [branchesOfTrees?]
  rintro text children rfl
  exact other rfl

theorem branchesOfTrees?_branch {test : Pipeline} {body : List Statement}
    (isBranch : tree.rule = .branch) (tested : Pipeline.firstOf? tree.children = some test)
    (means : bodyOfTrees? tree.children = some body) :
    branchesOfTrees? (tree :: trees) = (branchesOfTrees? trees).map (.mk test body :: ·) := by
  obtain ⟨rule, text, children⟩ := tree
  obtain rfl : rule = .branch := isBranch
  rw [branchesOfTrees?]
  cases later : branchesOfTrees? trees <;> simp_all

theorem fallbackOfTrees?_skip (other : tree.rule ≠ .body) :
    fallbackOfTrees? (tree :: trees) = fallbackOfTrees? trees := by
  rw [fallbackOfTrees?]
  rintro text children rfl
  exact other rfl

theorem fallbackOfTrees?_body (isBody : tree.rule = .body) :
    fallbackOfTrees? (tree :: trees) = (statementsOfTrees? tree.children).map some := by
  obtain ⟨rule, text, children⟩ := tree
  obtain rfl : rule = .body := isBody
  simp [fallbackOfTrees?]

/-- Trees that stand for branches of a conditional, whatever follows them. -/
structure BranchTrees (trees : List (Peg.Tree Rule)) (branches : List Branch) : Prop where
  means : ∀ more, branchesOfTrees? (trees ++ more) = (branchesOfTrees? more).map (branches ++ ·)
  no_body : ∀ more, fallbackOfTrees? (trees ++ more) = fallbackOfTrees? more

theorem BranchTrees.nil : BranchTrees [] [] := ⟨fun more => by simp, fun _ => rfl⟩

theorem BranchTrees.append {branches branches' : List Branch} (first : BranchTrees trees branches)
    (second : BranchTrees more branches') :
    BranchTrees (trees ++ more) (branches ++ branches') := by
  refine ⟨fun later => ?_, fun later => ?_⟩
  · rw [List.append_assoc, first.means, second.means]
    cases branchesOfTrees? later <;> simp
  · rw [List.append_assoc, first.no_body, second.no_body]

theorem BranchTrees.mark {branches : List Branch} (noBranch : tree.rule ≠ .branch)
    (noBody : tree.rule ≠ .body) (made : BranchTrees trees branches) :
    BranchTrees (tree :: trees) branches := by
  refine ⟨fun more => ?_, fun more => ?_⟩
  · rw [List.cons_append, branchesOfTrees?_skip noBranch, made.means]
  · rw [List.cons_append, fallbackOfTrees?_skip noBody, made.no_body]

theorem branchTrees_branch {text keyword : List Char} {tested body : Peg.Tree Rule}
    {test : Pipeline} {statements : List Statement} (isPipeline : tested.rule = .pipeline)
    (means : Pipeline.ofTree? tested = some test) (isBody : body.rule = .body)
    (meansBody : statementsOfTrees? body.children = some statements) :
    BranchTrees [.node .branch text [tested, .node .thenWord keyword [], body]]
      [.mk test statements] := by
  refine ⟨fun more => ?_, fun more => ?_⟩
  · refine branchesOfTrees?_branch rfl ?_ ?_
    · simp [Pipeline.firstOf?, nodesOf, isPipeline, means]
    · rw [Peg.Tree.children_node, bodyOfTrees?_skip (by simp [isPipeline]),
        bodyOfTrees?_skip (by simp),
        bodyOfTrees?_body isBody, meansBody]
  · exact fallbackOfTrees?_skip (by simp)

theorem branch_some {bound : Nat} {text next : List Char} {test : Pipeline}
    (bodies : ∀ start, skipFiller start = start → (skipOver isEnd start).length < bound →
      BodyAt total start)
    (trimmed : skipFiller text = text) (found : readTest text = .found test next)
    (small : next.length < bound) :
    ∃ tree rest refusals statements,
      grammar.Derives total (.call .branch) .loose .straight text (some ([tree], rest)) refusals ∧
      BranchTrees [tree] [.mk test statements] ∧ (skipFiller rest).length ≤ next.length ∧
      (∀ state, run state next = run (state.extend statements) (skipFiller rest)) ∧
      StopsAt (skipFiller rest) refusals := by
  obtain ⟨tested, start, refusals, isPipeline, means, trimmedStart, reached, least, derived⟩ :=
    test_some total trimmed found
  obtain ⟨body, rest, refusals', statements, derivedBody, isBody, meansBody, cleared, shorter, runs,
    stops⟩ := bodies start trimmedStart (reached ▸ small)
  rw [reached] at shorter runs
  exact ⟨_, rest, _, statements, .call_some (by decide) (derived derivedBody),
    branchTrees_branch isPipeline means isBody meansBody, shorter, runs,
    stops.append fun refusal membership => Nat.le_trans shorter (least refusal membership)⟩

theorem branch_none (total : Nat) {text stuck : List Char} (trimmed : skipFiller text = text)
    (stopped : readTest text = .stuck stuck) :
    ∃ refusals, grammar.Derives total (.call .branch) .loose .straight text none refusals ∧
      Furthest stuck.length refusals := by
  obtain ⟨refusals, derived, furthest⟩ := test_none total trimmed stopped (.call .body)
  have ends := endsIn_readTest text
  rw [stopped] at ends
  exact ⟨_, .call_none (by decide) derived,
    furthest.append_left (by simpa using List.IsSuffix.length_le ends)⟩

/-- A further branch of a conditional. -/
def elif : Expr Rule := .seq (.call .elifWord) (.call .branch)

/-- The state inside a branch of a conditional. -/
def inBranch (branches : List Branch) (test : Pipeline) (current : List Statement) (outer : State) :
    State :=
  (outer.enter (.guarded branches test)).extend current

/-- What has become of the branches of a conditional when the grammar takes no more of them. -/
inductive BranchesEnd (states : State → State) (text : List Char) (before : List Branch)
    (trees : List (Peg.Tree Rule)) (stop : List Char) (refusals : List Nat) : Prop where
  /-- All of them are complete, and the last is ended by a word that starts no branch. -/
  | complete {more branches test current} (made : BranchTrees trees more)
      (same : branches ++ [.mk test current] = before ++ more) (closed : opens stop = false)
      (noElif : firstWord stop ≠ Keyword.elifWord.letters)
        (furthest : Furthest stop.length refusals)
      (runs : ∀ outer, run (states outer) text = run (inBranch branches test current outer) stop)
  /-- One goes wrong, and the grammar stops where the conditional cannot go on. -/
  | stuck {stuck} (noElse : firstWord stop ≠ Keyword.elseWord.letters)
      (noFi : firstWord stop ≠ Keyword.fiWord.letters) (furthest : Furthest stuck.length refusals)
      (shorter : stuck.length ≤ stop.length)
        (runs : ∀ outer, run (states outer) text = .error stuck)

theorem elifs_repeat {bound : Nat} {text stop : List Char} {branches : List Branch}
    {test : Pipeline} {current : List Statement} {refusals : List Nat}
    (bodies : ∀ start, skipFiller start = start → (skipOver isEnd start).length < bound →
      BodyAt total start)
    (reached : skipFiller text = stop) (small : stop.length ≤ bound)
    (stops : StopsAt stop refusals) :
    ∃ trees rest refusals', Repeats total elif text (some (trees, rest)) refusals' ∧
      (skipFiller rest).length ≤ stop.length ∧
      BranchesEnd (inBranch branches test current) stop (branches ++ [.mk test current]) trees
        (skipFiller rest) (refusals ++ refusals') := by
  induction size : stop.length using Nat.strongRecOn
    generalizing text stop branches test current refusals with
  | _ _ inductionHypothesis =>
      subst reached
      by_cases divides : firstWord (skipFiller text) = Keyword.elifWord.letters
      · have furthest := stops.furthest divides (by decide) (by decide) (by decide)
        have divided (outer : State) :
            run (inBranch branches test current outer) (skipFiller text) =
            resume ((readTest (skipFiller (behindWord (skipFiller text)))).bind fun test' rest =>
              .found (outer.enter (.guarded (branches ++ [.mk test current]) test')) rest) :=
          run_of_reserved (by decide) divides _
        have trimmed := skipFiller_skipFiller (behindWord (skipFiller text))
        have ends := endsIn_readTest (skipFiller (behindWord (skipFiller text)))
        cases tested : readTest (skipFiller (behindWord (skipFiller text))) with
        | stuck stuck =>
            rw [tested] at ends
            have shorter := (ends.trans (suffix_skipFiller_behindWord (skipFiller text))).length_le
            obtain ⟨refusals', derived, furthest'⟩ := branch_none total trimmed tested
            refine ⟨[], text, _, .stop rfl (derives_seq (keyword_matches divides) rfl derived),
              Nat.le_of_eq size, .stuck ?_ ?_ ?_ shorter fun outer => ?_⟩
            · rw [divides]
              decide
            · rw [divides]
              decide
            · exact furthest'.append_right (furthest.below shorter)
            · rw [divided, tested]
              rfl
        | found test' next =>
            rw [tested] at ends
            have nextLength : next.length < (skipFiller text).length :=
              Nat.lt_of_le_of_lt (ends.trans (suffix_skipFiller _)).length_le
                (length_behindWord_lt divides)
            obtain ⟨tree, rest, refusals', statements, derived, made, shorter, runs, stops'⟩ :=
              branch_some bodies trimmed tested (Nat.lt_of_lt_of_le nextLength small)
            have restLength := Nat.lt_of_le_of_lt shorter nextLength
            have stops'' : StopsAt (skipFiller rest) (refusals ++ refusals') :=
              stops'.append (furthest.below (Nat.le_of_lt restLength))
            have runs (outer : State) :
                run (inBranch branches test current outer) (skipFiller text) =
                run (inBranch (branches ++ [.mk test current]) test' statements outer)
                  (skipFiller rest) := by
              rw [divided, tested]
              exact runs _
            obtain ⟨trees, rest', refusals'', later, laterLength, ended⟩ :=
              inductionHypothesis _ (size ▸ restLength) rfl
                (Nat.le_trans (Nat.le_of_lt restLength) small) stops'' rfl
            refine ⟨markOf .elifWord :: tree :: trees, rest', refusals' ++ refusals'',
              .step rfl (derives_seq (keyword_matches divides) rfl derived) later,
              Nat.le_trans laterLength (size ▸ Nat.le_of_lt restLength), ?_⟩
            rw [← List.append_assoc]
            cases ended with
            | complete made' same closed noElif furthest' runs' =>
                refine .complete ((made.append made').mark (by decide) (by decide)) ?_ closed noElif
                  furthest' fun outer => (runs outer).trans (runs' outer)
                rw [same]
                simp
            | stuck noElse noFi furthest' shorter' runs' =>
                exact .stuck noElse noFi furthest' shorter' fun outer =>
                  (runs outer).trans (runs' outer)
      · refine ⟨[], text, _, .stop rfl (.seqRefused (keyword_refused divides)), Nat.le_of_eq size,
          ?_⟩
        cases stops with
        | closed closed furthest =>
            exact .complete .nil (by simp) closed divides (furthest.append_left (by simp))
              fun outer => rfl
        | stuck opened furthest shorter runs =>
            refine .stuck ?_ ?_ (furthest.append_left (by simpa using shorter)) shorter
              fun outer => runs _
            · exact firstWord_ne_of_opens opened (by decide) (by decide) (by decide)
            · exact firstWord_ne_of_opens opened (by decide) (by decide) (by decide)

/-- What ends a conditional behind its branches. -/
def closing : Expr Rule := .seq (.opt (.seq (.call .elseWord) (.call .body))) (.call .fiWord)

/-- What has become of a conditional behind its branches. -/
inductive ClosingAt (total : Nat) (states : State → State) (branches : List Branch)
    (stop : List Char) :
    Prop where
  | matched {trees rest refusals fallback}
      (derived : grammar.Derives total closing .loose .straight stop (some (trees, rest)) refusals)
      (noBranch : branchesOfTrees? trees = some [])
      (means : fallbackOfTrees? trees = some fallback)
      (least : ∀ refusal ∈ refusals, (skipFiller rest).length ≤ refusal)
      (shorter : (skipFiller rest).length ≤ stop.length)
      (runs : ∀ outer, run (states outer) stop =
        resume (readRest outer (.conditional branches fallback) (skipFiller rest)))
  | refused {refusals stuck}
      (derived : grammar.Derives total closing .loose .straight stop none refusals)
      (furthest : Furthest stuck.length refusals) (shorter : stuck.length ≤ stop.length)
      (runs : ∀ outer, run (states outer) stop = .error stuck)

theorem closing_refused {stop : List Char} (noElse : firstWord stop ≠ Keyword.elseWord.letters)
    (noFi : firstWord stop ≠ Keyword.fiWord.letters) (trimmed : skipFiller stop = stop) :
    grammar.Derives total closing .loose .straight stop none [stop.length, stop.length] :=
  derives_seq (.optNone (.seqRefused (keyword_refused noElse))) trimmed (keyword_refused noFi)

section Closing

variable {stop : List Char} {branches : List Branch} {test : Pipeline} {current : List Statement}

theorem closingAt_fallback (divides : firstWord stop = Keyword.elseWord.letters)
    (bodies : ∀ start, skipFiller start = start → (skipOver isEnd start).length < stop.length →
      BodyAt total start) :
    ClosingAt total (inBranch branches test current) (branches ++ [.mk test current]) stop := by
  have nextLength : (skipOver isEnd (skipFiller (behindWord stop))).length < stop.length :=
    Nat.lt_of_le_of_lt ((suffix_skipOver _).trans (suffix_skipFiller _)).length_le
      (length_behindWord_lt divides)
  obtain ⟨body, rest, refusals, statements, derived, isBody, means, cleared, shorter, runs,
      stops⟩ :=
    bodies _ (skipFiller_skipFiller (behindWord stop)) nextLength
  have runs (outer : State) : run (inBranch branches test current outer) stop =
      run ((outer.enter (.fallback (branches ++ [.mk test current]))).extend statements)
        (skipFiller rest) := by
    rw [run_of_reserved (by decide) divides]
    exact runs _
  have fallback :
      grammar.Derives total (.opt (.seq (.call .elseWord) (.call .body))) .loose .straight
      stop (some ([markOf .elseWord, body], rest)) refusals :=
    .opt (derives_seq (keyword_matches divides) rfl derived)
  by_cases ends : firstWord (skipFiller rest) = Keyword.fiWord.letters
  · have furthest := stops.furthest ends (by decide) (by decide) (by decide)
    have behindLength := (suffix_skipFiller_behindWord (skipFiller rest)).length_le
    have noBranch : branchesOfTrees? [markOf .elseWord, body, markOf .fiWord] = some [] := by
      rw [branchesOfTrees?_skip (by decide), branchesOfTrees?_skip (by simp [isBody]),
        branchesOfTrees?_skip (by decide), branchesOfTrees?]
    have fallen : fallbackOfTrees? [markOf .elseWord, body, markOf .fiWord] =
        some (some statements) := by
      rw [fallbackOfTrees?_skip (by decide), fallbackOfTrees?_body isBody, means]
      rfl
    refine .matched (derives_seq fallback rfl (keyword_matches ends)) noBranch fallen
      (by simpa using furthest.below behindLength) (by simp; omega) fun outer => ?_
    rw [runs, run_of_reserved (by decide) ends]
    rfl
  · have unaccepted (closed : opens (skipFiller rest) = false) (outer : State) :
        run ((outer.enter (.fallback (branches ++ [.mk test current]))).extend statements)
          (skipFiller rest) = .error (skipFiller rest) := by
      refine run_of_closed closed (Or.inr (by simp [State.enter]))
        fun keyword word notIf notFor => ?_
      have notFi : keyword ≠ .fiWord := fun same => ends (same ▸ word)
      cases keyword <;> first | rfl | contradiction
    obtain ⟨stuck, furthest, stuckLength, errors⟩ := stops.error unaccepted
    exact .refused (derives_seq fallback rfl (keyword_refused ends))
      (furthest.append_left (by simpa using stuckLength)) (by omega)
      fun outer => (runs outer).trans (errors outer)

theorem closingAt_plain (trimmed : skipFiller stop = stop) (closed : opens stop = false)
    (noElif : firstWord stop ≠ Keyword.elifWord.letters)
    (noElse : firstWord stop ≠ Keyword.elseWord.letters) :
    ClosingAt total (inBranch branches test current) (branches ++ [.mk test current]) stop := by
  have noFallback :
      grammar.Derives total (.opt (.seq (.call .elseWord) (.call .body))) .loose .straight
      stop (some ([], stop)) [stop.length] := .optNone (.seqRefused (keyword_refused noElse))
  by_cases ends : firstWord stop = Keyword.fiWord.letters
  · have behindLength := (suffix_skipFiller_behindWord stop).length_le
    have noBranch : branchesOfTrees? [markOf .fiWord] = some [] := by
      rw [branchesOfTrees?_skip (by decide), branchesOfTrees?]
    have fallen : fallbackOfTrees? [markOf .fiWord] = some none := by
      rw [fallbackOfTrees?_skip (by decide), fallbackOfTrees?]
    refine .matched (derives_seq noFallback trimmed (keyword_matches ends)) noBranch fallen
      (by simpa using behindLength) behindLength fun outer => ?_
    rw [run_of_reserved (by decide) ends]
    rfl
  · refine .refused (closing_refused noElse ends trimmed) (Furthest.single.append_left (by simp))
      (Nat.le_refl _) fun outer => ?_
    refine run_of_closed closed (Or.inr (by simp [inBranch, State.enter]))
      fun keyword word notIf notFor => ?_
    have notElif : keyword ≠ .elifWord := fun same => noElif (same ▸ word)
    have notElse : keyword ≠ .elseWord := fun same => noElse (same ▸ word)
    have notFi : keyword ≠ .fiWord := fun same => ends (same ▸ word)
    cases keyword <;> first | rfl | contradiction

theorem closingAt (bodies : ∀ start, skipFiller start = start →
      (skipOver isEnd start).length < stop.length → BodyAt total start)
    (trimmed : skipFiller stop = stop) (closed : opens stop = false)
    (noElif : firstWord stop ≠ Keyword.elifWord.letters) :
    ClosingAt total (inBranch branches test current) (branches ++ [.mk test current]) stop := by
  by_cases divides : firstWord stop = Keyword.elseWord.letters
  · exact closingAt_fallback divides bodies
  · exact closingAt_plain trimmed closed noElif divides

end Closing

theorem stands_conditional {text : List Char} {branches : List Branch}
    {fallback : Option (List Statement)} (made : BranchTrees trees branches)
    (nonempty : branches ≠ []) (noBranch : branchesOfTrees? more = some [])
    (means : fallbackOfTrees? more = some fallback) :
    Stands (.node .conditional text (trees ++ more)) (.conditional branches fallback) := by
  have allBranches : branchesOfTrees? (trees ++ more) = some branches := by
    simp [made.means, noBranch]
  have fallen : fallbackOfTrees? (trees ++ more) = some fallback := by
    rw [made.no_body, means]
  have command :
      Command.conditionalOf? fallback branches = some (.conditional branches fallback) := by
    cases branches with
    | nil => contradiction
    | cons => rfl
  intro outer marks later
  cases rest : statementsOfTrees? later <;>
    simp [statementsOfTrees?, allBranches, fallen, command, rest]

theorem statementAt_conditional (total : Nat) {text : List Char} (trimmed : skipFiller text = text)
    (starts : firstWord text = Keyword.ifWord.letters)
    (bodies : ∀ start, skipFiller start = start → (skipOver isEnd start).length < text.length →
      BodyAt total start) :
    StatementAt total text := by
  have reserved := Keyword.reservedAt?_eq_some.mpr ⟨by decide, starts⟩
  have opened : opens text = true := by simp [opens_of_reserved reserved]
  have noFor : firstWord text ≠ Keyword.forWord.letters := by
    rw [starts]
    decide
  have entered (state : State) : run state text =
      resume ((readTest (skipFiller (behindWord text))).bind fun test rest =>
        .found (state.enter (.guarded [] test)) rest) := run_of_reserved (by decide) starts state
  have none_of {stuck : List Char} {refusals : List Nat}
      (inside : grammar.Derives total (grammar.body .conditional) .loose .straight text
        none refusals)
      (furthest : Furthest stuck.length refusals) (shorter : stuck.length ≤ text.length)
      (runs : ∀ state, run state text = .error stuck) : StatementAt total text := by
    refine statementAt_of_none trimmed reserved opened (inside.call_none (by decide))
      (loop_refused noFor) ?_ shorter runs
    exact (furthest.append_left (by simpa using shorter)).append_left (by simpa using shorter)
  have trimmedTest := skipFiller_skipFiller (behindWord text)
  have ends := endsIn_readTest (skipFiller (behindWord text))
  cases tested : readTest (skipFiller (behindWord text)) with
  | stuck stuck =>
      rw [tested] at ends
      obtain ⟨refusals, derived, furthest⟩ := branch_none total trimmedTest tested
      refine none_of (derives_seq (keyword_matches starts) rfl (.seqRefused derived))
        (by simpa using furthest) (ends.trans (suffix_skipFiller_behindWord text)).length_le
        fun state => ?_
      rw [entered, tested]
      rfl
  | found test next =>
      rw [tested] at ends
      have nextLength : next.length < text.length :=
        Nat.lt_of_le_of_lt (ends.trans (suffix_skipFiller _)).length_le
          (length_behindWord_lt starts)
      obtain ⟨tree, rest, refusals, statements, derived, made, shorter, runs, stops⟩ :=
        branch_some bodies trimmedTest tested nextLength
      have restLength : (skipFiller rest).length < text.length :=
        Nat.lt_of_le_of_lt shorter nextLength
      obtain ⟨trees, rest', refusals', repeated, shorter', ended⟩ :=
        elifs_repeat bodies (skipFiller_skipFiller rest) (Nat.le_of_lt restLength) stops
      have branched {result : Option (Found Rule)} {refusals'' : List Nat}
          (closed : grammar.Derives total closing .loose .straight (skipFiller rest') result
            refusals'') :
          grammar.Derives total (grammar.body .conditional) .loose .straight text
            (result.map (Found.after (markOf .ifWord :: tree :: trees)))
            (refusals ++ refusals' ++ refusals'') := by
        have whole := derives_seq (keyword_matches starts) rfl (derives_seq derived rfl
          (derives_seq (repeated.star (skipFiller_skipFiller rest)) rfl closed))
        simp only [Found.map_after_map_after, List.nil_append] at whole
        rw [List.append_assoc]
        exact whole
      have runs (state : State) : run state text =
          run (inBranch [] test statements state) (skipFiller rest) := by
        rw [entered, tested]
        exact runs _
      cases ended with
      | stuck noElse noFi furthest stuckLength errors =>
          refine none_of (branched (closing_refused noElse noFi (skipFiller_skipFiller rest')))
            (furthest.append_left (by simpa using stuckLength)) (by omega)
            fun state => (runs state).trans (errors state)
      | @complete more branches test' current made' same closed noElif furthest runs' =>
          have smaller : (skipFiller rest').length < text.length :=
            Nat.lt_of_le_of_lt shorter' restLength
          have closes :
              ClosingAt total (inBranch branches test' current) (branches ++ [.mk test' current])
              (skipFiller rest') :=
            closingAt (fun start trimmedStart small =>
              bodies start trimmedStart (Nat.lt_trans small smaller)) (skipFiller_skipFiller rest')
                closed noElif
          have runs (state : State) := (runs state).trans (runs' state)
          cases closes with
          | refused derived' furthest' stuckLength errors =>
              refine none_of (branched derived') ?_ (by omega) fun state =>
                (runs state).trans (errors state)
              exact furthest'.append_right (furthest.below stuckLength)
          | @matched closingTrees rest'' refusals'' fallback derived' noBranch means least
              closeLength runs'' =>
              rw [same] at runs''
              have conditional : grammar.Derives total (.call .conditional) .loose .straight text
                  (some ([.node .conditional _ (markOf .ifWord :: tree :: trees ++ closingTrees)],
                    rest''))
                  (refusals ++ refusals' ++ refusals'') :=
                .call_some (by decide) (branched derived')
              refine statementAt_of_command opened (.altFirst conditional)
                (stands_conditional ((made.append made').mark (by decide) (by decide)) (by simp)
                  noBranch means)
                ?_ fun state => (runs state).trans (runs'' state)
              exact List.forall_mem_append.mpr ⟨furthest.below closeLength, least⟩

/-- At the start of any statement the grammar and the machine agree. -/
theorem statementAt (total : Nat) {text : List Char} (cleared : Cleared text) :
    StatementAt total text := by
  induction size : text.length using Nat.strongRecOn generalizing text with
  | _ _ inductionHypothesis =>
      have bodies (start : List Char) (trimmed : skipFiller start = start)
          (small : (skipOver isEnd start).length < text.length) : BodyAt total start :=
        bodyAt (fun inner clearedInner smaller =>
          inductionHypothesis _ (size ▸ smaller) clearedInner rfl)
          trimmed small
      by_cases closed : opens text = false
      · exact statementAt_closed total cleared.trimmed closed
      · cases reserved : Keyword.reservedAt? text with
        | none =>
            rw [opens_of_free reserved] at closed
            exact statementAt_simple total cleared.trimmed reserved (by simpa using closed)
        | some keyword =>
            have starts := (Keyword.reservedAt?_eq_some.mp reserved).2
            have opened : opens text = true := by simpa using closed
            have either : keyword = .ifWord ∨ keyword = .forWord := by
              simpa [opens_of_reserved reserved] using opened
            rcases either with rfl | rfl
            · exact statementAt_conditional total cleared.trimmed starts bodies
            · exact statementAt_loop total cleared.trimmed starts bodies

end CommandShell.Rule
