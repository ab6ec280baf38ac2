import CommandShell.Proofs.Script.Denotation

/-!
Making a script of a tree. Each node has to have below it what is looked for there. Where all nodes
do, a script is made; and all nodes that the grammar leaves do.
-/

namespace CommandShell

/-- The trees that stand right behind one of a rule. -/
def rightBehind (rule : Rule) : List (Peg.Tree Rule) → List (Peg.Tree Rule)
  | first :: second :: trees =>
    if first.rule = rule then second :: rightBehind rule (second :: trees)
    else rightBehind rule (second :: trees)
  | _ => []

/-- What is made of the first of some bodies, if there is one. -/
def firstBody? (bodies : List (Peg.Tree Rule)) : Option (Option (List Statement)) :=
  match bodies with
  | [] => some none
  | body :: _ => (statementsOfTrees? body.children).map some

/-- A node has below it what is taken from there when a script is made. A conditional has no body
right below it but one behind the word `else`. -/
def Expected (tree : Peg.Tree Rule) : Prop :=
  match tree.rule with
  | .statement =>
    ∃ first ∈ tree.children.head?, first.rule ∈ [.conditional, .loop, .assignment, .pipeline]
  | .conditional =>
    nodesOf .branch tree.children ≠ [] ∧
      nodesOf .body tree.children = rightBehind .elseWord tree.children ∧
      (nodesOf .body tree.children).length ≤ 1
  | .branch => nodesOf .pipeline tree.children ≠ [] ∧ nodesOf .body tree.children ≠ []
  | .loop => nodesOf .name tree.children ≠ [] ∧ nodesOf .body tree.children ≠ []
  | .assignment => nodesOf .name tree.children ≠ []
  | .pipeline => nodesOf .program tree.children ≠ []
  | .word =>
    ∀ piece ∈ tree.children,
      piece.rule ∈ [.literal, .dollar, .singleQuoted, .doubleQuoted, .reference]
  | .singleQuoted | .doubleQuoted | .reference => tree.children ≠ []
  | _ => True

/-- So it is with all nodes of a tree. -/
def Shaped (tree : Peg.Tree Rule) : Prop := ∀ node, node.Inside tree → Expected node

theorem Shaped.expected {tree : Peg.Tree Rule} (shaped : Shaped tree) : Expected tree :=
  shaped tree .self

theorem Shaped.inside {tree node : Peg.Tree Rule} (shaped : Shaped tree)
    (inside : node.Inside tree) :
    Shaped node := by
  intro deeper below
  exact shaped deeper (below.trans inside)

theorem Shaped.child {tree child : Peg.Tree Rule} (shaped : Shaped tree)
    (member : child ∈ tree.children) :
    Shaped child :=
  shaped.inside (.deeper .self member)

/-! Of a tree of this shape a script is made. -/

section Making

open Rule

variable {tree : Peg.Tree Rule} {trees : List (Peg.Tree Rule)}

theorem mem_nodesOf {rule : Rule} : tree ∈ nodesOf rule trees ↔
    tree ∈ trees ∧ tree.rule = rule := by
  rw [nodesOf, List.mem_filter, decide_eq_true_eq]

theorem exists_firstText? (found : trees ≠ []) : ∃ text, firstText? trees = some text := by
  obtain ⟨first, others, rfl⟩ := List.exists_cons_of_ne_nil found
  exact ⟨_, rfl⟩

theorem exists_mapM {α β : Type} {make : α → Option β} {list : List α}
    (each : ∀ a ∈ list, ∃ b, make a = some b) :
    ∃ made, list.mapM make = some made := by
  induction list with
  | nil => exact ⟨[], rfl⟩
  | cons first others inductionHypothesis =>
      obtain ⟨⟨b, one⟩, rest⟩ := List.forall_mem_cons.mp each
      obtain ⟨made, all⟩ := inductionHypothesis rest
      exact ⟨b :: made, by simp [one, all]⟩

theorem Shaped.exists_piece (shaped : Shaped tree)
    (isPiece : tree.rule ∈ [.literal, .dollar, .singleQuoted, .doubleQuoted, .reference]) :
    ∃ piece, Word.ofTree? tree = some piece := by
  obtain ⟨rule, text, children⟩ := tree
  have expected := shaped.expected
  simp only [Peg.Tree.rule_node, List.mem_cons, List.not_mem_nil, or_false] at isPiece
  rcases isPiece with rfl | rfl | rfl | rfl | rfl
  · exact ⟨_, rfl⟩
  · exact ⟨_, rfl⟩
  all_goals
    obtain ⟨inside, found⟩ := exists_firstText? expected
    exact ⟨_, congrArg (Option.map _) found⟩

theorem exists_words (shaped : ∀ tree ∈ trees, Shaped tree) :
    ∃ words, Word.allOfTrees? trees = some words := by
  apply exists_mapM
  intro piece member
  obtain ⟨word, isWord, inside⟩ := List.mem_flatMap.mp member
  obtain ⟨isTree, same⟩ := mem_nodesOf.mp isWord
  have expected := (shaped word isTree).expected
  rw [Expected, same] at expected
  exact ((shaped word isTree).child inside).exists_piece (expected piece inside)

theorem Shaped.exists_pipeline (shaped : Shaped tree) (isPipeline : tree.rule = .pipeline) :
    ∃ stages, Pipeline.ofTree? tree = some stages := by
  have expected := shaped.expected
  rw [Expected, isPipeline] at expected
  obtain ⟨first, others, same⟩ := List.exists_cons_of_ne_nil expected
  have each : ∀ program ∈ nodesOf .program tree.children, ∃ words,
      Word.allOfTrees? program.children = some words := by
    intro program member
    have below := shaped.child (mem_nodesOf.mp member).1
    exact exists_words fun word inside => below.child inside
  obtain ⟨stages, made⟩ := exists_mapM each
  rw [same] at made
  refine ⟨stages, ?_⟩
  rw [Pipeline.ofTree?, same]
  exact made

/-- What is made of a node by itself. -/
def Made (tree : Peg.Tree Rule) : Prop :=
  match tree.rule with
  | .statement => ∃ statement, ∀ trees,
      statementsOfTrees? (tree :: trees) = (statementsOfTrees? trees).map (statement :: ·)
  | .conditional | .loop | .assignment | .pipeline => ∃ command, Stands tree command
  | .branch =>
      ∃ branch, ∀ trees, branchesOfTrees? (tree :: trees) =
        (branchesOfTrees? trees).map (branch :: ·)
  | .body => ∃ statements, statementsOfTrees? tree.children = some statements
  | _ => True

theorem exists_statements (made : ∀ tree ∈ trees, Made tree) :
    ∃ statements, statementsOfTrees? trees = some statements := by
  induction trees with
  | nil => exact ⟨[], by rw [statementsOfTrees?]⟩
  | cons tree trees inductionHypothesis =>
      obtain ⟨first, others⟩ := List.forall_mem_cons.mp made
      obtain ⟨statements, later⟩ := inductionHypothesis others
      by_cases isStatement : tree.rule = .statement
      · rw [Made, isStatement] at first
        obtain ⟨statement, means⟩ := first
        exact ⟨statement :: statements, by rw [means, later, Option.map_some]⟩
      · exact ⟨statements, by rw [statementsOfTrees?_skip isStatement, later]⟩

theorem exists_body (made : ∀ tree ∈ trees, Made tree) (found : nodesOf .body trees ≠ []) :
    ∃ statements, bodyOfTrees? trees = some statements := by
  induction trees with
  | nil => exact absurd rfl found
  | cons tree trees inductionHypothesis =>
      obtain ⟨first, others⟩ := List.forall_mem_cons.mp made
      by_cases isBody : tree.rule = .body
      · rw [bodyOfTrees?_body isBody]
        rwa [Made, isBody] at first
      · rw [bodyOfTrees?_skip isBody]
        apply inductionHypothesis others
        simpa [nodesOf, isBody] using found

theorem exists_fallback (made : ∀ tree ∈ trees, Made tree) :
    ∃ fallback, fallbackOfTrees? trees = some fallback := by
  induction trees with
  | nil => exact ⟨none, by rw [fallbackOfTrees?]⟩
  | cons tree trees inductionHypothesis =>
      obtain ⟨first, others⟩ := List.forall_mem_cons.mp made
      by_cases isBody : tree.rule = .body
      · rw [Made, isBody] at first
        obtain ⟨statements, means⟩ := first
        exact ⟨some statements, by rw [fallbackOfTrees?_body isBody, means, Option.map_some]⟩
      · rw [fallbackOfTrees?_skip isBody]
        exact inductionHypothesis others

theorem exists_branches (made : ∀ tree ∈ trees, Made tree) :
    ∃ branches, branchesOfTrees? trees = some branches ∧
      (nodesOf .branch trees ≠ [] → branches ≠ []) := by
  induction trees with
  | nil => exact ⟨[], by rw [branchesOfTrees?], fun found => absurd rfl found⟩
  | cons tree trees inductionHypothesis =>
      obtain ⟨first, others⟩ := List.forall_mem_cons.mp made
      obtain ⟨branches, later, found⟩ := inductionHypothesis others
      by_cases isBranch : tree.rule = .branch
      · rw [Made, isBranch] at first
        obtain ⟨branch, means⟩ := first
        exact ⟨branch ::
          branches, by rw [means, later, Option.map_some], fun _ => List.cons_ne_nil _ _⟩
      · refine ⟨branches, by rw [branchesOfTrees?_skip isBranch, later], fun further => found ?_⟩
        simpa [nodesOf, isBranch] using further

theorem fallbackOfTrees?_eq : fallbackOfTrees? trees = firstBody? (nodesOf .body trees) := by
  induction trees with
  | nil => rw [fallbackOfTrees?, nodesOf, List.filter_nil, firstBody?]
  | cons tree trees inductionHypothesis =>
      by_cases isBody : tree.rule = .body
      · simp [fallbackOfTrees?_body isBody, nodesOf, isBody, firstBody?]
      · rw [fallbackOfTrees?_skip isBody, inductionHypothesis]
        simp [nodesOf, isBody]

/-- The fallback of a conditional is made of what stands behind `else`. -/
theorem Shaped.fallback_eq (shaped : Shaped tree) (isConditional : tree.rule = .conditional) :
    fallbackOfTrees? tree.children = firstBody? (rightBehind .elseWord tree.children) := by
  have expected := shaped.expected
  rw [Expected, isConditional] at expected
  rw [fallbackOfTrees?_eq, expected.2.1]

variable {text : List Char}

theorem made_statement (expected : Expected (.node .statement text trees))
    (made : ∀ tree ∈ trees, Made tree) :
    Made (.node .statement text trees) := by
  obtain ⟨first, isFirst, isCommand⟩ := expected
  obtain ⟨marks, rfl⟩ := List.head?_eq_some_iff.mp isFirst
  have means := made first List.mem_cons_self
  obtain ⟨command, stands⟩ : ∃ command, Stands first command := by
    simp only [List.mem_cons, List.not_mem_nil, or_false] at isCommand
    rcases isCommand with same | same | same | same <;> rwa [Made, same] at means
  exact ⟨_, stands text marks⟩

theorem made_branch (shaped : Shaped (.node .branch text trees))
    (made : ∀ tree ∈ trees, Made tree) :
    Made (.node .branch text trees) := by
  obtain ⟨tested, inside⟩ := shaped.expected
  obtain ⟨test, others, same⟩ := List.exists_cons_of_ne_nil tested
  obtain ⟨member, isPipeline⟩ := mem_nodesOf.mp (same ▸ List.mem_cons_self)
  obtain ⟨stages, means⟩ := (shaped.child member).exists_pipeline isPipeline
  obtain ⟨statements, body⟩ := exists_body made inside
  refine ⟨.mk stages statements, fun trees => branchesOfTrees?_branch rfl ?_ body⟩
  rw [Pipeline.firstOf?, same]
  exact means

theorem made_conditional (expected : Expected (.node .conditional text trees))
    (made : ∀ tree ∈ trees, Made tree) : Made (.node .conditional text trees) := by
  obtain ⟨branches, tests, found⟩ := exists_branches made
  obtain ⟨fallback, otherwise⟩ := exists_fallback made
  have command :
      Command.conditionalOf? fallback branches = some (.conditional branches fallback) := by
    obtain ⟨first, others, rfl⟩ := List.exists_cons_of_ne_nil (found expected.1)
    rfl
  refine ⟨.conditional branches fallback, fun text marks trees => ?_⟩
  cases later :
    statementsOfTrees? trees <;> simp [statementsOfTrees?, tests, otherwise, command, later]

theorem made_loop (shaped : Shaped (.node .loop text trees)) (made : ∀ tree ∈ trees, Made tree) :
    Made (.node .loop text trees) := by
  obtain ⟨named, inside⟩ := shaped.expected
  obtain ⟨statements, body⟩ := exists_body made inside
  obtain ⟨name, first⟩ := exists_firstText? named
  obtain ⟨words, values⟩ := exists_words fun tree member => shaped.child member
  obtain ⟨command, loop⟩ : ∃ command, Command.loopOf? trees statements = some command := by
    rw [Peg.Tree.children_node] at first values
    rw [Command.loopOf?, first, values]
    exact ⟨_, rfl⟩
  refine ⟨command, fun text marks trees => ?_⟩
  cases later : statementsOfTrees? trees <;> simp [statementsOfTrees?, body, loop, later]

theorem made_assignment (shaped : Shaped (.node .assignment text trees)) :
    Made (.node .assignment text trees) := by
  obtain ⟨name, named⟩ := exists_firstText? shaped.expected
  obtain ⟨words, value⟩ := exists_words fun tree member => shaped.child member
  refine ⟨.assignment name words, stands_assignment rfl ?_⟩
  rw [Command.assignmentOf?, named, value]
  rfl

theorem Shaped.made (shaped : Shaped tree) : Made tree := by
  induction tree using Peg.Tree.induction with
  | step rule text children inductionHypothesis =>
      have below : ∀ child ∈ children, Made child := by
        intro child member
        exact inductionHypothesis child member (shaped.child member)
      cases rule with
      | statement => exact made_statement shaped.expected below
      | conditional => exact made_conditional shaped.expected below
      | loop => exact made_loop shaped below
      | assignment => exact made_assignment shaped
      | pipeline =>
          obtain ⟨stages, means⟩ := shaped.exists_pipeline rfl
          exact ⟨.pipeline stages, stands_pipeline rfl means⟩
      | branch => exact made_branch shaped below
      | body => exact exists_statements below
      | _ => exact trivial

/-- Of a tree in which every node has what is looked for, a script is made. -/
theorem Shaped.exists_script (shaped : Shaped tree) :
    ∃ script, Script.ofTree? tree = some script := by
  apply exists_statements
  intro child member
  exact (shaped.child member).made

end Making

/-! The grammar leaves trees of this shape. -/

namespace Rule

open Peg.Grammar

variable {tree : Peg.Tree Rule} {trees : List (Peg.Tree Rule)} {text : List Char}

theorem nodesOf_ne_nil {expr : Peg.Expr Rule} {rule : Rule} (forms : grammar.Forms expr trees)
    (needed : rule ∈ expr.needs) : nodesOf rule trees ≠ [] := by
  obtain ⟨tree, member, same⟩ := forms.exists_of_needs rule needed
  exact List.ne_nil_of_mem (mem_nodesOf.mpr ⟨member, same⟩)

theorem expected_statement (forms : grammar.Forms (pattern .statement) trees) :
    Expected (.node .statement text trees) := by
  obtain ⟨before, behind, rfl, chosen, _⟩ := forms_seq.mp forms
  obtain ⟨first, others, rfl⟩ := List.exists_cons_of_ne_nil (chosen.ne_nil rfl)
  exact ⟨first, rfl, chosen.rule_mem first List.mem_cons_self⟩

theorem rightBehind_skip {rule : Rule} (other : tree.rule ≠ rule) :
    rightBehind rule (tree :: trees) = rightBehind rule trees := by
  cases trees with
  | nil => rfl
  | cons second trees => rw [rightBehind, if_neg other]

theorem bodies_append (more : List (Peg.Tree Rule))
    (others : ∀ tree ∈ trees, tree.rule ≠ .body ∧ tree.rule ≠ .elseWord) :
    nodesOf .body (trees ++ more) = nodesOf .body more ∧
      rightBehind .elseWord (trees ++ more) = rightBehind .elseWord more := by
  induction trees with
  | nil => exact ⟨rfl, rfl⟩
  | cons tree trees inductionHypothesis =>
      obtain ⟨⟨noBody, noElse⟩, later⟩ := List.forall_mem_cons.mp others
      obtain ⟨bodies, behind⟩ := inductionHypothesis later
      rw [List.cons_append, rightBehind_skip noElse, ← bodies, ← behind]
      simp [nodesOf, noBody]

theorem expected_conditional (forms : grammar.Forms (pattern .conditional) trees) :
    Expected (.node .conditional text trees) := by
  refine ⟨nodesOf_ne_nil forms (by decide), ?_⟩
  obtain ⟨opening, _, rfl, opens, behind⟩ := forms_seq.mp forms
  obtain ⟨first, _, rfl, test, behind⟩ := forms_seq.mp behind
  obtain ⟨others, _, rfl, tests, behind⟩ := forms_seq.mp behind
  obtain ⟨last, _, rfl, otherwise, closes⟩ := forms_seq.mp behind
  obtain ⟨closing, rfl⟩ := closes.exists_leaf rfl
  -- All that stands before the last part is the word `if`, the word `elif` or a branch.
  have before := Forms.seq opens (.seq test tests)
  obtain ⟨bodies, behind⟩ := bodies_append (last ++ [.node .fiWord closing []]) fun tree member =>
    ⟨before.rule_ne (by decide) tree member, before.rule_ne (by decide) tree member⟩
  simp only [List.append_assoc] at bodies behind
  rw [Peg.Tree.children_node, bodies, behind]
  rcases forms_opt.mp otherwise with rfl | present
  · exact ⟨rfl, Nat.zero_le 1⟩
  · obtain ⟨_, _, rfl, keyword, inside⟩ := forms_seq.mp present
    obtain ⟨_, rfl⟩ := keyword.exists_leaf rfl
    obtain ⟨_, _, rfl⟩ := inside.exists_node
    simp [nodesOf, rightBehind]

theorem expected_of_forms {rule : Rule} (forms : grammar.Forms (pattern rule) trees) :
    Expected (.node rule text trees) := by
  cases rule with
  | statement => exact expected_statement forms
  | conditional => exact expected_conditional forms
  | branch => exact ⟨nodesOf_ne_nil forms (by decide), nodesOf_ne_nil forms (by decide)⟩
  | loop => exact ⟨nodesOf_ne_nil forms (by decide), nodesOf_ne_nil forms (by decide)⟩
  | assignment => exact nodesOf_ne_nil forms (by decide)
  | pipeline => exact nodesOf_ne_nil forms (by decide)
  | word =>
      intro piece member
      have called :
          (pattern .word).calls ⊆ [.literal, .dollar, .singleQuoted, .doubleQuoted,
            .reference] := by
        decide
      exact called (forms.rule_mem piece member)
  | singleQuoted | doubleQuoted | reference => exact forms.ne_nil rfl
  | _ => exact trivial

theorem expected_of_atomic {rule : Rule} (atomic : grammar.kind rule = .atomic) :
    Expected (.node rule text []) := by
  cases rule <;> first | exact trivial | contradiction

theorem shaped_of_forms {expr : Peg.Expr Rule} (forms : grammar.Forms expr trees)
    (member : tree ∈ trees) :
    Shaped tree := by
  refine forms.node_induction ?_ ?_ tree member
  · intro rule text atomic node inside
    cases inside with
    | self => exact expected_of_atomic atomic
    | deeper _ member => exact absurd member List.not_mem_nil
  · intro rule text trees forms below node inside
    cases inside with
    | self => exact expected_of_forms forms
    | deeper inside member => exact below _ member node inside

end Rule

/-- A text is matched to its end or refused. If it is matched, all nodes of the tree have below them
what is looked for there, no body is taken for a fallback but the one behind `else`, and a script is
made of the tree: a text that is no script is refused by the grammar. -/
theorem Script.parse_shaped (source : String) :
    ∃ outcome, Rule.match? source.toList = some outcome ∧
      ((outcome.result = none ∧ ∃ error, parse source = .error (.parse error)) ∨
        ∃ found tree script, outcome.result = some found ∧ found.trees = [tree] ∧
          tree.rule = .script ∧
          Shaped tree ∧ Script.ofTree? tree = some script ∧ parse source = .ok script ∧
          ∀ node : Peg.Tree Rule, node.Inside tree → node.rule = .conditional →
            fallbackOfTrees? node.children = firstBody? (rightBehind .elseWord node.children)) := by
  rcases Rule.script_of_read source.toList with ⟨tree, refusals, _, derived, _, _⟩ |
    ⟨refusals, stuck, derived, furthest, _⟩
  · obtain ⟨outcome, matched, reported⟩ := Rule.match?_of_derives derived
    have forms := derived.forms Rule.grammar_quiet (by decide) _ rfl
    have shaped : Shaped tree := Rule.shaped_of_forms forms List.mem_cons_self
    obtain ⟨script, means⟩ := shaped.exists_script
    refine ⟨outcome, matched,
      Or.inr ⟨_, tree, script, reported.result_eq, rfl, ?_, shaped, means, ?_, ?_⟩⟩
    · exact List.mem_singleton.mp (forms.rule_mem tree List.mem_cons_self)
    · exact parseChars_of_found derived means
    · intro node inside isConditional
      exact (shaped.inside inside).fallback_eq isConditional
  · obtain ⟨outcome, matched, reported⟩ := Rule.match?_of_derives derived
    obtain ⟨error, refused, _⟩ := parseChars_of_refused derived furthest
    exact ⟨outcome, matched, Or.inl ⟨reported.result_eq, error, refused⟩⟩

end CommandShell
