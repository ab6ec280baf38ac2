import Mathlib.Data.List.Forall2
import CommandShell.Proofs.Peg.Shape
import CommandShell.Proofs.Reader.Adequacy

/-!
The script that a tree of matched rules denotes, said by the shapes that the nodes of each rule can
have. Every derivation of the grammar leaves such a tree, and so a text is parsed to a script
exactly if the grammar derives it with a tree that denotes the script.
-/

namespace CommandShell

/-- A piece of a word: its own text, the text between the quotes or the name behind the dollar
sign. -/
inductive DenotesPiece : Peg.Tree Rule → Word → Prop where
  | literal {text} : DenotesPiece (.node .literal text []) (.literal (.ofList text))
  | dollar {text} : DenotesPiece (.node .dollar text []) (.literal (.ofList text))
  | singleQuoted {text inside} :
      DenotesPiece (.node .singleQuoted text [.node .singleQuotedText inside []])
        (.literal (.ofList inside))
  | doubleQuoted {text inside} :
      DenotesPiece (.node .doubleQuoted text [.node .doubleQuotedText inside []])
        (.literal (.ofList inside))
  | named {text name} :
      DenotesPiece (.node .reference text [.node .name name []]) (.reference (.ofList name))
  | status {text name} :
      DenotesPiece (.node .reference text [.node .statusName name []]) (.reference (.ofList name))

inductive DenotesWord : Peg.Tree Rule → List Word → Prop where
  | word {text pieces words} (each : List.Forall₂ DenotesPiece pieces words) :
      DenotesWord (.node .word text pieces) words

/-- Words in a row, with no trace of where one ends and the next begins. -/
def DenotesWords (trees : List (Peg.Tree Rule)) (words : List Word) : Prop :=
  ∃ parts, List.Forall₂ DenotesWord trees parts ∧ parts.flatten = words

inductive DenotesProgram : Peg.Tree Rule → Program → Prop where
  | program {text trees words} (denoted : DenotesWords trees words) :
      DenotesProgram (.node .program text trees) words

inductive DenotesPipeline : Peg.Tree Rule → Pipeline → Prop where
  | pipeline {text first trees stages}
      (each : List.Forall₂ DenotesProgram (first :: trees) stages) :
      DenotesPipeline (.node .pipeline text (first :: trees)) stages

/-- A mark that may be there or not. -/
inductive DenotesMark (rule : Rule) : List (Peg.Tree Rule) → Bool → Prop where
  | present {text} : DenotesMark rule [.node rule text []] true
  | absent : DenotesMark rule [] false

mutual

inductive DenotesCommand : Peg.Tree Rule → Command → Prop where
  | pipeline {tree stages} (denoted : DenotesPipeline tree stages) :
      DenotesCommand tree (.pipeline stages)
  | assignment {text name value words} (denoted : DenotesWords value words) :
      DenotesCommand (.node .assignment text (.node .name name [] :: value))
        (.assignment (.ofList name) words)
  | conditional {text opening first others last closing branch branches fallback}
      (test : DenotesBranch first branch) (tests : DenotesBranches others branches)
      (otherwise : DenotesFallback last fallback) :
      DenotesCommand
        (.node .conditional text
          (.node .ifWord opening [] :: first :: (others ++ (last ++ [.node .fiWord closing []]))))
        (.conditional (branch :: branches) fallback)
  | loop {text opening name joint values marks start body closing words parallel statements}
      (denoted : DenotesWords values words) (marked : DenotesMark .parallelWord marks parallel)
      (inside : DenotesBody body statements) :
      DenotesCommand
        (.node .loop text
          (.node .forWord opening [] :: .node .name name [] :: .node .inWord joint [] ::
            (values ++ (marks ++ [.node .doWord start [], body, .node .doneWord closing []]))))
        (.loop parallel (.literal (.ofList name)) words statements)

inductive DenotesBranch : Peg.Tree Rule → Branch → Prop where
  | branch {text test keyword body stages statements} (tested : DenotesPipeline test stages)
      (inside : DenotesBody body statements) :
      DenotesBranch (.node .branch text [test, .node .thenWord keyword [], body])
        (.mk stages statements)

/-- The branches behind the first. -/
inductive DenotesBranches : List (Peg.Tree Rule) → List Branch → Prop where
  | nil : DenotesBranches [] []
  | cons {keyword tree trees branch branches} (denoted : DenotesBranch tree branch)
      (later : DenotesBranches trees branches) :
      DenotesBranches (.node .elifWord keyword [] :: tree :: trees) (branch :: branches)

inductive DenotesFallback : List (Peg.Tree Rule) → Option (List Statement) → Prop where
  | none : DenotesFallback [] none
  | some {keyword body statements} (inside : DenotesBody body statements) :
      DenotesFallback [.node .elseWord keyword [], body] (some statements)

inductive DenotesBody : Peg.Tree Rule → List Statement → Prop where
  | body {text trees statements} (denoted : DenotesStatements trees statements) :
      DenotesBody (.node .body text trees) statements

inductive DenotesStatements : List (Peg.Tree Rule) → List Statement → Prop where
  | nil : DenotesStatements [] []
  | cons {tree trees statement statements} (denoted : DenotesStatement tree statement)
      (later : DenotesStatements trees statements) :
      DenotesStatements (tree :: trees) (statement :: statements)

inductive DenotesStatement : Peg.Tree Rule → Statement → Prop where
  | statement {text tree marks command background} (denoted : DenotesCommand tree command)
      (marked : DenotesMark .background marks background) :
      DenotesStatement (.node .statement text (tree :: marks)) (.mk command background)

end

theorem DenotesStatements.of_forall₂ {trees : List (Peg.Tree Rule)} {statements : List Statement}
    (each : List.Forall₂ DenotesStatement trees statements) :
    DenotesStatements trees statements := by
  induction each with
  | nil => exact .nil
  | cons first _ inductionHypothesis => exact .cons first inductionHypothesis

inductive DenotesScript : Peg.Tree Rule → Script → Prop where
  | script {text trees ending statements} (denoted : DenotesStatements trees statements) :
      DenotesScript (.node .script text (trees ++ [.node .endOfInput ending []])) statements

/-! What a tree denotes is what is made of it. -/

section OfTree

open Rule

variable {tree : Peg.Tree Rule} {trees : List (Peg.Tree Rule)}

theorem DenotesPiece.ofTree? {piece : Word} (denoted : DenotesPiece tree piece) :
    Word.ofTree? tree = some piece := by
  cases denoted <;> rfl

theorem DenotesWord.mapM_ofTree? {words : List Word} (denoted : DenotesWord tree words) :
    tree.rule = .word ∧ tree.children.mapM Word.ofTree? = some words := by
  obtain ⟨each⟩ := denoted
  refine ⟨rfl, ?_⟩
  rw [Peg.Tree.children_node]
  induction each with
  | nil => rfl
  | cons first _ inductionHypothesis => simp [first.ofTree?, inductionHypothesis]

theorem DenotesWords.spells {words : List Word} (denoted : DenotesWords trees words) :
    Spells trees words := by
  obtain ⟨parts, each, rfl⟩ := denoted
  induction each with
  | nil => exact .nil
  | cons first _ inductionHypothesis =>
      exact inductionHypothesis.cons first.mapM_ofTree?.1 first.mapM_ofTree?.2

theorem stages_of_forall₂ {stages : Pipeline} (each : List.Forall₂ DenotesProgram trees stages) :
    Stages trees stages := by
  induction each with
  | nil => exact .nil
  | cons first _ inductionHypothesis =>
      obtain ⟨words⟩ := first
      exact inductionHypothesis.cons rfl words.spells.means

theorem DenotesPipeline.ofTree? {stages : Pipeline} (denoted : DenotesPipeline tree stages) :
    tree.rule = .pipeline ∧ Pipeline.ofTree? tree = some stages := by
  obtain ⟨each⟩ := denoted
  cases each with
  | cons first later =>
      exact ⟨rfl, Pipeline.ofTree?_of_stages (stages_of_forall₂ (.cons first later))⟩

theorem DenotesMark.hasNode_eq {rule : Rule} {marked : Bool}
    (marks : DenotesMark rule trees marked) :
    hasNode rule trees = marked := by
  cases marks <;> simp [hasNode]

theorem stands_assignment_of_words {text name : List Char} {words : List Word}
    (denoted : DenotesWords trees words) :
    Stands (.node .assignment text (.node .name name [] :: trees))
      (.assignment (.ofList name) words) := by
  have spells := denoted.spells
  have noName : ∀ tree ∈ trees, tree.rule ≠ .name := by
    intro tree membership
    simp [spells.rule_eq tree membership]
  have value : Word.allOfTrees? (.node .name name [] :: trees) = some words := spells.means
  have names : nodesOf .name (.node .name name [] :: trees) = [.node .name name []] := by
    simpa [nodesOf] using noName
  refine stands_assignment rfl ?_
  simp [Command.assignmentOf?, names, value, firstText?, Peg.Tree.text]

mutual

theorem DenotesCommand.stands {tree : Peg.Tree Rule} {command : Command} :
    DenotesCommand tree command → Stands tree command
  | .pipeline denoted => stands_pipeline denoted.ofTree?.1 denoted.ofTree?.2
  | .assignment denoted => stands_assignment_of_words denoted
  | .conditional test tests otherwise => by
      obtain ⟨noBranch, means⟩ := otherwise.fallbackOfTrees?
      exact stands_conditional
        ((test.branchTrees.append tests.branchTrees).mark (by simp) (by simp)) (by simp)
        noBranch means
  | .loop denoted marked inside => by
      obtain ⟨isBody, means⟩ := inside.statementsOfTrees?
      cases marked with
      | @present mark =>
          simpa using stands_loop (headTrees_of_spells denoted.spells _ mark _ true) isBody means
      | absent =>
          simpa using stands_loop (headTrees_of_spells denoted.spells _ [] _ false) isBody means

theorem DenotesBranch.branchTrees {tree : Peg.Tree Rule} {branch : Branch} :
    DenotesBranch tree branch → BranchTrees [tree] [branch]
  | .branch tested inside =>
      branchTrees_branch tested.ofTree?.1 tested.ofTree?.2 inside.statementsOfTrees?.1
        inside.statementsOfTrees?.2

theorem DenotesBranches.branchTrees {trees : List (Peg.Tree Rule)} {branches : List Branch} :
    DenotesBranches trees branches → BranchTrees trees branches
  | .nil => .nil
  | .cons denoted later => (denoted.branchTrees.append later.branchTrees).mark (by simp) (by simp)

theorem DenotesFallback.fallbackOfTrees? {trees : List (Peg.Tree Rule)}
    {fallback : Option (List Statement)} {closing : List Char} : DenotesFallback trees fallback →
    branchesOfTrees? (trees ++ [.node .fiWord closing []]) = some [] ∧
      fallbackOfTrees? (trees ++ [.node .fiWord closing []]) = some fallback
  | .none => by simp [branchesOfTrees?, CommandShell.fallbackOfTrees?]
  | .some inside => by
      obtain ⟨isBody, means⟩ := inside.statementsOfTrees?
      constructor
      · simp [branchesOfTrees?_skip, isBody, branchesOfTrees?]
      · rw [List.cons_append, fallbackOfTrees?_skip (by simp), List.cons_append,
          fallbackOfTrees?_body isBody,
          means, Option.map_some]

theorem DenotesBody.statementsOfTrees? {tree : Peg.Tree Rule} {statements : List Statement} :
    DenotesBody tree statements →
    tree.rule = .body ∧ CommandShell.statementsOfTrees? tree.children = some statements
  | .body denoted =>
    ⟨rfl, by simpa [CommandShell.statementsOfTrees?] using denoted.statementsOfTrees? []⟩

theorem DenotesStatements.statementsOfTrees? {trees : List (Peg.Tree Rule)}
    {statements : List Statement} :
    DenotesStatements trees statements → ∀ more, CommandShell.statementsOfTrees? (trees ++ more) =
      (CommandShell.statementsOfTrees? more).map (statements ++ ·)
  | .nil => by simp
  | .cons denoted later => by
      intro more
      rw [List.cons_append, denoted.statementsOfTrees?, later.statementsOfTrees?, Option.map_map]
      rfl

theorem DenotesStatement.statementsOfTrees? {tree : Peg.Tree Rule} {statement : Statement} :
    DenotesStatement tree statement → ∀ trees, CommandShell.statementsOfTrees? (tree :: trees) =
      (CommandShell.statementsOfTrees? trees).map (statement :: ·)
  | .statement denoted marked => by
      intro trees
      rw [denoted.stands, marked.hasNode_eq]

end

theorem DenotesScript.ofTree? {script : Script} (denoted : DenotesScript tree script) :
    Script.ofTree? tree = some script := by
  obtain ⟨inside⟩ := denoted
  rw [Script.ofTree?, Peg.Tree.children_node, inside.statementsOfTrees?,
    statementsOfTrees?_skip (by simp)]
  simp [statementsOfTrees?]

end OfTree

/-! Every tree that the grammar leaves denotes something. -/

/-- Whether a node denotes what nodes of its rule should. -/
def Denotes (tree : Peg.Tree Rule) : Prop :=
  match tree.rule with
  | .literal | .dollar | .singleQuoted | .doubleQuoted | .reference =>
      ∃ piece, DenotesPiece tree piece
  | .word => ∃ words, DenotesWord tree words
  | .program => ∃ program, DenotesProgram tree program
  | .pipeline => ∃ stages, DenotesPipeline tree stages
  | .assignment | .conditional | .loop => ∃ command, DenotesCommand tree command
  | .branch => ∃ branch, DenotesBranch tree branch
  | .body => ∃ statements, DenotesBody tree statements
  | .statement => ∃ statement, DenotesStatement tree statement
  | .script => ∃ script, DenotesScript tree script
  | _ => True

namespace Rule

theorem grammar_quiet : grammar.Quiet where
  filler := rfl
  atomic := by
    intro rule
    cases rule <;> decide

section Shapes

open Peg.Grammar

variable {text : List Char} {trees : List (Peg.Tree Rule)}

theorem exists_forall₂ {α : Type} {denotes : Peg.Tree Rule → α → Prop} {rules : List Rule}
    {expr : Peg.Expr Rule} (forms : grammar.Forms expr trees) (called : expr.calls ⊆ rules)
    (below : ∀ tree ∈ trees, Denotes tree)
    (means : ∀ tree, tree.rule ∈ rules → Denotes tree → ∃ a, denotes tree a) :
    ∃ as, List.Forall₂ denotes trees as := by
  have each : ∀ tree ∈ trees, ∃ a, denotes tree a := fun tree membership =>
    means tree (called (forms.rule_mem tree membership)) (below tree membership)
  clear forms below
  induction trees with
  | nil => exact ⟨[], .nil⟩
  | cons tree trees inductionHypothesis =>
      obtain ⟨⟨a, first⟩, later⟩ := List.forall_mem_cons.mp each
      obtain ⟨as, denoted⟩ := inductionHypothesis later
      exact ⟨a :: as, .cons first denoted⟩

theorem exists_quoted {quote : Char} {rule : Rule} (silent : (pattern rule).calls = [])
    (forms : grammar.Forms (.inOrder (.only quote) [.call rule, .only quote]) trees) :
    ∃ inside, trees = [.node rule inside []] := by
  obtain ⟨_, _, rfl, opening, behind⟩ := forms_seq.mp forms
  obtain ⟨_, _, rfl, inside, closing⟩ := forms_seq.mp behind
  obtain ⟨inner, rfl⟩ := inside.exists_leaf silent
  exact ⟨inner, by rw [opening.eq_nil rfl, closing.eq_nil rfl]; rfl⟩

theorem denotes_referred (forms : grammar.Forms referred trees) :
    Denotes (.node .reference text trees) := by
  rcases forms_alt.mp forms with name | status
  · obtain ⟨inner, rfl⟩ := name.exists_leaf rfl
    exact ⟨_, .named⟩
  · obtain ⟨inner, rfl⟩ := status.exists_leaf rfl
    exact ⟨_, .status⟩

theorem denotes_reference (forms : grammar.Forms (pattern .reference) trees) :
    Denotes (.node .reference text trees) := by
  obtain ⟨_, _, rfl, dollar, behind⟩ := forms_seq.mp forms
  rw [dollar.eq_nil rfl, List.nil_append]
  rcases forms_alt.mp behind with braced | bare
  · obtain ⟨_, _, rfl, opening, behind⟩ := forms_seq.mp braced
    obtain ⟨_, _, rfl, inside, closing⟩ := forms_seq.mp behind
    rw [opening.eq_nil rfl, closing.eq_nil rfl, List.nil_append, List.append_nil]
    exact denotes_referred inside
  · exact denotes_referred bare

theorem exists_denotesPiece (tree : Peg.Tree Rule)
    (isPiece : tree.rule ∈ [.singleQuoted, .doubleQuoted, .reference, .literal, .dollar])
    (denoted : Denotes tree) : ∃ piece, DenotesPiece tree piece := by
  obtain ⟨rule, inner, children⟩ := tree
  simp only [Peg.Tree.rule_node, List.mem_cons, List.not_mem_nil, or_false] at isPiece
  rcases isPiece with rfl | rfl | rfl | rfl | rfl <;> exact denoted

theorem denotes_word (forms : grammar.Forms (pattern .word) trees)
    (below : ∀ tree ∈ trees, Denotes tree) :
    Denotes (.node .word text trees) := by
  obtain ⟨words, each⟩ := exists_forall₂ forms (by decide) below exists_denotesPiece
  exact ⟨words, .word each⟩

theorem exists_denotesWords {expr : Peg.Expr Rule} (forms : grammar.Forms expr trees)
    (called : expr.calls ⊆ [.word]) (below : ∀ tree ∈ trees, Denotes tree) :
    ∃ words, DenotesWords trees words := by
  obtain ⟨parts, each⟩ : ∃ parts, List.Forall₂ DenotesWord trees parts := by
    refine exists_forall₂ forms called below fun tree isWord denoted => ?_
    simpa [Denotes, List.mem_singleton.mp isWord] using denoted
  exact ⟨_, parts, each, rfl⟩

theorem denotes_program (forms : grammar.Forms (pattern .program) trees)
    (below : ∀ tree ∈ trees, Denotes tree) : Denotes (.node .program text trees) := by
  obtain ⟨words, denoted⟩ := exists_denotesWords forms (by decide) below
  exact ⟨words, .program denoted⟩

theorem denotes_pipeline (forms : grammar.Forms (pattern .pipeline) trees)
    (below : ∀ tree ∈ trees, Denotes tree) : Denotes (.node .pipeline text trees) := by
  obtain ⟨stages, each⟩ : ∃ stages, List.Forall₂ DenotesProgram trees stages := by
    refine exists_forall₂ forms (show _ ⊆ [.program] by decide) below
      fun tree isProgram denoted => ?_
    simpa [Denotes, List.mem_singleton.mp isProgram] using denoted
  obtain ⟨_, behind, rfl, first, _⟩ := forms_seq.mp forms
  obtain ⟨inner, children, rfl⟩ := first.exists_node
  exact ⟨stages, .pipeline each⟩

theorem denotes_assignment (forms : grammar.Forms (pattern .assignment) trees)
    (below : ∀ tree ∈ trees, Denotes tree) : Denotes (.node .assignment text trees) := by
  obtain ⟨_, _, rfl, named, behind⟩ := forms_seq.mp forms
  obtain ⟨_, value, rfl, equals, valued⟩ := forms_seq.mp behind
  obtain ⟨name, rfl⟩ := named.exists_leaf rfl
  rw [equals.eq_nil rfl]
  obtain ⟨words, denoted⟩ := exists_denotesWords valued (by decide) fun tree membership =>
    below tree (by simp [membership])
  exact ⟨_, .assignment denoted⟩

theorem denotes_branch (forms : grammar.Forms (pattern .branch) trees)
    (below : ∀ tree ∈ trees, Denotes tree) : Denotes (.node .branch text trees) := by
  obtain ⟨_, _, rfl, test, behind⟩ := forms_seq.mp forms
  obtain ⟨_, _, rfl, separated, behind⟩ := forms_seq.mp behind
  obtain ⟨_, _, rfl, keyword, inside⟩ := forms_seq.mp behind
  obtain ⟨testText, programs, rfl⟩ := test.exists_node
  obtain ⟨_, rfl⟩ := keyword.exists_leaf rfl
  obtain ⟨bodyText, children, rfl⟩ := inside.exists_node
  rw [separated.eq_nil rfl] at below ⊢
  obtain ⟨stages, tested⟩ := below (.node .pipeline testText programs) (by simp)
  obtain ⟨statements, denoted⟩ := below (.node .body bodyText children) (by simp)
  exact ⟨_, .branch tested denoted⟩

theorem exists_denotesBranches (forms : grammar.Forms (.star elif) trees) :
    (∀ tree ∈ trees, Denotes tree) → ∃ branches, DenotesBranches trees branches := by
  apply forms.star_induction
  · exact fun _ => ⟨[], .nil⟩
  · intro part trees left inductionHypothesis below
    obtain ⟨_, _, rfl, keyword, branch⟩ := forms_seq.mp left
    obtain ⟨_, rfl⟩ := keyword.exists_leaf rfl
    obtain ⟨inner, children, rfl⟩ := branch.exists_node
    obtain ⟨branch, first⟩ := below (.node .branch inner children) (by simp)
    obtain ⟨branches, later⟩ :=
      inductionHypothesis fun tree membership => below tree (by simp [membership])
    exact ⟨branch :: branches, .cons first later⟩

theorem exists_denotesFallback
    (forms : grammar.Forms (.opt (.seq (.call .elseWord) (.call .body))) trees)
    (below : ∀ tree ∈ trees, Denotes tree) : ∃ fallback, DenotesFallback trees fallback := by
  rcases forms_opt.mp forms with rfl | present
  · exact ⟨none, .none⟩
  · obtain ⟨_, _, rfl, keyword, inside⟩ := forms_seq.mp present
    obtain ⟨_, rfl⟩ := keyword.exists_leaf rfl
    obtain ⟨inner, children, rfl⟩ := inside.exists_node
    obtain ⟨statements, denoted⟩ := below (.node .body inner children) (by simp)
    exact ⟨some statements, .some denoted⟩

theorem denotes_conditional (forms : grammar.Forms (pattern .conditional) trees)
    (below : ∀ tree ∈ trees, Denotes tree) : Denotes (.node .conditional text trees) := by
  obtain ⟨_, _, rfl, opening, behind⟩ := forms_seq.mp forms
  obtain ⟨_, _, rfl, test, behind⟩ := forms_seq.mp behind
  obtain ⟨others, _, rfl, tests, behind⟩ := forms_seq.mp behind
  obtain ⟨last, _, rfl, otherwise, closing⟩ := forms_seq.mp behind
  obtain ⟨_, rfl⟩ := opening.exists_leaf rfl
  obtain ⟨inner, children, rfl⟩ := test.exists_node
  obtain ⟨_, rfl⟩ := closing.exists_leaf rfl
  obtain ⟨branch, first⟩ := below (.node .branch inner children) (by simp)
  obtain ⟨branches, later⟩ := exists_denotesBranches tests fun tree membership =>
    below tree (by simp [membership])
  obtain ⟨fallback, denoted⟩ := exists_denotesFallback otherwise fun tree membership =>
    below tree (by simp [membership])
  exact ⟨_, .conditional first later denoted⟩

theorem exists_denotesMark {rule : Rule} (silent : (pattern rule).calls = [])
    (forms : grammar.Forms (.opt (.call rule)) trees) :
    ∃ marked, DenotesMark rule trees marked := by
  rcases forms_opt.mp forms with rfl | present
  · exact ⟨false, .absent⟩
  · obtain ⟨_, rfl⟩ := present.exists_leaf silent
    exact ⟨true, .present⟩

theorem denotes_loop (forms : grammar.Forms (pattern .loop) trees)
    (below : ∀ tree ∈ trees, Denotes tree) : Denotes (.node .loop text trees) := by
  obtain ⟨_, _, rfl, opening, behind⟩ := forms_seq.mp forms
  obtain ⟨_, _, rfl, named, behind⟩ := forms_seq.mp behind
  obtain ⟨_, _, rfl, joint, behind⟩ := forms_seq.mp behind
  obtain ⟨values, _, rfl, valued, behind⟩ := forms_seq.mp behind
  obtain ⟨_, _, rfl, separated, behind⟩ := forms_seq.mp behind
  obtain ⟨marks, _, rfl, marked, behind⟩ := forms_seq.mp behind
  obtain ⟨_, _, rfl, entry, behind⟩ := forms_seq.mp behind
  obtain ⟨_, _, rfl, inside, closing⟩ := forms_seq.mp behind
  obtain ⟨_, rfl⟩ := opening.exists_leaf rfl
  obtain ⟨_, rfl⟩ := named.exists_leaf rfl
  obtain ⟨_, rfl⟩ := joint.exists_leaf rfl
  obtain ⟨_, rfl⟩ := entry.exists_leaf rfl
  obtain ⟨inner, children, rfl⟩ := inside.exists_node
  obtain ⟨_, rfl⟩ := closing.exists_leaf rfl
  rw [separated.eq_nil rfl] at below ⊢
  obtain ⟨words, denoted⟩ := exists_denotesWords valued (by decide) fun tree membership =>
    below tree (by simp [membership])
  obtain ⟨parallel, marked⟩ := exists_denotesMark rfl marked
  obtain ⟨statements, body⟩ := below (.node .body inner children) (by simp)
  exact ⟨_, .loop denoted marked body⟩

theorem exists_denotesCommand (forms : grammar.Forms choice trees)
    (below : ∀ tree ∈ trees, Denotes tree) :
    ∃ tree command, trees = [tree] ∧ DenotesCommand tree command := by
  obtain ⟨called, isChoice, forms⟩ := forms_oneOf.mp forms
  simp only [List.mem_cons, List.not_mem_nil, or_false] at isChoice
  rcases isChoice with rfl | rfl | rfl | rfl
  · obtain ⟨inner, children, rfl⟩ := forms.exists_node
    obtain ⟨command, denoted⟩ := below (.node .conditional inner children) (by simp)
    exact ⟨_, command, rfl, denoted⟩
  · obtain ⟨inner, children, rfl⟩ := forms.exists_node
    obtain ⟨command, denoted⟩ := below (.node .loop inner children) (by simp)
    exact ⟨_, command, rfl, denoted⟩
  · obtain ⟨inner, children, rfl⟩ := forms.exists_node
    obtain ⟨command, denoted⟩ := below (.node .assignment inner children) (by simp)
    exact ⟨_, command, rfl, denoted⟩
  · obtain ⟨inner, children, rfl⟩ := forms.exists_node
    obtain ⟨stages, denoted⟩ := below (.node .pipeline inner children) (by simp)
    exact ⟨_, _, rfl, .pipeline denoted⟩

theorem denotes_statement (forms : grammar.Forms (pattern .statement) trees)
    (below : ∀ tree ∈ trees, Denotes tree) : Denotes (.node .statement text trees) := by
  obtain ⟨_, marks, rfl, chosen, ended⟩ := forms_seq.mp forms
  obtain ⟨tree, command, rfl, denoted⟩ := exists_denotesCommand chosen fun tree membership =>
    below tree (by simp [membership])
  rcases forms_alt.mp ended with background | foreground
  · obtain ⟨_, _, rfl, mark, separated⟩ := forms_seq.mp background
    obtain ⟨_, rfl⟩ := mark.exists_leaf rfl
    rw [separated.eq_nil rfl]
    exact ⟨_, .statement denoted .present⟩
  · rw [foreground.eq_nil rfl]
    exact ⟨_, .statement denoted .absent⟩

theorem exists_denotesStatements {expr : Peg.Expr Rule} (forms : grammar.Forms expr trees)
    (called : expr.calls ⊆ [.statement]) (below : ∀ tree ∈ trees, Denotes tree) :
    ∃ statements, DenotesStatements trees statements := by
  obtain ⟨statements, each⟩ : ∃ statements, List.Forall₂ DenotesStatement trees statements := by
    refine exists_forall₂ forms called below fun tree isStatement denoted => ?_
    simpa [Denotes, List.mem_singleton.mp isStatement] using denoted
  exact ⟨statements, .of_forall₂ each⟩

theorem denotes_body (forms : grammar.Forms (pattern .body) trees)
    (below : ∀ tree ∈ trees, Denotes tree) :
    Denotes (.node .body text trees) := by
  obtain ⟨statements, denoted⟩ := exists_denotesStatements forms (by decide) below
  exact ⟨statements, .body denoted⟩

theorem denotes_script (forms : grammar.Forms (pattern .script) trees)
    (below : ∀ tree ∈ trees, Denotes tree) : Denotes (.node .script text trees) := by
  obtain ⟨_, _, rfl, atStart, behind⟩ := forms_seq.mp forms
  obtain ⟨_, _, rfl, separated, behind⟩ := forms_seq.mp behind
  obtain ⟨inner, _, rfl, repeated, ended⟩ := forms_seq.mp behind
  obtain ⟨_, rfl⟩ := ended.exists_leaf rfl
  rw [atStart.eq_nil rfl, separated.eq_nil rfl, List.nil_append, List.nil_append]
  obtain ⟨statements, denoted⟩ :=
    exists_denotesStatements repeated (by decide) fun tree membership =>
    below tree (by simp [membership])
  exact ⟨statements, .script denoted⟩

/-- A node denotes something if the nodes below it do. -/
theorem denotes_of_forms {rule : Rule} (forms : grammar.Forms (pattern rule) trees)
    (below : ∀ tree ∈ trees, Denotes tree) : Denotes (.node rule text trees) := by
  cases rule with
  | literal =>
      rw [forms.eq_nil rfl]
      exact ⟨_, .literal⟩
  | dollar =>
      rw [forms.eq_nil rfl]
      exact ⟨_, .dollar⟩
  | singleQuoted =>
      obtain ⟨inside, rfl⟩ := exists_quoted rfl forms
      exact ⟨_, .singleQuoted⟩
  | doubleQuoted =>
      obtain ⟨inside, rfl⟩ := exists_quoted rfl forms
      exact ⟨_, .doubleQuoted⟩
  | reference => exact denotes_reference forms
  | word => exact denotes_word forms below
  | program => exact denotes_program forms below
  | pipeline => exact denotes_pipeline forms below
  | assignment => exact denotes_assignment forms below
  | conditional => exact denotes_conditional forms below
  | loop => exact denotes_loop forms below
  | branch => exact denotes_branch forms below
  | body => exact denotes_body forms below
  | statement => exact denotes_statement forms below
  | script => exact denotes_script forms below
  | _ => exact trivial

theorem denotes_of_atomic {rule : Rule} (atomic : grammar.kind rule = .atomic) :
    Denotes (.node rule text []) := by
  cases rule with
  | literal => exact ⟨_, .literal⟩
  | dollar => exact ⟨_, .dollar⟩
  | _ => first | exact trivial | contradiction

end Shapes

theorem exists_denotesScript {total : Nat} {tree : Peg.Tree Rule} {source rest : List Char}
    {refusals : List Nat}
    (derived : grammar.Derives total (.call .script) .loose .straight source (some ([tree], rest))
      refusals) :
    ∃ script, DenotesScript tree script := by
  have forms := derived.forms grammar_quiet (by decide) _ rfl
  -- Every node denotes what it should, from the leaves up to the one of the script.
  have denoted := forms.node_induction denotes_of_atomic denotes_of_forms tree (by simp)
  obtain ⟨text, children, same⟩ := forms.exists_node
  obtain rfl := List.singleton_inj.mp same
  exact denoted

end Rule

namespace Script

/-- A text is parsed to a script exactly if the grammar derives the whole text with a tree that
denotes the script. -/
theorem parse_eq_ok_iff_derives (source : String) (script : Script) :
    parse source = .ok script ↔ ∃ tree refusals,
      Rule.grammar.Derives source.toList.length (.call .script) .loose .straight source.toList
        (some ([tree], [])) refusals ∧ DenotesScript tree script := by
  constructor
  · intro parsed
    have reads := parseChars_eq_ok.mp parsed
    rcases Rule.script_of_read source.toList with
      ⟨tree, refusals, script', derived, means, reads'⟩ |
      ⟨refusals, stuck, derived, furthest, reads'⟩
    · -- The tree denotes some script, and so it is the one that was made of the tree.
      obtain ⟨script'', denoted⟩ := Rule.exists_denotesScript derived
      obtain rfl := Except.ok.inj (reads'.symm.trans reads)
      obtain rfl := Option.some.inj (denoted.ofTree?.symm.trans means)
      exact ⟨tree, refusals, derived, denoted⟩
    · simp [reads'] at reads
  · rintro ⟨tree, refusals, derived, denoted⟩
    exact parseChars_of_found derived denoted.ofTree?

end Script

end CommandShell
