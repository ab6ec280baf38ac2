import CommandShell.Proofs.Peg.Derivation

/-!
The trees that derivations leave. `Grammar.Forms` is what an expression says about them alone, with
no regard to the text: one node for every call, in order, and below it the nodes of the rule's body,
or none if the rule is atomic.
-/

namespace CommandShell.Peg

variable {Rule : Type}

/-- The rules that an expression calls, other than to look ahead. -/
def Expr.calls : Expr Rule → List Rule
  | .char _ | .text _ | .start | .done | .ahead _ | .avoid _ => []
  | .seq first second | .join first second | .alt first second => first.calls ++ second.calls
  | .opt body | .more body => body.calls
  | .call rule => [rule]

/-- The rules that leave a node wherever an expression matches. -/
def Expr.needs : Expr Rule → List Rule
  | .seq first second | .join first second => first.needs ++ second.needs
  | .call rule => [rule]
  | _ => []

/-- Whether an expression leaves nodes wherever it matches. -/
def Expr.leaves : Expr Rule → Bool
  | .seq first second | .join first second => first.leaves || second.leaves
  | .alt first second => first.leaves && second.leaves
  | .call _ => true
  | _ => false

/-- A node is a tree or stands somewhere below it. -/
inductive Tree.Inside (node : Tree Rule) : Tree Rule → Prop where
  | self : Inside node node
  | deeper {child tree : Tree Rule} (inside : Inside node child) (member : child ∈ tree.children) :
      Inside node tree

theorem Tree.Inside.trans {first second third : Tree Rule} (inside : first.Inside second)
    (outside : second.Inside third) : first.Inside third := by
  induction outside with
  | self => exact inside
  | deeper _ member inductionHypothesis => exact .deeper inductionHypothesis member

/-- What holds of a tree if it holds of the trees right below holds of all trees. -/
theorem Tree.induction {motive : Tree Rule → Prop}
    (step : ∀ rule text children, (∀ child ∈ children, motive child) →
      motive (.node rule text children))
    (tree : Tree Rule) : motive tree := by
  refine @Tree.rec Rule motive (fun trees => ∀ tree ∈ trees, motive tree) ?_ ?_ ?_ tree
  · exact step
  · simp
  · intro first others inFirst inOthers
    exact List.forall_mem_cons.mpr ⟨inFirst, inOthers⟩

namespace Grammar

variable {grammar : Grammar Rule}

/-- Neither filler nor atomic rules call any others. -/
structure Quiet (grammar : Grammar Rule) : Prop where
  filler : grammar.filler.calls = []
  atomic : ∀ rule, grammar.kind rule = .atomic → (grammar.body rule).calls = []

variable {total : Nat} {expr : Expr Rule} {mode : Mode} {look : Look} {text : List Char}
  {result : Option (Found Rule)} {refusals : List Nat}

theorem Derives.trees_eq_nil (derived : grammar.Derives total expr mode look text result refusals)
    (quiet : grammar.Quiet) (silent : expr.calls = []) : ∀ found ∈ result, found.1 = [] := by
  induction derived with
  | char | text | start | done | charRefused | textRefused | startRefused | doneRefused => simp
  | joinRefused | seqRefused | seqBlocked | aheadRefused | avoidRefused => simp
  | optNone | moreStop | moreBlocked | moreStopLoose | ahead | avoid => simp
  | call => simp [Expr.calls] at silent
  | seq _ _ inductionHypothesis => exact inductionHypothesis silent
  | opt _ inductionHypothesis => exact inductionHypothesis silent
  | altFirst _ inductionHypothesis =>
      exact inductionHypothesis (List.append_eq_nil_iff.mp silent).1
  | altSecond _ _ _ inductionHypothesis =>
      exact inductionHypothesis (List.append_eq_nil_iff.mp silent).2
  | join _ _ first second =>
      obtain ⟨silentFirst, silentSecond⟩ := List.append_eq_nil_iff.mp silent
      intro found membership
      obtain ⟨inner, innerMembership, rfl⟩ := Option.map_eq_some_iff.mp membership
      exact List.append_eq_nil_iff.mpr ⟨first silentFirst _ rfl,
        second silentSecond inner innerMembership⟩
  | more _ _ _ first second =>
      intro found membership
      obtain ⟨inner, innerMembership, rfl⟩ := Option.map_eq_some_iff.mp membership
      exact List.append_eq_nil_iff.mpr ⟨first silent _ rfl, second silent inner innerMembership⟩
  | seqLoose _ _ _ first filler second =>
      obtain ⟨silentFirst, silentSecond⟩ := List.append_eq_nil_iff.mp silent
      intro found membership
      obtain ⟨inner, innerMembership, rfl⟩ := Option.map_eq_some_iff.mp membership
      have between :=
        List.append_eq_nil_iff.mpr ⟨first silentFirst _ rfl, filler quiet.filler _ rfl⟩
      exact List.append_eq_nil_iff.mpr ⟨between, second silentSecond inner innerMembership⟩
  | moreLoose _ _ _ filler first second =>
      intro found membership
      obtain ⟨inner, innerMembership, rfl⟩ := Option.map_eq_some_iff.mp membership
      have between := List.append_eq_nil_iff.mpr ⟨filler quiet.filler _ rfl, first silent _ rfl⟩
      exact List.append_eq_nil_iff.mpr ⟨between, second silent inner innerMembership⟩

/-- The nodes that an expression leaves. -/
inductive Forms (grammar : Grammar Rule) : Expr Rule → List (Tree Rule) → Prop where
  | char {accepts} : Forms grammar (.char accepts) []
  | text {characters} : Forms grammar (.text characters) []
  | start : Forms grammar .start []
  | done : Forms grammar .done []
  | ahead {body} : Forms grammar (.ahead body) []
  | avoid {body} : Forms grammar (.avoid body) []
  | seq {first second trees trees'} : Forms grammar first trees → Forms grammar second trees' →
      Forms grammar (.seq first second) (trees ++ trees')
  | join {first second trees trees'} : Forms grammar first trees → Forms grammar second trees' →
      Forms grammar (.join first second) (trees ++ trees')
  | altFirst {first second trees} : Forms grammar first trees →
      Forms grammar (.alt first second) trees
  | altSecond {first second trees} : Forms grammar second trees →
      Forms grammar (.alt first second) trees
  | opt {body trees} : Forms grammar body trees → Forms grammar (.opt body) trees
  | optNone {body} : Forms grammar (.opt body) []
  | moreStop {body} : Forms grammar (.more body) []
  | more {body trees trees'} : Forms grammar body trees → Forms grammar (.more body) trees' →
      Forms grammar (.more body) (trees ++ trees')
  | call {rule text trees} : grammar.kind rule ≠ .atomic → Forms grammar (grammar.body rule) trees →
      Forms grammar (.call rule) [.node rule text trees]
  | callAtomic {rule text} : grammar.kind rule = .atomic →
      Forms grammar (.call rule) [.node rule text []]

section Inversion

variable {first second body : Expr Rule} {trees : List (Tree Rule)}

theorem forms_seq : grammar.Forms (.seq first second) trees ↔
    ∃ before behind, trees = before ++ behind ∧ grammar.Forms first before ∧
      grammar.Forms second behind := by
  constructor
  · rintro ⟨⟩
    exact ⟨_, _, rfl, ‹_›, ‹_›⟩
  · rintro ⟨before, behind, rfl, left, right⟩
    exact .seq left right

theorem forms_join : grammar.Forms (.join first second) trees ↔
    ∃ before behind, trees = before ++ behind ∧ grammar.Forms first before ∧
      grammar.Forms second behind := by
  constructor
  · rintro ⟨⟩
    exact ⟨_, _, rfl, ‹_›, ‹_›⟩
  · rintro ⟨before, behind, rfl, left, right⟩
    exact .join left right

theorem forms_alt : grammar.Forms (.alt first second) trees ↔
    grammar.Forms first trees ∨ grammar.Forms second trees := by
  constructor
  · intro forms
    cases forms with
    | altFirst left => exact Or.inl left
    | altSecond right => exact Or.inr right
  · rintro (left | right)
    · exact .altFirst left
    · exact .altSecond right

theorem forms_opt : grammar.Forms (.opt body) trees ↔ trees = [] ∨ grammar.Forms body trees := by
  constructor
  · intro forms
    cases forms with
    | opt inside => exact Or.inr inside
    | optNone => exact Or.inl rfl
  · rintro (rfl | inside)
    · exact .optNone
    · exact .opt inside

theorem forms_oneOf {others : List (Expr Rule)} : grammar.Forms (.oneOf first others) trees ↔
    ∃ choice ∈ first :: others, grammar.Forms choice trees := by
  induction others generalizing first with
  | nil => simp [Expr.oneOf]
  | cons second others inductionHypothesis => simp [Expr.oneOf, forms_alt, inductionHypothesis]

theorem Forms.rule_mem (forms : grammar.Forms expr trees) :
    ∀ tree ∈ trees, tree.rule ∈ expr.calls := by
  induction forms with
  | char | text | start | done | ahead | avoid | optNone | moreStop => simp
  | seq _ _ left right | join _ _ left right =>
      intro tree membership
      rcases List.mem_append.mp membership with before | behind
      · exact List.mem_append_left _ (left tree before)
      · exact List.mem_append_right _ (right tree behind)
  | altFirst _ left => exact fun tree membership => List.mem_append_left _ (left tree membership)
  | altSecond _ right =>
      exact fun tree membership => List.mem_append_right _ (right tree membership)
  | opt _ inside => exact inside
  | more _ _ left right => exact List.forall_mem_append.mpr ⟨left, right⟩
  | call | callAtomic => simp [Expr.calls]

theorem Forms.eq_nil (forms : grammar.Forms expr trees) (silent : expr.calls = []) :
    trees = [] := by
  refine List.eq_nil_iff_forall_not_mem.mpr fun tree membership => ?_
  simpa [silent] using forms.rule_mem tree membership

theorem Forms.exists_of_needs (forms : grammar.Forms expr trees) :
    ∀ rule ∈ expr.needs, ∃ tree ∈ trees, tree.rule = rule := by
  induction forms with
  | seq _ _ left right | join _ _ left right =>
      intro rule member
      rcases List.mem_append.mp member with inFirst | inSecond
      · obtain ⟨tree, before, same⟩ := left rule inFirst
        exact ⟨tree, List.mem_append_left _ before, same⟩
      · obtain ⟨tree, behind, same⟩ := right rule inSecond
        exact ⟨tree, List.mem_append_right _ behind, same⟩
  | call | callAtomic => simp [Expr.needs]
  | _ => simp [Expr.needs]

theorem Forms.rule_ne {rule : Rule} (forms : grammar.Forms expr trees)
    (uncalled : rule ∉ expr.calls) :
    ∀ tree ∈ trees, tree.rule ≠ rule := by
  rintro tree member rfl
  exact uncalled (forms.rule_mem tree member)

theorem Forms.ne_nil (forms : grammar.Forms expr trees) : expr.leaves = true → trees ≠ [] := by
  induction forms with
  | seq _ _ left right | join _ _ left right =>
      intro leaves
      rcases Bool.or_eq_true_iff.mp leaves with inFirst | inSecond
      · simp [left inFirst]
      · simp [right inSecond]
  | altFirst _ inside =>
      intro leaves
      exact inside (Bool.and_eq_true_iff.mp leaves).1
  | altSecond _ inside =>
      intro leaves
      exact inside (Bool.and_eq_true_iff.mp leaves).2
  | call | callAtomic => simp
  | _ => simp [Expr.leaves]

theorem Forms.exists_node {rule : Rule} (forms : grammar.Forms (.call rule) trees) :
    ∃ text children, trees = [.node rule text children] := by
  cases forms with
  | call | callAtomic => exact ⟨_, _, rfl⟩

theorem Forms.exists_leaf {rule : Rule} (forms : grammar.Forms (.call rule) trees)
    (silent : (grammar.body rule).calls = []) : ∃ text, trees = [.node rule text []] := by
  cases forms with
  | call _ inside => exact ⟨_, by rw [inside.eq_nil silent]⟩
  | callAtomic => exact ⟨_, rfl⟩

theorem Forms.more_induction {holds : List (Tree Rule) → Prop} (none : holds [])
    (further : ∀ {part trees}, grammar.Forms body part → holds trees → holds (part ++ trees))
    (forms : grammar.Forms (.more body) trees) : holds trees := by
  generalize repeated : Expr.more body = expr at forms
  induction forms with
  | moreStop => exact none
  | more left _ _ inductionHypothesis =>
      cases repeated
      exact further left (inductionHypothesis rfl)
  | _ => cases repeated

theorem Forms.star_induction {holds : List (Tree Rule) → Prop} (none : holds [])
    (further : ∀ {part trees}, grammar.Forms body part → holds trees → holds (part ++ trees))
    (forms : grammar.Forms (.star body) trees) : holds trees := by
  rcases forms_opt.mp forms with rfl | repeats
  · exact none
  · obtain ⟨before, behind, rfl, left, right⟩ := forms_join.mp repeats
    exact further left (right.more_induction none further)

theorem Forms.node_induction {holds : Tree Rule → Prop}
    (atomic : ∀ {rule text}, grammar.kind rule = .atomic → holds (.node rule text []))
    (step : ∀ {rule text trees}, grammar.Forms (grammar.body rule) trees →
      (∀ tree ∈ trees, holds tree) →
      holds (.node rule text trees))
    (forms : grammar.Forms expr trees) : ∀ tree ∈ trees, holds tree := by
  induction forms with
  | char | text | start | done | ahead | avoid | optNone | moreStop => simp
  | seq _ _ left right | join _ _ left right | more _ _ left right =>
      exact List.forall_mem_append.mpr ⟨left, right⟩
  | altFirst _ inside | altSecond _ inside | opt _ inside => exact inside
  | call _ inside below => exact List.forall_mem_singleton.mpr (step inside below)
  | callAtomic isAtomic => exact List.forall_mem_singleton.mpr (atomic isAtomic)

end Inversion

theorem entryMode_ne_atomic (kind : Kind) (outside : mode ≠ .atomic) :
    entryMode kind mode ≠ .atomic := by
  cases kind with
  | compound => exact Mode.noConfusion
  | plain | atomic => exact outside

theorem innerMode_ne_atomic {kind : Kind} (other : kind ≠ .atomic) (outside : mode ≠ .atomic) :
    innerMode kind mode ≠ .atomic := by
  cases kind with
  | plain => exact outside
  | atomic => contradiction
  | compound => exact Mode.noConfusion

/-- Outside atomic rules, derivations leave the nodes that their expressions say. -/
theorem Derives.forms (derived : grammar.Derives total expr mode look text result refusals)
    (quiet : grammar.Quiet) (outside : mode ≠ .atomic) :
    ∀ found ∈ result, grammar.Forms expr found.1 := by
  induction derived with
  | charRefused | textRefused | startRefused | doneRefused => simp
  | joinRefused | seqRefused | seqBlocked | aheadRefused | avoidRefused => simp
  | char =>
      rintro _ ⟨⟩
      exact .char
  | text =>
      rintro _ ⟨⟩
      exact .text
  | start =>
      rintro _ ⟨⟩
      exact .start
  | done =>
      rintro _ ⟨⟩
      exact .done
  | ahead =>
      rintro _ ⟨⟩
      exact .ahead
  | avoid =>
      rintro _ ⟨⟩
      exact .avoid
  | optNone =>
      rintro _ ⟨⟩
      exact .optNone
  | moreStop | moreBlocked | moreStopLoose =>
      rintro _ ⟨⟩
      exact .moreStop
  | opt _ inductionHypothesis =>
      exact fun found membership => .opt (inductionHypothesis outside found membership)
  | altFirst _ inductionHypothesis =>
      exact fun found membership => .altFirst (inductionHypothesis outside found membership)
  | altSecond _ _ _ inductionHypothesis =>
      exact fun found membership => .altSecond (inductionHypothesis outside found membership)
  | join _ _ first second =>
      intro found membership
      obtain ⟨inner, innerMembership, rfl⟩ := Option.map_eq_some_iff.mp membership
      exact .join (first outside _ rfl) (second outside inner innerMembership)
  | seq _ _ inductionHypothesis =>
      intro found membership
      obtain ⟨before, behind, same, first, second⟩ :=
        forms_join.mp (inductionHypothesis outside found membership)
      rw [same]
      exact .seq first second
  | more _ _ _ first second =>
      intro found membership
      obtain ⟨inner, innerMembership, rfl⟩ := Option.map_eq_some_iff.mp membership
      exact .more (first outside _ rfl) (second outside inner innerMembership)
  | seqLoose _ filler _ first _ second =>
      intro found membership
      obtain ⟨inner, innerMembership, rfl⟩ := Option.map_eq_some_iff.mp membership
      obtain rfl := filler.trees_eq_nil quiet quiet.filler _ rfl
      simpa [Found.after] using Forms.seq (first outside _ rfl)
        (second outside inner innerMembership)
  | moreLoose filler _ _ _ first second =>
      intro found membership
      obtain ⟨inner, innerMembership, rfl⟩ := Option.map_eq_some_iff.mp membership
      obtain rfl := filler.trees_eq_nil quiet quiet.filler _ rfl
      exact .more (first outside _ rfl) (second outside inner innerMembership)
  | @call rule mode look text _ _ inside inductionHypothesis =>
      intro found membership
      obtain ⟨inner, innerMembership, rfl⟩ := Option.map_eq_some_iff.mp membership
      rw [enclose, if_neg (entryMode_ne_atomic _ outside)]
      by_cases atomic : grammar.kind rule = .atomic
      · rw [inside.trees_eq_nil quiet (quiet.atomic rule atomic) inner innerMembership]
        exact .callAtomic atomic
      · exact .call atomic
          (inductionHypothesis (innerMode_ne_atomic atomic outside) inner innerMembership)

end Grammar

end CommandShell.Peg
