import CommandShell.Proofs.Peg.Derivation

/-!
A ranking of a grammar: a proof that every run of it ends.

The rank of an expression bounds the length of a chain of expressions that are entered before
anything is read. A rule ranks above its body, what is repeated never matches the empty text, and
behind an expression that must read something the chain may start anew. So a run at a text of `n`
characters goes no deeper than `n` full chains and the rank of its expression, and it ends as the
derivation says.
-/

namespace CommandShell.Peg

variable {Rule : Type}

namespace Expr

/-- Whether an expression may match the empty text, given the rules that may. -/
def mayBeEmpty (empty : Rule → Bool) : Expr Rule → Bool
  | .char _ => false
  | .text characters => characters.isEmpty
  | .start | .done | .opt _ | .more _ | .ahead _ | .avoid _ => true
  | .seq first second | .join first second => first.mayBeEmpty empty && second.mayBeEmpty empty
  | .alt first second => first.mayBeEmpty empty || second.mayBeEmpty empty
  | .call rule => empty rule

/-- The longest chain of expressions before anything is read, given the ranks of the rules and the
length of the chain that skips what may stand between two parts. -/
def rank (empty : Rule → Bool) (ranks : Rule → Nat) (gap : Nat) : Expr Rule → Nat
  | .char _ | .text _ | .start | .done => 1
  | .seq first second =>
    Nat.max (first.rank empty ranks gap)
      (Nat.max gap (if first.mayBeEmpty empty then second.rank empty ranks gap else 0)) + 1
  | .join first second =>
    Nat.max (first.rank empty ranks gap)
      (if first.mayBeEmpty empty then second.rank empty ranks gap else 0) + 1
  | .alt first second => Nat.max (first.rank empty ranks gap) (second.rank empty ranks gap) + 1
  | .opt body | .ahead body | .avoid body => body.rank empty ranks gap + 1
  | .more body => Nat.max gap (body.rank empty ranks gap) + 1
  | .call rule => ranks rule

theorem rank_mono {empty : Rule → Bool} {ranks : Rule → Nat} {gap gap' : Nat} (wider : gap ≤ gap')
    (expr : Expr Rule) : expr.rank empty ranks gap ≤ expr.rank empty ranks gap' := by
  induction expr with
  | char | text | start | done | call => exact Nat.le_refl _
  | seq first second inductionFirst inductionSecond =>
      simp only [rank]
      split <;> grind
  | join first second inductionFirst inductionSecond =>
      simp only [rank]
      split <;> grind
  | alt first second inductionFirst inductionSecond =>
      simp only [rank]
      grind
  | opt body inductionHypothesis | ahead body inductionHypothesis
  | avoid body inductionHypothesis =>
      exact Nat.succ_le_succ inductionHypothesis
  | more body inductionHypothesis =>
      simp only [rank]
      grind

/-- Whether no chain inside the expression is longer than allowed, and everything that is repeated
reads something each time. -/
def advances (empty : Rule → Bool) (ranks : Rule → Nat) (gap chain : Nat) : Expr Rule → Bool
  | .char _ | .text _ | .start | .done | .call _ => true
  | .seq first second | .join first second =>
    first.advances empty ranks gap chain && second.advances empty ranks gap chain &&
      decide (second.rank empty ranks gap ≤ chain)
  | .alt first second =>
    first.advances empty ranks gap chain && second.advances empty ranks gap chain
  | .opt body | .ahead body | .avoid body => body.advances empty ranks gap chain
  | .more body => body.advances empty ranks gap chain && !body.mayBeEmpty empty

end Expr

/-- The rules of a grammar in an order in which none starts with itself. -/
structure Grammar.Ranking (grammar : Grammar Rule) where
  /-- The rules that may match the empty text. -/
  empty : Rule → Bool
  ranks : Rule → Nat
  filler : Nat
  /-- No less than the rank of any expression that follows another. -/
  chain : Nat
  chain_pos : 0 < chain
  empty_of_body : ∀ rule, (grammar.body rule).mayBeEmpty empty = true → empty rule = true
  rank_body : ∀ rule, (grammar.body rule).rank empty ranks
    (if grammar.kind rule = .plain then filler else 0) < ranks rule
  rank_filler : grammar.filler.rank empty ranks 0 ≤ filler
  advances_body : ∀ rule, (grammar.body rule).advances empty ranks filler chain = true
  advances_filler : grammar.filler.advances empty ranks filler chain = true

namespace Grammar

variable {grammar : Grammar Rule} {total : Nat} {expr : Expr Rule} {mode : Mode} {look : Look}
  {text : List Char} {result : Option (Found Rule)} {refusals : List Nat}

theorem Derives.length_lt (ranking : grammar.Ranking)
    (derived : grammar.Derives total expr mode look text result refusals)
    (reads : expr.mayBeEmpty ranking.empty = false) :
    ∀ found ∈ result, found.2.length < text.length := by
  induction derived with
  | char => simp
  | @text characters mode look rest =>
      cases characters with
      | nil => simp [Expr.mayBeEmpty] at reads
      | cons c characters =>
          simp only [Option.mem_def, Option.some.injEq, forall_eq', List.length_append,
            List.length_cons]
          omega
  | charRefused | textRefused | startRefused | doneRefused => simp
  | joinRefused | seqRefused | seqBlocked | aheadRefused | avoidRefused => simp
  | start | done | opt | optNone | moreStop | moreBlocked | moreStopLoose | more | moreLoose
  | ahead | avoid => simp [Expr.mayBeEmpty] at reads
  | seq _ _ inductionHypothesis => exact inductionHypothesis reads
  | altFirst _ inductionHypothesis =>
      simp only [Expr.mayBeEmpty, Bool.or_eq_false_iff] at reads
      exact inductionHypothesis reads.1
  | altSecond _ _ _ inductionHypothesis =>
      simp only [Expr.mayBeEmpty, Bool.or_eq_false_iff] at reads
      exact inductionHypothesis reads.2
  | join derivedFirst derivedSecond first second =>
      intro found membership
      obtain ⟨inner, innerMembership, rfl⟩ := Option.map_eq_some_iff.mp membership
      have firstLength := derivedFirst.length_le _ rfl
      have secondLength := derivedSecond.length_le _ innerMembership
      simp only [Expr.mayBeEmpty, Bool.and_eq_false_iff] at reads
      rcases reads with firstReads | secondReads
      · exact Nat.lt_of_le_of_lt secondLength (first firstReads _ rfl)
      · exact Nat.lt_of_lt_of_le (second secondReads inner innerMembership) firstLength
  | seqLoose derivedFirst derivedFiller derivedSecond first _ second =>
      intro found membership
      obtain ⟨inner, innerMembership, rfl⟩ := Option.map_eq_some_iff.mp membership
      have firstLength := derivedFirst.length_le _ rfl
      have fillerLength := derivedFiller.length_le _ rfl
      have secondLength := derivedSecond.length_le _ innerMembership
      simp only [Expr.mayBeEmpty, Bool.and_eq_false_iff] at reads
      rcases reads with firstReads | secondReads
      · exact Nat.lt_of_le_of_lt (Nat.le_trans secondLength fillerLength) (first firstReads _ rfl)
      · exact Nat.lt_of_lt_of_le (second secondReads inner innerMembership)
          (Nat.le_trans fillerLength firstLength)
  | @call rule mode look text result refusals _ inductionHypothesis =>
      intro found membership
      obtain ⟨inner, innerMembership, rfl⟩ := Option.map_eq_some_iff.mp membership
      apply inductionHypothesis _ inner innerMembership
      cases bodyEmpty : (grammar.body rule).mayBeEmpty ranking.empty with
      | false => rfl
      | true =>
          have ruleEmpty := ranking.empty_of_body rule bodyEmpty
          simp [Expr.mayBeEmpty, ruleEmpty] at reads

end Grammar

end CommandShell.Peg
