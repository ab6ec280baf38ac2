import CommandShell.Proofs.Peg.Termination
import Mathlib.Logic.Relation

/-!
How the rules of a grammar recur.

Some rules guard the recursion: in a sequence that starts with a guard, all that follows stands
behind a match of it. If the other calls lead from each rule to lower ones only, then no rule recurs
inside itself but behind a guard that was matched on the way.
-/

namespace CommandShell.Peg

variable {Rule : Type}

namespace Expr

/-- Whether the expression is a guard and nothing else. -/
def isGuard (guards : Rule → Bool) : Expr Rule → Bool
  | .call rule => guards rule
  | _ => false

/-- The rules that are called inside an expression, be it only to look ahead, with no guard before
them. -/
def unguarded (guards : Rule → Bool) : Expr Rule → List Rule
  | .char _ | .text _ | .start | .done => []
  | .seq first second | .join first second =>
    first.unguarded guards ++ if first.isGuard guards then [] else second.unguarded guards
  | .alt first second => first.unguarded guards ++ second.unguarded guards
  | .opt body | .more body | .ahead body | .avoid body => body.unguarded guards
  | .call rule => [rule]

theorem exists_of_isGuard {guards : Rule → Bool} {expr : Expr Rule}
    (guard : expr.isGuard guards = true) :
    ∃ rule, expr = .call rule ∧ guards rule = true := by
  cases expr with
  | call rule => exact ⟨rule, rfl, guard⟩
  | _ => simp [isGuard] at guard

end Expr

/-- Guards of a grammar, and an order of its rules in which they call lower ones only, but behind a
guard. -/
structure Grammar.Guarding (grammar : Grammar Rule) where
  guards : Rule → Bool
  level : Rule → Nat
  filler : grammar.filler.unguarded guards = []
  body : ∀ rule, ∀ called ∈ (grammar.body rule).unguarded guards, level called < level rule

namespace Grammar.Guarding

variable {grammar : Grammar Rule} {total bound : Nat} {outer inner : Entry Rule}
  {start middle stop : List Char}

/-- A guard was matched on the way from one text to what is left of it later. -/
def Passed (guarding : grammar.Guarding) (total : Nat) (start stop : List Char) : Prop :=
  ∃ rule entry rest, guarding.guards rule = true ∧ entry.expr = .call rule ∧
    grammar.Passes total entry rest ∧ entry.text <:+ start ∧ stop <:+ rest

/-- All that is called with no guard before it is lower. -/
def Below (guarding : grammar.Guarding) (bound : Nat) (expr : Expr Rule) : Prop :=
  ∀ called ∈ expr.unguarded guarding.guards, guarding.level called < bound

variable (guarding : grammar.Guarding)

theorem Passed.further {guarding : grammar.Guarding} (passed : guarding.Passed total start middle)
    (further : stop <:+ middle) : guarding.Passed total start stop := by
  obtain ⟨rule, entry, rest, guard, calls, passes, behind, before⟩ := passed
  exact ⟨rule, entry, rest, guard, calls, passes, behind, further.trans before⟩

theorem Passed.earlier {guarding : grammar.Guarding} (passed : guarding.Passed total middle stop)
    (further : middle <:+ start) : guarding.Passed total start stop := by
  obtain ⟨rule, entry, rest, guard, calls, passes, behind, before⟩ := passed
  exact ⟨rule, entry, rest, guard, calls, passes, behind.trans further, before⟩

theorem passed_or_below_second {first second : Expr Rule} {mode : Mode} {look : Look}
    {text rest rest' : List Char} (below : guarding.Below bound (.seq first second))
    (passes : grammar.Passes total ⟨first, mode, look, text⟩ rest) (further : rest' <:+ rest) :
    guarding.Passed total text rest' ∨ guarding.Below bound second := by
  cases guard : first.isGuard guarding.guards with
  | true =>
      obtain ⟨rule, rfl, isGuard⟩ := Expr.exists_of_isGuard guard
      exact Or.inl ⟨rule, _, rest, isGuard, rfl, passes, List.suffix_refl _, further⟩
  | false =>
      refine Or.inr fun called member => below called ?_
      simp [Expr.unguarded, guard, member]

/-- One step on: a guard was matched, or still only lower rules are called with no guard before
them. -/
theorem passed_or_below (below : guarding.Below bound outer.expr)
    (enters : grammar.Enters total outer inner) :
    guarding.Passed total outer.text inner.text ∨ guarding.Below bound inner.expr := by
  cases enters with
  | seqFirst | joinFirst | altFirst =>
      exact Or.inr fun called member => below called (List.mem_append_left _ member)
  | altSecond => exact Or.inr fun called member => below called (List.mem_append_right _ member)
  | seqSecond passes skips => exact guarding.passed_or_below_second below passes skips.suffix
  | joinSecond passes => exact guarding.passed_or_below_second below passes (List.suffix_refl _)
  | opt | moreBody | moreAgain | ahead | avoid => exact Or.inr below
  | seqFiller | moreFiller => exact Or.inr (by simp [Below, guarding.filler])
  | @call rule =>
      have lower : guarding.level rule < bound := below rule (by simp [Expr.unguarded])
      exact Or.inr fun called member => Nat.lt_trans (guarding.body rule called member) lower

theorem suffix_of_transGen (chain : Relation.TransGen (grammar.Enters total) outer inner) :
    inner.text <:+ outer.text := by
  induction chain with
  | single enters => exact enters.suffix
  | tail _ enters inductionHypothesis => exact enters.suffix.trans inductionHypothesis

/-- What a rule enters on the way: a guard was matched before, or only lower rules are called with
no guard. -/
theorem passed_or_below_of_transGen {rule : Rule} (calls : outer.expr = .call rule)
    (chain : Relation.TransGen (grammar.Enters total) outer inner) :
    guarding.Passed total outer.text inner.text ∨
    guarding.Below (guarding.level rule) inner.expr := by
  induction chain with
  | single enters =>
      obtain ⟨expr, mode, look, text⟩ := outer
      obtain rfl : expr = .call rule := calls
      cases enters with
      | call => exact Or.inr (guarding.body rule)
  | tail chain enters inductionHypothesis =>
      rcases inductionHypothesis with passed | below
      · exact Or.inl (passed.further enters.suffix)
      · rcases guarding.passed_or_below below enters with passed | below
        · exact Or.inl (passed.earlier (suffix_of_transGen chain))
        · exact Or.inr below

/-- A rule recurs inside itself only behind a guard. -/
theorem passed_of_recurs {rule : Rule} (calls : outer.expr = .call rule)
    (again : inner.expr = .call rule)
    (chain : Relation.TransGen (grammar.Enters total) outer inner) :
    guarding.Passed total outer.text inner.text := by
  rcases guarding.passed_or_below_of_transGen calls chain with passed | below
  · exact passed
  · have lower : guarding.level rule < guarding.level rule :=
      below rule (by simp [again, Expr.unguarded])
    exact absurd lower (Nat.lt_irrefl _)

end Grammar.Guarding

end CommandShell.Peg
