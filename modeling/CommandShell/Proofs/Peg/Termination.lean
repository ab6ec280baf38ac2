import CommandShell.Proofs.Peg.Adequacy
import CommandShell.Proofs.Peg.Entry

/-!
Every run of a ranked grammar ends, and the text itself bounds it.

Whatever an entry enters stands further on in the text, or at the same place with a lower rank. So
no chain of entries goes on for ever, each entry of the grammar comes to an end, and every run that
is as deep as the rest of the text asks for reports it.
-/

namespace CommandShell.Peg.Grammar

variable {Rule : Type} {grammar : Grammar Rule} {total : Nat} {entry outer inner : Entry Rule}
  {expr : Expr Rule} {mode : Mode} {look : Look} {text rest : List Char}

theorem Passes.suffix (passes : grammar.Passes total entry rest) : rest <:+ entry.text := by
  obtain ⟨trees, refusals, derived⟩ := passes
  exact derived.suffix _ rfl

theorem Passes.length_lt (ranking : grammar.Ranking) (passes : grammar.Passes total entry rest)
    (reads : entry.expr.mayBeEmpty ranking.empty = false) : rest.length < entry.text.length := by
  obtain ⟨trees, refusals, derived⟩ := passes
  exact derived.length_lt ranking reads _ rfl

theorem Skips.suffix (skips : grammar.Skips total mode look text rest) : rest <:+ text := by
  unfold Skips at skips
  split at skips
  · exact Passes.suffix skips
  · exact skips ▸ List.suffix_refl _

theorem Enters.suffix (enters : grammar.Enters total outer inner) : inner.text <:+ outer.text := by
  cases enters with
  | seqFirst | joinFirst | altFirst | altSecond => exact List.suffix_refl _
  | opt | moreFiller | ahead | avoid | call => exact List.suffix_refl _
  | seqFiller passes | joinSecond passes => exact passes.suffix
  | moreBody skips => exact skips.suffix
  | seqSecond passes skips => exact skips.suffix.trans passes.suffix
  | moreAgain skips passes => exact passes.suffix.trans skips.suffix

namespace Ranking

variable {ranking : grammar.Ranking}

/-- An expression keeps to the ranking wherever it is entered. -/
structure Holds (ranking : grammar.Ranking) (expr : Expr Rule) : Prop where
  admits : ranking.Admits expr
  rank_le : ranking.rankOf .loose expr ≤ ranking.chain

theorem Holds.rankOf_le (holds : ranking.Holds expr) (mode : Mode) :
    ranking.rankOf mode expr ≤ ranking.chain :=
  Nat.le_trans (Expr.rank_mono (ranking.gap_le mode) expr) holds.rank_le

theorem Holds.part {part : Expr Rule} (holds : ranking.Holds expr) (inside : part ∈ expr.parts) :
    ranking.Holds part := by
  have lower {inner : Expr Rule}
      (rank_lt : ranking.rankOf .loose inner < ranking.rankOf .loose expr) :
      ranking.rankOf .loose inner ≤ ranking.chain :=
    Nat.le_of_lt (Nat.lt_of_lt_of_le rank_lt holds.rank_le)
  cases expr with
  | char | text | start | done | call => simp [Expr.parts] at inside
  | seq first second =>
      obtain ⟨admittedFirst, admittedSecond, bounded⟩ := holds.admits.seq.join
      have either : part = first ∨ part = second := by simpa [Expr.parts] using inside
      rcases either with rfl | rfl
      · exact ⟨admittedFirst, lower ranking.rankOf_seq_first⟩
      · exact ⟨admittedSecond, bounded .loose⟩
  | join first second =>
      obtain ⟨admittedFirst, admittedSecond, bounded⟩ := holds.admits.join
      have either : part = first ∨ part = second := by simpa [Expr.parts] using inside
      rcases either with rfl | rfl
      · exact ⟨admittedFirst, lower ranking.rankOf_join_first⟩
      · exact ⟨admittedSecond, bounded .loose⟩
  | alt first second =>
      have either : part = first ∨ part = second := by simpa [Expr.parts] using inside
      rcases either with rfl | rfl
      · exact ⟨holds.admits.alt.1, lower ranking.rankOf_alt_first⟩
      · exact ⟨holds.admits.alt.2, lower ranking.rankOf_alt_second⟩
  | more body =>
      obtain rfl := List.mem_singleton.mp inside
      exact ⟨holds.admits.more.1, lower ranking.rankOf_more_body⟩
  | opt body | ahead body | avoid body =>
      obtain rfl := List.mem_singleton.mp inside
      exact ⟨holds.admits, lower (Nat.lt_succ_self _)⟩

/-- What is entered stands further on in the text, or has a lower rank. -/
theorem Holds.descends (holds : ranking.Holds outer.expr)
    (enters : grammar.Enters total outer inner) :
    inner.text.length < outer.text.length ∨
      ranking.rankOf inner.mode inner.expr < ranking.rankOf outer.mode outer.expr := by
  cases enters with
  | seqFirst => exact Or.inr ranking.rankOf_seq_first
  | seqFiller => exact Or.inr ranking.rankOf_seq_filler
  | @seqSecond first _ _ _ _ _ _ passes skips =>
      cases empty : first.mayBeEmpty ranking.empty with
      | true => exact Or.inr (ranking.rankOf_seq_second empty)
      | false =>
          have shorter := passes.length_lt ranking empty
          exact Or.inl (Nat.lt_of_le_of_lt skips.suffix.length_le shorter)
  | joinFirst => exact Or.inr ranking.rankOf_join_first
  | @joinSecond first _ _ _ _ _ passes =>
      cases empty : first.mayBeEmpty ranking.empty with
      | true => exact Or.inr (ranking.rankOf_join_second empty)
      | false =>
          have shorter := passes.length_lt ranking empty
          exact Or.inl shorter
  | altFirst => exact Or.inr ranking.rankOf_alt_first
  | altSecond => exact Or.inr ranking.rankOf_alt_second
  | opt | ahead | avoid => exact Or.inr (Nat.lt_succ_self _)
  | moreFiller => exact Or.inr ranking.rankOf_more_filler
  | moreBody => exact Or.inr ranking.rankOf_more_body
  | moreAgain skips passes =>
      have shorter := passes.length_lt ranking holds.admits.more.2
      exact Or.inl (Nat.lt_of_lt_of_le shorter skips.suffix.length_le)
  | call => exact Or.inr (ranking.rankOf_body _ _)

/-- All expressions of the grammar keep to the ranking. -/
def Covers (ranking : grammar.Ranking) : Prop := ∀ expr, grammar.Has expr → ranking.Holds expr

theorem covers_of_rules (fillerHolds : ranking.Holds grammar.filler)
    (callHolds : ∀ rule, ranking.Holds (.call rule))
    (bodyHolds : ∀ rule, ranking.Holds (grammar.body rule)) :
    ranking.Covers := by
  intro expr has
  induction has with
  | filler => exact fillerHolds
  | call rule => exact callHolds rule
  | body rule => exact bodyHolds rule
  | part _ inside inductionHypothesis => exact inductionHypothesis.part inside

theorem Covers.ends (covers : ranking.Covers) (has : grammar.Has entry.expr) :
    grammar.Ends total entry := by
  -- By recursion on the rest of the text, and at the same place on the rank.
  induction measured : (entry.text.length, ranking.rankOf entry.mode entry.expr) using
    (Prod.lex Nat.lt_wfRel Nat.lt_wfRel).wf.induction generalizing entry with
  | _ _ inductionHypothesis =>
      subst measured
      refine ends_of_enters fun inner enters => inductionHypothesis _ ?_ (enters.has has) rfl
      rcases Nat.lt_or_eq_of_le enters.suffix.length_le with shorter | same
      · exact .left _ _ shorter
      · have lower := (covers _ has).descends enters
        rw [← same] at lower ⊢
        exact .right _ (lower.resolve_left (Nat.lt_irrefl _))

end Ranking

/-- Every run of the grammar ends if it is allowed the depth that the rest of the text asks for. -/
structure Terminates (grammar : Grammar Rule) (bound : Nat → Nat) : Prop where
  /-- Each round of a repetition reads at least one character. -/
  round_reads : ∀ body, grammar.Has (.more body) → ∀ total mode look text rest,
    grammar.Passes total ⟨body, mode, look, text⟩ rest → rest <:+ text ∧ rest.length < text.length
  /-- What is entered stands further on in the text, or at the same place and lower. -/
  descends : ∃ rank : Mode → Expr Rule → Nat, ∀ total outer inner, grammar.Has outer.expr →
    grammar.Enters total outer inner → grammar.Has inner.expr ∧ inner.text <:+ outer.text ∧
      (inner.text.length < outer.text.length ∨
        rank inner.mode inner.expr < rank outer.mode outer.expr)
  /-- An entry comes to an end if all those it enters do. -/
  depends : ∀ total entry, (∀ inner, grammar.Enters total entry inner → grammar.Ends total inner) →
    grammar.Ends total entry
  /-- Every run that is allowed this depth ends, and reports what the grammar derives. -/
  ends : ∀ expr, grammar.Has expr → ∀ mode look text offset, ∃ result refusals,
    grammar.Derives (offset + text.length) expr mode look text result refusals ∧
      ∀ depth before, bound text.length ≤ depth →
        ∃ outcome, grammar.run depth expr mode look ⟨text, offset⟩ before = some outcome ∧
          outcome.Reports (offset + text.length) result refusals before

theorem Ranking.Covers.terminates {ranking : grammar.Ranking} (covers : ranking.Covers) :
    grammar.Terminates fun length => ranking.chain * (length + 1) where
  round_reads _ has _ _ _ _ _ passes :=
    ⟨passes.suffix, passes.length_lt ranking (covers _ has).admits.more.2⟩
  descends := ⟨ranking.rankOf, fun _ _ _ has enters =>
    ⟨enters.has has, enters.suffix, (covers _ has).descends enters⟩⟩
  depends _ _ := ends_of_enters
  ends expr has mode look text offset := by
    obtain ⟨result, refusals, derived⟩ :
        grammar.Ends (offset + text.length) ⟨expr, mode, look, text⟩ :=
      covers.ends has
    refine ⟨result, refusals, derived, fun depth before deep => ?_⟩
    have enough : ranking.depthAt mode expr text ≤ depth := by
      rw [Nat.mul_succ] at deep
      exact Nat.le_trans (Nat.add_le_add_left ((covers _ has).rankOf_le mode) _) deep
    exact (derived.runsTo ranking).run_eq before (covers _ has).admits enough rfl

/-- What a run matches, if it is allowed this depth, is matched by the grammar. -/
theorem Terminates.passes_of_run {bound : Nat → Nat} (terminates : grammar.Terminates bound)
    (has : grammar.Has expr) (offset : Nat) (placed : offset + text.length = total)
    (ran : ((grammar.run (bound text.length) expr mode look ⟨text, offset⟩ .none).bind
      fun outcome =>
      outcome.result.map fun found => found.cursor.rest) = some rest) :
    grammar.Passes total ⟨expr, mode, look, text⟩ rest := by
  subst placed
  obtain ⟨result, refusals, derived, runs⟩ := terminates.ends expr has mode look text offset
  obtain ⟨outcome, ends, reported⟩ := runs _ .none (Nat.le_refl _)
  rw [ends, Option.bind_some, reported.result_eq, Option.map_map] at ran
  obtain ⟨⟨trees, _⟩, rfl, rfl⟩ := Option.map_eq_some_iff.mp ran
  exact ⟨trees, refusals, derived⟩

end CommandShell.Peg.Grammar
