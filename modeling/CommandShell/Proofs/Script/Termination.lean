import CommandShell.Proofs.Peg.Recursion
import CommandShell.Proofs.Reader.Adequacy

/-!
Parsing ends on every text.

All expressions of the grammar of scripts keep to its ranking, so each round of a repetition reads
something and the text bounds the depth of every run. Rules recur only behind `if` or `for`: these
guard all the ways by which a statement holds others.
-/

namespace CommandShell.Rule

open Peg Reader

theorem ranking_covers : ranking.Covers := by
  apply Grammar.Ranking.covers_of_rules
  · exact ⟨ranking.advances_filler, by decide⟩
  · intro rule
    exact ⟨rfl, by cases rule <;> decide⟩
  · intro rule
    exact ⟨ranking.advances_body rule, by cases rule <;> decide⟩

/-- Whether the rule is a word that opens a compound statement. -/
def opensCompound (rule : Rule) : Bool := rule = .ifWord || rule = .forWord

/-- Each rule above those it calls, but for what stands behind the opening word of a compound
statement. -/
def level : Rule → Nat
  | .endOfInput => 0
  | .ifWord | .thenWord | .elifWord | .elseWord | .fiWord | .forWord | .inWord | .doWord | .doneWord
  | .parallelWord => 1
  | .name | .statusName | .dollar | .singleQuotedText | .doubleQuotedText | .literal
  | .background => 1
  | .reference | .singleQuoted | .doubleQuoted => 2
  | .word => 3
  | .program | .assignment => 4
  | .pipeline | .conditional | .loop => 5
  | .statement => 6
  | .body => 7
  | .branch | .script => 8

def guarding : grammar.Guarding where
  guards := opensCompound
  level := level
  filler := rfl
  body := by
    intro rule
    cases rule <;> decide

theorem text_of_wholeWord {letters text rest : List Char} {total : Nat} {look : Look}
    {result : Option (Found Rule)} {refusals : List Nat}
    (derived : grammar.Derives total (wholeWord letters) .atomic look text result refusals)
    (ends : ∃ trees, result = some (trees, rest)) : text = letters ++ rest := by
  -- Inside a keyword nothing is skipped, and its end is only looked at.
  obtain ⟨trees, same⟩ := ends
  cases derived with
  | seq _ joined =>
      cases joined with
      | joinRefused => cases same
      | join first second =>
          cases first with
          | text =>
              cases second with
              | aheadRefused => cases same
              | ahead =>
                  cases same
                  rfl

theorem text_of_keyword {keyword : Keyword} {total : Nat} {entry : Entry Rule} {rest : List Char}
    (calls : entry.expr = .call keyword.rule) (passes : grammar.Passes total entry rest) :
    entry.text = keyword.letters ++ rest := by
  obtain ⟨expr, mode, look, text⟩ := entry
  obtain rfl : expr = .call keyword.rule := calls
  obtain ⟨trees, refusals, derived⟩ := passes
  generalize same : some (trees, rest) = result at derived
  cases derived with
  | call inside =>
      obtain ⟨⟨trees', rest'⟩, rfl, found⟩ := Option.map_eq_some_iff.mp same.symm
      obtain rfl : rest' = rest := congrArg Prod.snd found
      rw [keyword.pattern_rule, keyword.kind_rule] at inside
      exact text_of_wholeWord inside ⟨trees', rfl⟩

/-- On the way from one text to what is left of it later, a word that opens a compound statement was
matched. -/
def OpensBetween (total : Nat) (start stop : List Char) : Prop :=
  ∃ keyword ∈ [Keyword.ifWord, .forWord], ∃ entry rest, entry.expr = .call keyword.rule ∧
    grammar.Passes total entry rest ∧ entry.text <:+ start ∧ entry.text = keyword.letters ++ rest ∧
      stop <:+ rest

theorem opensBetween_of_passed {total : Nat} {start stop : List Char}
    (passed : guarding.Passed total start stop) : OpensBetween total start stop := by
  obtain ⟨rule, entry, rest, guard, calls, passes, behind, before⟩ := passed
  obtain ⟨keyword, member, rfl⟩ : ∃ keyword ∈ [Keyword.ifWord, .forWord], keyword.rule = rule := by
    have either : rule = .ifWord ∨ rule = .forWord := by simpa [guarding, opensCompound] using guard
    rcases either with rfl | rfl
    · exact ⟨.ifWord, by simp, rfl⟩
    · exact ⟨.forWord, by simp, rfl⟩
  exact ⟨keyword, member, entry, rest, calls, passes, behind, text_of_keyword calls passes, before⟩

theorem terminates : grammar.Terminates depthBound := ranking_covers.terminates

end CommandShell.Rule

namespace CommandShell.Script

open Peg Reader

theorem parse_ok_or_error (source : String) :
    (∃ script, parse source = .ok script) ∨ ∃ error, parse source = .error (.parse error) := by
  cases reads : read source.toList with
  | ok script => exact Or.inl ⟨script, parseChars_of_read_ok reads⟩
  | error stuck =>
      obtain ⟨error, failed, _⟩ := parseChars_of_read_error reads
      exact Or.inr ⟨error, failed⟩

/-- Parsing ends on every text. Each round of a repetition reads something, what is entered stands
further on in the text or lower at the same place, a rule that recurs inside itself has read `if` or
`for` before, and the bound on the depth is never met: every text is parsed to a script or
refused. -/
theorem parse_terminates :
    Rule.grammar.Terminates Rule.depthBound ∧
    (∀ total rule outer inner, outer.expr = .call rule → inner.expr = .call rule →
      Relation.TransGen (Rule.grammar.Enters total) outer inner →
        Rule.OpensBetween total outer.text inner.text) ∧
    ∀ source : String, (∃ outcome, Rule.match? source.toList = some outcome) ∧
      ((∃ script, parse source = .ok script) ∨ ∃ error, parse source = .error (.parse error)) := by
  refine ⟨Rule.terminates, ?_, fun source => ⟨?_, parse_ok_or_error source⟩⟩
  · intro total rule outer inner calls again chain
    exact Rule.opensBetween_of_passed (Rule.guarding.passed_of_recurs calls again chain)
  · obtain ⟨_, _, _, runs⟩ :=
      Rule.terminates.ends (.call .script) (.call _) .loose .straight source.toList 0
    obtain ⟨outcome, ran, _⟩ := runs _ .none (Nat.le_refl _)
    exact ⟨outcome, ran⟩

/-- A further branch of a conditional is repeated and reads something, and the statement inside a
conditional is entered on the way through the conditional, behind its `if`. -/
theorem parse_terminates_conditional :
    (∃ (entry : Entry Rule) (rest : List Char),
      entry.expr = .seq (.call .elifWord) (.call .branch) ∧
      Rule.grammar.Has (.more entry.expr) ∧ entry.text = "elif b;then c;fi".toList ∧
      rest = "fi".toList ∧ Rule.grammar.Passes 16 entry rest ∧ rest.length < entry.text.length) ∧
    ∃ outer inner : Entry Rule, outer.expr = .call .statement ∧ inner.expr = .call .statement ∧
      outer.text = "if a;then b;fi".toList ∧ inner.text = "b;fi".toList ∧
      Relation.TransGen (Rule.grammar.Enters 14) outer inner ∧
      Rule.OpensBetween 14 outer.text inner.text := by
  have ends := Rule.terminates
  constructor
  · have has : Rule.grammar.Has (.more (.seq (.call .elifWord) (.call .branch))) :=
      .part (.part
        (.part (.part (.part (.body .conditional) (.tail _ (.head _))) (.tail _ (.head _)))
        (.head _)) (.head _)) (.tail _ (.head _))
    have passes : Rule.grammar.Passes 16 ⟨.seq (.call .elifWord) (.call .branch), .loose, .straight,
        "elif b;then c;fi".toList⟩ "fi".toList := ends.passes_of_run (has.part (.head _)) 0 rfl rfl
    have reads := parse_terminates.1.round_reads _ has _ _ _ _ _ passes
    exact ⟨_, _, rfl, has, rfl, rfl, passes, reads.2⟩
  · have separator : Rule.grammar.Has Rule.separator :=
      .part (.part (.body .branch) (.tail _ (.head _))) (.head _)
    -- From the statement to its conditional, behind `if`, the test, the separator and `then` to the
    -- body.
    obtain ⟨inner, chain, again, behind⟩ :
        ∃ inner : Entry Rule, Relation.TransGen (Rule.grammar.Enters 14)
        ⟨.call .statement, .loose, .straight, "if a;then b;fi".toList⟩ inner ∧
        inner.expr = .call .statement ∧ inner.text = "b;fi".toList :=
      ⟨_, .head .call <| .head .seqFirst <| .head .altFirst <| .head .call <|
        .head (.seqSecond (ends.passes_of_run (.call _) 0 rfl rfl)
          (Grammar.skips_loose (ends.passes_of_run .filler 2 rfl rfl))) <| .head .seqFirst <|
            .head .call <|
        .head (.seqSecond (ends.passes_of_run (.call _) 3 rfl rfl)
          (Grammar.skips_loose (ends.passes_of_run .filler 4 rfl rfl))) <|
        .head (.seqSecond (ends.passes_of_run separator 4 rfl rfl)
          (Grammar.skips_loose (ends.passes_of_run .filler 5 rfl rfl))) <|
        .head (.seqSecond (ends.passes_of_run (.call _) 5 rfl rfl)
          (Grammar.skips_loose (ends.passes_of_run .filler 9 rfl rfl))) <| .head .call <|
        .head (.seqSecond (ends.passes_of_run (.part (.body .body) (.head _)) 10 rfl rfl)
          (Grammar.skips_loose (ends.passes_of_run .filler 10 rfl rfl))) <| .head .opt <|
            .single .joinFirst,
        rfl, rfl⟩
    exact ⟨_, inner, rfl, again, rfl, behind, chain,
      parse_terminates.2.1 14 .statement _ inner rfl again chain⟩

end CommandShell.Script
