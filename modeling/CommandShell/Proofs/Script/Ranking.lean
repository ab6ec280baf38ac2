import CommandShell.Proofs.Peg.Adequacy
import CommandShell.Script.Parse

/-!
The grammar of scripts has a ranking, and the depth that a parse is allowed is enough for it. So no
text is nested too deeply, and parsing gives what the grammar derives.
-/

namespace CommandShell.Rule

open Peg

/-- The rules that may match the empty text. -/
def mayBeEmpty : Rule → Bool
  | .endOfInput | .singleQuotedText | .doubleQuotedText | .body | .script => true
  | _ => false

/-- Each rule above those it may start with. -/
def ranks : Rule → Nat
  | .literal | .assignment | .conditional | .loop => 15
  | .word => 25
  | .program => 30
  | .pipeline => 35
  | .branch => 40
  | .statement => 45
  | .body => 50
  | .script => 55
  | _ => 10

def ranking : grammar.Ranking where
  empty := mayBeEmpty
  ranks := ranks
  filler := 10
  chain := chainBound
  chain_pos := by decide
  empty_of_body := by
    intro rule
    cases rule <;> decide
  rank_body := by
    intro rule
    cases rule <;> decide
  rank_filler := by decide
  advances_body := by
    intro rule
    cases rule <;> decide
  advances_filler := by decide

theorem match?_of_derives {source : List Char} {result : Option (Found Rule)} {refusals : List Nat}
    (derived : grammar.Derives source.length (.call .script) .loose .straight source result
      refusals) :
    ∃ outcome, match? source = some outcome ∧
      outcome.Reports source.length result refusals .none := by
  have deep : ranking.depthAt .loose (.call .script) source ≤ depthBound source.length := by
    simp only [Grammar.Ranking.depthAt, depthBound, Nat.mul_succ]
    exact Nat.add_le_add_left (by decide) _
  exact (derived.runsTo ranking).run_eq .none rfl deep (Nat.zero_add _)

end CommandShell.Rule

namespace CommandShell.Script

open Peg

theorem parseChars_of_found {source rest : List Char} {tree : Peg.Tree Rule} {script : Script}
    {refusals : List Nat}
    (derived : Rule.grammar.Derives source.length (.call .script) .loose .straight source
      (some ([tree], rest)) refusals)
    (means : Script.ofTree? tree = some script) : parseChars source = .ok script := by
  obtain ⟨outcome, ran, reported⟩ := Rule.match?_of_derives derived
  simp [parseChars, ran, reported.result_eq, Found.locate, means]

theorem parseChars_of_refused {source : List Char} {left : Nat} {refusals : List Nat}
    (derived : Rule.grammar.Derives source.length (.call .script) .loose .straight source
      none refusals)
    (furthest : Furthest left refusals) :
    ∃ error, parseChars source = .error (.parse error) ∧ error.source = source ∧
      error.offset = source.length - left := by
  obtain ⟨outcome, ran, reported⟩ := Rule.match?_of_derives derived
  refine ⟨.ofAttempts source outcome.attempts, ?_, rfl, ?_⟩
  · simp [parseChars, ran, reported.result_eq]
  · rw [← furthest.furthest_eq source.length]
    exact reported.position_eq

end CommandShell.Script
