import CommandShell.Proofs.Reader.CompoundRule

/-!
Parsing a text is running the machine on it. Both give the same script, and where the machine gets
stuck is the position that the error of the parse gives.
-/

namespace CommandShell.Rule

open Peg Reader

theorem statementsOfTrees?_skip {tree : Peg.Tree Rule} {trees : List (Peg.Tree Rule)}
    (other : tree.rule ≠ .statement) :
    statementsOfTrees? (tree :: trees) = statementsOfTrees? trees := by
  rw [statementsOfTrees?]
  · rintro text rfl
    exact other rfl
  · rintro text rule inside parts marks rfl
    exact other rfl

theorem script_of_read (source : List Char) :
    (∃ tree refusals script,
      grammar.Derives source.length (.call .script) .loose .straight source (some ([tree], []))
        refusals ∧ Script.ofTree? tree = some script ∧ read source = .ok script) ∨
    (∃ refusals stuck,
      grammar.Derives source.length (.call .script) .loose .straight source none refusals ∧
      Furthest stuck.length refusals ∧ read source = .error stuck) := by
  obtain ⟨start, separated, reached⟩ :=
    derives_optSeparator source.length (skipFiller_skipFiller source)
  rw [skipOver_skipFiller] at reached
  have cleared := cleared_skipOver source
  obtain ⟨trees, rest, refusals, statements, repeated, means, clearedRest, shorter, runs, stops⟩ :=
    statements_repeat (fun text cleared _ => statementAt source.length cleared) cleared.trimmed
      cleared (Nat.lt_succ_self _)
  have reads : read source = run (State.start.extend statements) (skipFiller rest) := runs .start
  have whole {result : Option (Found Rule)} {refusals' : List Nat}
      (ended : grammar.Derives source.length (.call .endOfInput) .loose .straight (skipFiller rest)
        result refusals') :
      grammar.Derives source.length (grammar.body .script) .loose .straight source
        (result.map (Found.after trees)) (refusals ++ refusals') := by
    have derived := derives_seq (.start rfl) rfl (derives_seq separated reached
      (derives_seq (repeated.star cleared.trimmed) rfl ended))
    simp only [Found.map_after_map_after, List.nil_append] at derived
    exact derived
  by_cases finished : skipFiller rest = []
  · have ended :
        grammar.Derives source.length (.call .endOfInput) .loose .straight (skipFiller rest)
        (some ([.node .endOfInput [] []], [])) [] := by
      have inside :
          grammar.Derives source.length (grammar.body .endOfInput) .loose .straight [] _ _ := .done
      rw [finished]
      exact inside.call_some (by decide)
    refine Or.inl ⟨_, _, statements, .call_some (by decide) (whole ended), ?_, ?_⟩
    · show statementsOfTrees? (trees ++ [.node .endOfInput [] []]) = some statements
      rw [means, statementsOfTrees?_skip (by decide)]
      simp [statementsOfTrees?]
    · rw [reads, finished, run_nil rfl]
      rfl
  · have ended :
        grammar.Derives source.length (.call .endOfInput) .loose .straight (skipFiller rest) none
        [(skipFiller rest).length] := by
      have inside :
          grammar.Derives source.length (grammar.body .endOfInput) .loose .straight _ _ _ :=
        .doneRefused finished
      exact inside.call_none (by decide)
    have unaccepted (closed : opens (skipFiller rest) = false) (_ : Unit) :
        run (State.start.extend statements) (skipFiller rest) = .error (skipFiller rest) := by
      refine run_of_closed closed (Or.inl finished) fun keyword _ notIf notFor => ?_
      cases keyword <;> first | rfl | contradiction
    obtain ⟨stuck, furthest, stuckLength, errors⟩ := stops.error unaccepted
    have sourceLength : stuck.length ≤ source.length :=
      Nat.le_trans stuckLength (Nat.le_trans shorter (suffix_skipOver source).length_le)
    refine Or.inr ⟨_, stuck, .call_none (by decide) (whole ended), ?_, reads.trans (errors ())⟩
    exact (furthest.append_left (by simpa using stuckLength)).append_left
      (by simpa using sourceLength)

end CommandShell.Rule

namespace CommandShell.Script

open Reader

theorem parseChars_of_read_ok {source : List Char} {script : Script}
    (reads : read source = .ok script) : parseChars source = .ok script := by
  rcases Rule.script_of_read source with ⟨tree, refusals, script', derived, means, reads'⟩ |
    ⟨refusals, stuck, derived, furthest, reads'⟩
  · rw [reads'] at reads
    obtain rfl := Except.ok.inj reads
    exact parseChars_of_found derived means
  · simp [reads'] at reads

theorem parseChars_of_read_error {source stuck : List Char} (reads : read source = .error stuck) :
    ∃ error, parseChars source = .error (.parse error) ∧ error.source = source ∧
      error.offset = source.length - stuck.length := by
  rcases Rule.script_of_read source with ⟨tree, refusals, script', derived, means, reads'⟩ |
    ⟨refusals, stuck', derived, furthest, reads'⟩
  · simp [reads'] at reads
  · rw [reads'] at reads
    obtain rfl := Except.error.inj reads
    exact parseChars_of_refused derived furthest

/-- A text is parsed to a script exactly if the machine reads the script from it. -/
theorem parseChars_eq_ok {source : List Char} {script : Script} :
    parseChars source = .ok script ↔ read source = .ok script := by
  refine ⟨fun parsed => ?_, parseChars_of_read_ok⟩
  cases reads : read source with
  | ok script' =>
      rw [parseChars_of_read_ok reads] at parsed
      rw [Except.ok.inj parsed]
  | error stuck =>
      obtain ⟨error, failed, _⟩ := parseChars_of_read_error reads
      simp [failed] at parsed

end CommandShell.Script
