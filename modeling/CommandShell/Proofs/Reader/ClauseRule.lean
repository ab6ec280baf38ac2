import CommandShell.Proofs.Reader.Clause
import CommandShell.Proofs.Reader.WordRule

/-!
The grammar matches the parts of statements as the reader reads them. A rule that goes on as long as
it can stops before a part that the reader gets stuck in; what follows then is refused, and the
furthest refusal is where the reader stopped.
-/

namespace CommandShell.Rule

open Peg Reader

variable {total : Nat}

theorem program_some (total : Nat) {text : List Char} (trimmed : skipFiller text = text)
    (starts : startsProgram text = true) :
    ∃ tree rest refusals, grammar.Derives total (.call .program) .loose .straight text
        (some ([tree], rest)) refusals ∧
      tree.rule = .program ∧ Word.allOfTrees? tree.children = some (readWords text).1 ∧
      skipFiller rest = (readWords text).2 ∧ Furthest (readWords text).2.length refusals := by
  obtain ⟨free, found⟩ := startsProgram_iff.mp starts
  obtain ⟨trees, rest, refusals, derived, reached, spells, furthest⟩ := words_plus total found
  exact ⟨_, rest, _, .call_some (by decide) (derives_seq (avoid_reserved free) trimmed derived),
    rfl, spells.means, reached, furthest⟩

theorem program_none (total : Nat) {text : List Char} (trimmed : skipFiller text = text)
    (idle : startsProgram text = false) :
    ∃ refusals, grammar.Derives total (.call .program) .loose .straight text none refusals ∧
      Furthest text.length refusals := by
  cases reserved : Keyword.reservedAt? text with
  | some keyword =>
      exact ⟨_, .call_none (by decide) (.seqRefused (avoid_reserved_refused reserved)),
        Furthest.single.append_left (by simp)⟩
  | none =>
      have unread : readPiece? text = none := by simpa [startsProgram, reserved] using idle
      obtain ⟨refusals, derived, furthest⟩ := word_none total unread
      exact ⟨_, .call_none (by decide) (derives_seq (avoid_reserved reserved) trimmed
        (.seqRefused derived)), furthest.append_left (by simp)⟩

/-- A further program of a pipeline. -/
def link : Expr Rule := .inOrder (.only '|') [.star lineBreak, .call .program]

theorem link_refused {text : List Char} (other : text.head? ≠ some '|') :
    grammar.Derives total link .loose .straight text none [] :=
  .seqRefused (only_refused other _)

theorem link_of_program {more : List Char} {result : Option (Found Rule)} {refusals : List Nat}
    (program : grammar.Derives total (.call .program) .loose .straight (skipOver isBreak more)
      result refusals) :
    grammar.Derives total link .loose .straight ('|' :: more) result refusals := by
  obtain ⟨rest, breaks, reached⟩ := (marks_lineBreak total).repeats (skipFiller more)
  rw [skipOver_skipFiller] at reached
  have derived := derives_seq (derives_only '|' .straight more) rfl
    (derives_seq (breaks.star (skipFiller_skipFiller more)) reached program)
  simpa [link, Expr.inOrder] using derived

/-- Trees of programs that together make up the given stages. -/
structure Stages (trees : List (Peg.Tree Rule)) (stages : Pipeline) : Prop where
  rule_eq : ∀ tree ∈ trees, tree.rule = .program
  means : trees.mapM (fun tree => Word.allOfTrees? tree.children) = some stages

theorem Stages.nil : Stages [] [] := ⟨by simp, rfl⟩

theorem Stages.cons {tree : Peg.Tree Rule} {trees : List (Peg.Tree Rule)} {program : Program}
    {stages : Pipeline}
    (isProgram : tree.rule = .program) (means : Word.allOfTrees? tree.children = some program)
    (later : Stages trees stages) : Stages (tree :: trees) (program :: stages) :=
  ⟨by simpa [isProgram] using later.rule_eq, by simp [means, later.means]⟩

/-- What has become of the links of a pipeline when the grammar takes no more of them. The refusals
are counted together with those that were noted where the links started. -/
def LinksEnd (start : List Char) (trees : List (Peg.Tree Rule)) (rest : List Char)
    (refusals : List Nat) :
    Reading Pipeline → Prop
  | .found stages behind =>
    Stages trees stages ∧ skipFiller rest = behind ∧
      ∀ before, Furthest start.length before → Furthest behind.length (before ++ refusals)
  | .stuck behind =>
    (skipFiller rest).head? = some '|' ∧ behind.length ≤ (skipFiller rest).length ∧
      ∀ before, Furthest start.length before → Furthest behind.length (before ++ refusals)

theorem linksEnd_of_no_bar {start rest : List Char} (other : start.head? ≠ some '|')
    (reached : skipFiller rest = start) : LinksEnd start [] rest [] (readLinks start) := by
  have none : readLinks start = .found [] start := by
    unfold readLinks
    split
    · simp at other
    · rfl
  rw [none]
  exact ⟨.nil, reached, fun before furthest => by simpa using furthest⟩

theorem LinksEnd.cons {more : List Char} {tree : Peg.Tree Rule} {trees : List (Peg.Tree Rule)}
    {rest : List Char} {refusals refusals' : List Nat}
    (starts : startsProgram (skipOver isBreak more) = true) (isProgram : tree.rule = .program)
    (means : Word.allOfTrees? tree.children = some (readWords (skipOver isBreak more)).1)
    (furthest : Furthest (readWords (skipOver isBreak more)).2.length refusals)
    (ends : LinksEnd (readWords (skipOver isBreak more)).2 trees rest refusals'
      (readLinks (readWords (skipOver isBreak more)).2)) :
    LinksEnd ('|' :: more) (tree :: trees) rest (refusals ++ refusals')
      (readLinks ('|' :: more)) := by
  have earlier {left : Nat} (least : ∀ refusal ∈ refusals ++ refusals', left ≤ refusal) :
      ∀ before, Furthest ('|' :: more).length before → ∀ refusal ∈ before, left ≤ refusal := by
    intro before furthestBefore
    have first := least _ (List.mem_append_left _ furthest.noted)
    have shorter := (suffix_readWords (skipOver isBreak more)).trans (suffix_skipOver more)
    exact furthestBefore.below (Nat.le_trans first (Nat.le_succ_of_le shorter.length_le))
  simp only [readLinks]
  rw [readPipeline_of_starts starts]
  cases links : readLinks (readWords (skipOver isBreak more)).2 with
  | found stages behind =>
      rw [links] at ends
      obtain ⟨later, reached, counted⟩ := ends
      refine ⟨later.cons isProgram means, reached, fun before furthestBefore => ?_⟩
      have furthestLinks := counted refusals furthest
      exact furthestLinks.append_right (earlier furthestLinks.least before furthestBefore)
  | stuck behind =>
      rw [links] at ends
      obtain ⟨bar, shorter, counted⟩ := ends
      refine ⟨bar, shorter, fun before furthestBefore => ?_⟩
      have furthestLinks := counted refusals furthest
      exact furthestLinks.append_right (earlier furthestLinks.least before furthestBefore)

/-- Where no program follows a bar, the links end before the bar. -/
theorem linksEnd_of_idle {more rest : List Char} {refusals : List Nat}
    (idle : startsProgram (skipOver isBreak more) = false) (reached : skipFiller rest = '|' :: more)
    (furthest : Furthest (skipOver isBreak more).length refusals) :
    LinksEnd ('|' :: more) [] rest refusals (readLinks ('|' :: more)) := by
  simp only [readLinks]
  rw [readPipeline_of_not_starts idle]
  have shorter : (skipOver isBreak more).length ≤ ('|' :: more).length :=
    Nat.le_succ_of_le (suffix_skipOver more).length_le
  refine ⟨by simp [reached], by rw [reached]; exact shorter, fun before furthestBefore => ?_⟩
  exact furthest.append_right (furthestBefore.below shorter)

theorem links_repeat (total : Nat) (text : List Char) :
    ∃ trees rest refusals, Repeats total link text (some (trees, rest)) refusals ∧
      LinksEnd (skipFiller text) trees rest refusals (readLinks (skipFiller text)) := by
  induction size : text.length using Nat.strongRecOn generalizing text with
  | _ _ inductionHypothesis =>
      by_cases bar : (skipFiller text).head? = some '|'
      · obtain ⟨more, filled⟩ := List.head?_eq_some_iff.mp bar
        rw [filled]
        by_cases starts : startsProgram (skipOver isBreak more) = true
        · obtain ⟨tree, rest, refusals, derived, isProgram, means, reached, furthest⟩ :=
            program_some total (skipFiller_skipOver more) starts
          have shorter : rest.length < text.length := by
            have readLength : rest.length ≤ (skipOver isBreak more).length :=
              derived.length_le _ rfl
            have moreLength : (skipOver isBreak more).length ≤ more.length :=
              (suffix_skipOver more).length_le
            have filledLength := length_skipFiller_le text
            rw [filled, List.length_cons] at filledLength
            omega
          obtain ⟨trees, rest', refusals', later, ends⟩ :=
            inductionHypothesis _ (size ▸ shorter) rest rfl
          rw [reached] at ends
          exact ⟨_, rest', _, .step filled (link_of_program derived) later,
            .cons starts isProgram means furthest ends⟩
        · have idle : startsProgram (skipOver isBreak more) = false := by simpa using starts
          obtain ⟨refusals, derived, furthest⟩ := program_none total (skipFiller_skipOver more) idle
          exact ⟨_, text, _, .stop filled (link_of_program derived),
            linksEnd_of_idle idle filled furthest⟩
      · exact ⟨_, text, _, .stop rfl (link_refused bar), linksEnd_of_no_bar bar rfl⟩

theorem links_star (total : Nat) {text : List Char} (trimmed : skipFiller text = text) :
    ∃ trees rest refusals, grammar.Derives total link.star .loose .straight text
        (some (trees, rest)) refusals ∧
      LinksEnd text trees rest refusals (readLinks text) := by
  obtain ⟨trees, rest, refusals, repeated, ends⟩ := links_repeat total text
  rw [trimmed] at ends
  exact ⟨trees, rest, refusals, repeated.star trimmed, ends⟩

theorem Pipeline.ofTree?_of_stages {tree : Peg.Tree Rule} {program : Program} {stages : Pipeline}
    (made : Stages tree.children (program :: stages)) :
    Pipeline.ofTree? tree = some (program :: stages) := by
  have all : nodesOf .program tree.children = tree.children :=
    List.filter_eq_self.mpr fun child membership => by simp [made.rule_eq child membership]
  unfold Pipeline.ofTree?
  rw [all]
  cases children : tree.children with
  | nil => simpa [children] using made.means
  | cons first rest =>
      have means := made.means
      rw [children] at means
      exact means

theorem pipeline_none (total : Nat) {text : List Char} (trimmed : skipFiller text = text)
    (idle : startsProgram text = false) :
    ∃ refusals, grammar.Derives total (.call .pipeline) .loose .straight text none refusals ∧
      Furthest text.length refusals := by
  obtain ⟨refusals, derived, furthest⟩ := program_none total trimmed idle
  exact ⟨_, .call_none (by decide) (.seqRefused derived), furthest.append_left (by simp)⟩

theorem pipeline_some (total : Nat) {text behind : List Char} {stages : Pipeline}
    (trimmed : skipFiller text = text) (found : readPipeline text = .found stages behind) :
    ∃ tree rest refusals, grammar.Derives total (.call .pipeline) .loose .straight text
        (some ([tree], rest)) refusals ∧
      tree.rule = .pipeline ∧ Pipeline.ofTree? tree = some stages ∧ skipFiller rest = behind ∧
      Furthest behind.length refusals := by
  by_cases starts : startsProgram text = true
  · obtain ⟨tree, rest, refusals, derived, isProgram, means, reached, furthest⟩ :=
      program_some total trimmed starts
    obtain ⟨trees, rest', refusals', derivedStar, ends⟩ :=
      links_star total (skipFiller_readWords trimmed)
    rw [readPipeline_of_starts starts] at found
    obtain ⟨later, behind', links, same⟩ := Reading.bind_eq_found.mp found
    obtain ⟨rfl, rfl⟩ := Reading.found.inj same
    rw [links] at ends
    obtain ⟨made, reachedEnd, counted⟩ := ends
    exact ⟨_, rest', _, .call_some (by decide) (derives_seq derived reached derivedStar), rfl,
      Pipeline.ofTree?_of_stages (made.cons isProgram means), reachedEnd, counted _ furthest⟩
  · rw [readPipeline_of_not_starts (by simpa using starts)] at found
    simp at found

/-- The grammar takes a pipeline up to the bar behind which the reader gets stuck. -/
theorem pipeline_blocked (total : Nat) {text stuck : List Char} (trimmed : skipFiller text = text)
    (starts : startsProgram text = true) (stopped : readPipeline text = .stuck stuck) :
    ∃ tree rest refusals, grammar.Derives total (.call .pipeline) .loose .straight text
        (some ([tree], rest)) refusals ∧
      (skipFiller rest).head? = some '|' ∧ stuck.length ≤ (skipFiller rest).length ∧
      Furthest stuck.length refusals := by
  obtain ⟨tree, rest, refusals, derived, isProgram, means, reached, furthest⟩ :=
    program_some total trimmed starts
  obtain ⟨trees, rest', refusals', derivedStar, ends⟩ :=
    links_star total (skipFiller_readWords trimmed)
  rw [readPipeline_of_starts starts] at stopped
  rw [Reading.eq_stuck_of_bind stopped] at ends
  obtain ⟨bar, shorter, counted⟩ := ends
  exact ⟨_, rest', _, .call_some (by decide) (derives_seq derived reached derivedStar), bar,
    shorter, counted _ furthest⟩

/-! The ends of statements. -/

/-- What ends a statement. -/
def ending : Expr Rule := .alt (.seq (.call .background) (.opt separator)) statementEnd

theorem background_refused {text : List Char} (other : text.head? ≠ some '&') :
    grammar.Derives total (.call .background) .loose .straight text none [text.length] := by
  have inside : grammar.Derives total (grammar.body .background) .loose .straight text none [] :=
    only_refused other _
  exact inside.call_none (by decide)

theorem ending_some (total : Nat) {text behind : List Char} {background : Bool}
    (found : readEnd text = .found background behind) :
    ∃ trees rest refusals, grammar.Derives total ending .loose .straight text (some (trees, rest))
        refusals ∧
      hasNode .background trees = background ∧ skipFiller rest = behind ∧
      ∀ refusal ∈ refusals, behind.length ≤ refusal := by
  have ends := endsIn_readEnd text
  rw [found] at ends
  have shorter := List.IsSuffix.length_le ends
  unfold readEnd at found
  split at found
  · obtain ⟨rfl, rfl⟩ := Reading.found.inj found
    have atEnd : grammar.Derives total (.call .endOfInput) .loose .positive [] _ _ := .call .done
    exact ⟨_, _, _, .altSecond (.seqRefused (background_refused (by simp)))
      (.altSecond (separator_refused (by simp)) (.ahead atEnd)), rfl, skipFiller_nil, by simp⟩
  · next tail =>
      obtain ⟨rfl, rfl⟩ := Reading.found.inj found
      have mark :
          grammar.Derives total (grammar.body .background) .loose .straight ('&' :: tail) _ _ :=
        derives_only '&' .straight tail
      obtain ⟨rest, separated, reached⟩ :=
        derives_optSeparator total (skipFiller_skipFiller tail)
      rw [skipOver_skipFiller] at reached
      exact ⟨_, rest, _, .altFirst (derives_seq (mark.call_some (by decide)) rfl separated), rfl,
        reached, by simp⟩
  · next c tail noMark =>
      split at found
      · next isEnding =>
          obtain ⟨rfl, rfl⟩ := Reading.found.inj found
          obtain ⟨rest, separated, reached⟩ := derives_separator total isEnding tail
          rw [skipOver_cons (skipFiller_of_isEnd isEnding tail) isEnding] at reached
          have other : (c :: tail).head? ≠ some '&' := by simpa using noMark
          refine ⟨_, rest, _,
            .altSecond (.seqRefused (background_refused other)) (.altFirst separated), rfl, reached,
            ?_⟩
          simpa using shorter
      · simp at found

theorem ending_none (total : Nat) {text stuck : List Char} (stopped : readEnd text = .stuck stuck) :
    ∃ refusals, grammar.Derives total ending .loose .straight text none refusals ∧
      Furthest stuck.length refusals := by
  unfold readEnd at stopped
  split at stopped
  · simp at stopped
  · simp at stopped
  · next c tail noMark =>
      split at stopped
      · simp at stopped
      · next notEnding =>
          obtain rfl := Reading.stuck.inj stopped
          have other : (c :: tail).head? ≠ some '&' := by simpa using noMark
          have atEnd : grammar.Derives total (.call .endOfInput) .loose .positive (c :: tail) _ _ :=
            .call (.doneRefused (by simp))
          exact ⟨_, .altSecond (.seqRefused (background_refused other))
            (.altSecond (separator_refused (by simpa using notEnding)) (.aheadRefused atEnd)),
            Furthest.single.append_left (by simp [Grammar.noted])⟩

/-! Separators and words between the parts of compound statements. -/

theorem separator_some (total : Nat) {text behind : List Char}
    (found : readSeparator text = .found () behind) :
    ∃ rest, grammar.Derives total separator .loose .straight text (some ([], rest)) [] ∧
      skipFiller rest = behind := by
  unfold readSeparator at found
  split at found
  · simp at found
  · next c tail =>
      split at found
      · next isEnding =>
          obtain ⟨_, rfl⟩ := Reading.found.inj found
          obtain ⟨rest, separated, reached⟩ := derives_separator total isEnding tail
          rw [skipOver_cons (skipFiller_of_isEnd isEnding tail) isEnding] at reached
          exact ⟨rest, separated, reached⟩
      · simp at found

theorem separator_none {text stuck : List Char} (stopped : readSeparator text = .stuck stuck) :
    stuck = text ∧ grammar.Derives total separator .loose .straight text none [] := by
  unfold readSeparator at stopped
  split at stopped
  · obtain rfl := Reading.stuck.inj stopped
    exact ⟨rfl, separator_refused (by simp)⟩
  · next c tail =>
      split at stopped
      · simp at stopped
      · next notEnding =>
          obtain rfl := Reading.stuck.inj stopped
          exact ⟨rfl, separator_refused (by simpa using notEnding)⟩

theorem readKeyword_eq_found {keyword : Keyword} {text behind : List Char} {value : Unit} :
    readKeyword keyword text = .found value behind ↔
      firstWord text = keyword.letters ∧ skipFiller (behindWord text) = behind := by
  unfold readKeyword
  split <;> simp_all

theorem readKeyword_eq_stuck {keyword : Keyword} {text stuck : List Char} :
    readKeyword keyword text = .stuck stuck ↔ firstWord text ≠ keyword.letters ∧ text = stuck := by
  unfold readKeyword
  split <;> simp_all

/-! The tests of conditionals. -/

/-- The node of a word that only marks the structure. -/
abbrev markOf (keyword : Keyword) : Peg.Tree Rule := .node keyword.rule keyword.letters []

theorem test_some (total : Nat) {text next : List Char} {test : Pipeline}
    (trimmed : skipFiller text = text) (found : readTest text = .found test next) :
    ∃ tree start refusals, tree.rule = .pipeline ∧ Pipeline.ofTree? tree = some test ∧
      skipFiller start = start ∧ skipOver isEnd start = next ∧
      (∀ refusal ∈ refusals, next.length ≤ refusal) ∧
      ∀ {after result refusals'},
        grammar.Derives total after .loose .straight start result refusals' →
        grammar.Derives total (.inOrder (.call .pipeline) [separator, .call .thenWord, after])
          .loose .straight text (result.map (Found.after [tree, markOf .thenWord]))
            (refusals ++ refusals') := by
  obtain ⟨stages, behind, piped, found⟩ := Reading.bind_eq_found.mp found
  obtain ⟨_, separated, parted, found⟩ := Reading.bind_eq_found.mp found
  obtain ⟨_, start, keyed, found⟩ := Reading.bind_eq_found.mp found
  obtain ⟨rfl, rfl⟩ := Reading.found.inj found
  obtain ⟨starts, rfl⟩ := readKeyword_eq_found.mp keyed
  obtain ⟨tree, rest, refusals, derived, isPipeline, means, reached, furthest⟩ :=
    pipeline_some total trimmed piped
  obtain ⟨rest', derivedSeparator, reached'⟩ := separator_some total parted
  have shorter : (skipOver isEnd (skipFiller (behindWord separated))).length ≤ behind.length := by
    have ends := endsIn_readSeparator behind
    rw [parted] at ends
    exact (((suffix_skipOver _).trans (suffix_skipFiller_behindWord separated)).trans
      ends).length_le
  refine ⟨tree, _, refusals, isPipeline, means, skipFiller_skipFiller _, rfl,
    furthest.below shorter, ?_⟩
  intro after result refusals' derivedAfter
  have whole := derives_seq derived reached (derives_seq derivedSeparator reached'
    (derives_seq (keyword_matches starts) rfl derivedAfter))
  simp only [Found.map_after_map_after, List.nil_append] at whole
  exact whole

theorem test_none (total : Nat) {text stuck : List Char} (trimmed : skipFiller text = text)
    (stopped : readTest text = .stuck stuck) (after : Expr Rule) :
    ∃ refusals,
      grammar.Derives total (.inOrder (.call .pipeline) [separator, .call .thenWord, after])
        .loose .straight text none refusals ∧ Furthest stuck.length refusals := by
  rcases Reading.bind_eq_stuck.mp stopped with piped | ⟨stages, behind, piped, stopped⟩
  · by_cases starts : startsProgram text = true
    · obtain ⟨tree, rest, refusals, derived, bar, _, furthest⟩ :=
        pipeline_blocked total trimmed starts piped
      obtain ⟨more, filled⟩ := List.head?_eq_some_iff.mp bar
      have refused : grammar.Derives total separator .loose .straight ('|' :: more) none [] :=
        separator_refused (by simp [isEnd, isBreak])
      exact ⟨_, derives_seq derived filled (.seqRefused refused), by simpa using furthest⟩
    · have idle : startsProgram text = false := by simpa using starts
      rw [readPipeline_of_not_starts idle] at piped
      obtain rfl := Reading.stuck.inj piped
      obtain ⟨refusals, derived, furthest⟩ := pipeline_none total trimmed idle
      exact ⟨_, .seqRefused derived, furthest⟩
  · obtain ⟨tree, rest, refusals, derived, isPipeline, means, reached, furthest⟩ :=
      pipeline_some total trimmed piped
    rcases Reading.bind_eq_stuck.mp stopped with parted | ⟨_, separated, parted, stopped⟩
    · obtain ⟨rfl, refused⟩ := separator_none parted
      exact ⟨_, derives_seq derived reached (.seqRefused refused), by simpa using furthest⟩
    · obtain ⟨other, rfl⟩ := readKeyword_eq_stuck.mp (Reading.eq_stuck_of_bind stopped)
      obtain ⟨rest', derivedSeparator, reached'⟩ := separator_some total parted
      have ends := endsIn_readSeparator behind
      rw [parted] at ends
      refine ⟨_, derives_seq derived reached (derives_seq derivedSeparator reached'
        (.seqRefused (keyword_refused other))), ?_⟩
      exact Furthest.single.append_right (furthest.below (List.IsSuffix.length_le ends))

/-! The heads of loops. -/

theorem name_some {text name rest : List Char} (found : readName? text = some (name, rest)) :
    grammar.Derives total (.call .name) .loose .straight text (some ([.node .name name []], rest))
      [] := by
  have derived : grammar.Derives total (.call .name) .loose .straight text _ _ :=
    derives_name (by decide) text
  simpa [found] using derived

theorem name_none {text : List Char} (unread : readName? text = none) :
    grammar.Derives total (.call .name) .loose .straight text none [text.length] := by
  have derived : grammar.Derives total (.call .name) .loose .straight text _ _ :=
    derives_name (by decide) text
  simpa [unread] using derived

theorem parallel_some (total : Nat) {text behind : List Char} {parallel : Bool}
    (trimmed : skipFiller text = text) (found : readParallel text = .found parallel behind) :
    ∃ rest refusals, grammar.Derives total (.opt (.call .parallelWord)) .loose .straight text
        (some (if parallel then [markOf .parallelWord] else [], rest)) refusals ∧
      skipFiller rest = behind ∧ ∀ refusal ∈ refusals, text.length ≤ refusal := by
  unfold readParallel at found
  split at found
  · next starts =>
      obtain ⟨rfl, rfl⟩ := Reading.found.inj found
      exact ⟨_, _, .opt (keyword_matches starts), rfl, by simp⟩
  · next other =>
      obtain ⟨rfl, rfl⟩ := Reading.found.inj found
      have refused : grammar.Derives total (.call .parallelWord) .loose .straight text none _ :=
        keyword_refused other
      exact ⟨_, _, .optNone refused, trimmed, by simp⟩

/-- The expression of a loop behind its first word, with what follows its head. -/
def headThen (after : Expr Rule) : Expr Rule :=
  .inOrder (.call .name)
    [.call .inWord, .star (.call .word), separator, .opt (.call .parallelWord), .call .doWord,
      after]

/-- Trees of the head of a loop. -/
structure HeadTrees (trees : List (Peg.Tree Rule)) (head : Head) : Prop where
  names : nodesOf .name trees = [.node .name head.name []]
  values : Word.allOfTrees? trees = some head.values
  parallel : hasNode .parallelWord trees = head.parallel
  no_body : ∀ tree ∈ trees, tree.rule ≠ .body

theorem headTrees_of_spells {name : List Char} {words : List (Peg.Tree Rule)} {values : List Word}
    (spells : Spells words values) (joint mark start : List Char) (parallel : Bool) :
    HeadTrees (.node .name name [] :: .node .inWord joint [] ::
      (words ++
        ((if parallel then [.node .parallelWord mark []] else []) ++ [.node .doWord start []])))
      ⟨parallel, name, values⟩ := by
  have noOther {rule : Rule} (other : rule ≠ .word) : ∀ tree ∈ words, tree.rule ≠ rule :=
    fun tree membership same => other (same.symm.trans (spells.rule_eq tree membership))
  have noName : ∀ tree ∈ words, tree.rule ≠ .name := noOther (by decide)
  have noParallel : ∀ tree ∈ words, tree.rule ≠ .parallelWord := noOther (by decide)
  have noBody : ∀ tree ∈ words, tree.rule ≠ .body := noOther (by decide)
  constructor
  · cases parallel <;> simpa [nodesOf] using noName
  · rw [← spells.means]
    unfold Word.allOfTrees?
    congr 2
    cases parallel <;> simp [nodesOf]
  · cases parallel with
    | false => simpa [hasNode] using noParallel
    | true => simp [hasNode]
  · cases parallel <;> simpa [or_imp, forall_and] using noBody

theorem head_some (total : Nat) {text next : List Char} {head : Head}
    (found : readHead text = .found head next) :
    ∃ trees start refusals, HeadTrees trees head ∧
      skipFiller start = start ∧ skipOver isEnd start = next ∧
      (∀ refusal ∈ refusals, next.length ≤ refusal) ∧
      ∀ {after result refusals'},
        grammar.Derives total after .loose .straight start result refusals' →
        grammar.Derives total (headThen after) .loose .straight text
          (result.map (Found.after trees)) (refusals ++ refusals') := by
  unfold readHead at found
  split at found
  · simp at found
  · next name rest named =>
      obtain ⟨_, start, keyed, found⟩ := Reading.bind_eq_found.mp found
      obtain ⟨_, separated, parted, found⟩ := Reading.bind_eq_found.mp found
      obtain ⟨parallel, behind, marked, found⟩ := Reading.bind_eq_found.mp found
      obtain ⟨_, body, keyed', found⟩ := Reading.bind_eq_found.mp found
      obtain ⟨rfl, rfl⟩ := Reading.found.inj found
      obtain ⟨starts, rfl⟩ := readKeyword_eq_found.mp keyed
      obtain ⟨starts', rfl⟩ := readKeyword_eq_found.mp keyed'
      obtain ⟨words, rest', refusals, derivedWords, reachedWords, spells, furthest⟩ :=
        words_star total (skipFiller_skipFiller (behindWord (skipFiller rest)))
      obtain ⟨rest'', derivedSeparator, reached'⟩ := separator_some total parted
      have trimmed : skipFiller separated = separated := by
        rw [← reached', skipFiller_skipFiller]
      obtain ⟨rest3, refusals', derivedParallel, reached'', least⟩ :=
        parallel_some total trimmed marked
      refine ⟨_, _, refusals ++ refusals', headTrees_of_spells spells Keyword.inWord.letters
        Keyword.parallelWord.letters Keyword.doWord.letters parallel, skipFiller_skipFiller _, rfl,
          ?_, ?_⟩
      · have ends := endsIn_readSeparator (readWords (skipFiller (behindWord (skipFiller rest)))).2
        rw [parted] at ends
        have ends' := endsIn_readParallel separated
        rw [marked] at ends'
        have suffix : skipOver isEnd (skipFiller (behindWord behind)) <:+ separated :=
          ((suffix_skipOver _).trans (suffix_skipFiller_behindWord behind)).trans ends'
        intro refusal membership
        rcases List.mem_append.mp membership with inWords | inParallel
        · exact furthest.below (suffix.trans ends).length_le refusal inWords
        · exact Nat.le_trans suffix.length_le (least refusal inParallel)
      · intro after result refusals'' derivedAfter
        have whole := derives_seq (name_some named) rfl (derives_seq (keyword_matches starts) rfl
          (derives_seq derivedWords reachedWords (derives_seq derivedSeparator reached'
            (derives_seq derivedParallel reached'' (derives_seq (keyword_matches starts') rfl
              derivedAfter)))))
        simp only [Found.map_after_map_after, List.nil_append, List.cons_append] at whole
        rw [List.append_assoc]
        exact whole

theorem head_none (total : Nat) {text stuck : List Char} (stopped : readHead text = .stuck stuck)
    (after : Expr Rule) :
    ∃ refusals, grammar.Derives total (headThen after) .loose .straight text none refusals ∧
      Furthest stuck.length refusals := by
  unfold readHead at stopped
  split at stopped
  · next unread =>
      obtain rfl := Reading.stuck.inj stopped
      exact ⟨_, .seqRefused (name_none unread), .single⟩
  · next name rest named =>
      rcases Reading.bind_eq_stuck.mp stopped with keyed | ⟨_, start, keyed, stopped⟩
      · obtain ⟨other, rfl⟩ := readKeyword_eq_stuck.mp keyed
        exact ⟨_, derives_seq (name_some named) rfl (.seqRefused (keyword_refused other)), .single⟩
      obtain ⟨starts, rfl⟩ := readKeyword_eq_found.mp keyed
      obtain ⟨words, rest', refusals, derivedWords, reachedWords, spells, furthest⟩ :=
        words_star total (skipFiller_skipFiller (behindWord (skipFiller rest)))
      rcases Reading.bind_eq_stuck.mp stopped with parted | ⟨_, separated, parted, stopped⟩
      · obtain ⟨rfl, refused⟩ := separator_none parted
        exact ⟨_, derives_seq (name_some named) rfl (derives_seq (keyword_matches starts) rfl
          (derives_seq derivedWords reachedWords (.seqRefused refused))), by simpa using furthest⟩
      obtain ⟨rest'', derivedSeparator, reached'⟩ := separator_some total parted
      have trimmed : skipFiller separated = separated := by
        rw [← reached', skipFiller_skipFiller]
      have ends := endsIn_readSeparator (readWords (skipFiller (behindWord (skipFiller rest)))).2
      rw [parted] at ends
      rcases Reading.bind_eq_stuck.mp stopped with marked | ⟨parallel, behind, marked, stopped⟩
      · unfold readParallel at marked
        split at marked <;> simp at marked
      obtain ⟨rest3, refusals', derivedParallel, reached'', least⟩ :=
        parallel_some total trimmed marked
      have ends' := endsIn_readParallel separated
      rw [marked] at ends'
      obtain ⟨other, rfl⟩ := readKeyword_eq_stuck.mp (Reading.eq_stuck_of_bind stopped)
      refine ⟨_, derives_seq (name_some named) rfl (derives_seq (keyword_matches starts) rfl
        (derives_seq derivedWords reachedWords (derives_seq derivedSeparator reached'
          (derives_seq derivedParallel reached'' (.seqRefused (keyword_refused other)))))), ?_⟩
      simp only [List.nil_append]
      refine Furthest.append_right ?_ (furthest.below (ends'.trans ends).length_le)
      refine Furthest.single.append_right fun refusal membership => ?_
      exact Nat.le_trans ends'.length_le (least refusal membership)

/-! Assignments. -/

theorem assignment_some (total : Nat) {text name value : List Char}
    (found : readAssigned? text = some (name, value)) :
    ∃ tree refusals, grammar.Derives total (.call .assignment) .loose .straight text
        (some ([tree], (readPieces value).2)) refusals ∧
      tree.rule = .assignment ∧
      Command.assignmentOf? tree.children = some (.assignment (.ofList name) (readPieces value).1) ∧
      ∀ refusal ∈ refusals, (readPieces value).2.length ≤ refusal := by
  have named : readName? text = some (name, '=' :: value) := by
    unfold readAssigned? at found
    split at found <;> simp_all
  have derivedName : grammar.Derives total (.call .name) .compound .straight text _ _ :=
    derives_name (by decide) text
  simp only [named, Option.map_some, Option.isSome_some, if_true] at derivedName
  by_cases unread : readPiece? value = none
  · obtain ⟨refusals, derived, furthest⟩ := word_none total unread
    rw [readPieces_of_none unread]
    exact ⟨_, _, compound_some rfl (.seq (by decide) (.join derivedName (.seq (by decide)
      (.join (derives_only '=' _ _) (.optNone derived))))), rfl, rfl, by simpa using furthest.least⟩
  · obtain ⟨tree, refusals, derived, isWord, means, furthest⟩ := word_some total unread
    refine ⟨_, _, compound_some rfl (.seq (by decide) (.join derivedName (.seq (by decide)
      (.join (derives_only '=' _ _) (.opt derived))))), rfl, ?_, by simpa using furthest.least⟩
    simp [Command.assignmentOf?, Word.allOfTrees?, nodesOf, isWord, means, firstText?,
      Peg.Tree.text]

theorem assignment_none (total : Nat) {text : List Char} (unread : readAssigned? text = none) :
    ∃ refusals, grammar.Derives total (.call .assignment) .loose .straight text none refusals ∧
      Furthest text.length refusals := by
  have derivedName : grammar.Derives total (.call .name) .compound .straight text _ _ :=
    derives_name (by decide) text
  cases named : readName? text with
  | none =>
      simp only [named, Option.map_none] at derivedName
      exact ⟨_, compound_none rfl (.seq (by decide) (.joinRefused derivedName)), by simp, by simp⟩
  | some pair =>
      obtain ⟨name, rest⟩ := pair
      simp only [named, Option.map_some, Option.isSome_some, if_true] at derivedName
      have other : rest.head? ≠ some '=' := by
        intro starts
        obtain ⟨value, rfl⟩ := List.head?_eq_some_iff.mp starts
        simp [readAssigned?, named] at unread
      exact ⟨_, compound_none rfl (.seq (by decide) (.join derivedName (.seq (by decide)
        (.joinRefused (only_refused other _))))), by simp, by simp⟩

end CommandShell.Rule
