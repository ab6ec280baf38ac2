import CommandShell.Proofs.Peg.Ranking

/-!
Runs and derivations agree: with a ranking, a run that is allowed enough depth ends, and gives the
result and the furthest position of the derivation.
-/

namespace CommandShell.Peg

variable {Rule : Type}

namespace Grammar

/-! What a run does with each kind of expression. -/

section Run

variable (grammar : Grammar Rule) (depth : Nat) (mode : Mode) (look : Look) (cursor : Cursor)
  (attempts : Attempts Rule)

theorem run_char (accepts : Char → Bool) :
    grammar.run (depth + 1) (.char accepts) mode look cursor attempts =
      match cursor.rest with
      | [] => some (.refuse attempts)
      | c :: rest =>
        if accepts c then some (.stay ⟨rest, cursor.offset + 1⟩ attempts)
        else some (.refuse attempts) := rfl

theorem run_text (characters : List Char) :
    grammar.run (depth + 1) (.text characters) mode look cursor attempts =
      match cursor.skip? characters with
      | some next => some (.stay next attempts)
      | none => some (.refuse attempts) := rfl

theorem run_start :
    grammar.run (depth + 1) .start mode look cursor attempts =
      if cursor.offset = 0 then some (.stay cursor attempts) else some (.refuse attempts) := rfl

theorem run_done :
    grammar.run (depth + 1) .done mode look cursor attempts =
      if cursor.rest.isEmpty then some (.stay cursor attempts) else some (.refuse attempts) := rfl

theorem run_seq (first second : Expr Rule) :
    grammar.run (depth + 1) (.seq first second) mode look cursor attempts =
      (grammar.run depth first mode look cursor attempts).bind fun outcome =>
        outcome.andThen fun cursor attempts =>
          if mode = .loose then
            (grammar.run depth grammar.filler .atomic look cursor attempts).bind fun outcome =>
              outcome.andThen fun cursor attempts =>
                grammar.run depth second mode look cursor attempts
          else grammar.run depth second mode look cursor attempts := rfl

theorem run_join (first second : Expr Rule) :
    grammar.run (depth + 1) (.join first second) mode look cursor attempts =
      (grammar.run depth first mode look cursor attempts).bind fun outcome =>
        outcome.andThen fun cursor attempts =>
          grammar.run depth second mode look cursor attempts := rfl

theorem run_alt (first second : Expr Rule) :
    grammar.run (depth + 1) (.alt first second) mode look cursor attempts =
      (grammar.run depth first mode look cursor attempts).bind fun outcome =>
        if outcome.result.isSome then some outcome
        else grammar.run depth second mode look cursor outcome.attempts := rfl

theorem run_opt (body : Expr Rule) :
    grammar.run (depth + 1) (.opt body) mode look cursor attempts =
      (grammar.run depth body mode look cursor attempts).bind fun outcome =>
        if outcome.result.isSome then some outcome
        else some (.stay cursor outcome.attempts) := rfl

theorem run_more (body : Expr Rule) :
    grammar.run (depth + 1) (.more body) mode look cursor attempts =
      (if mode = .loose then grammar.run depth grammar.filler .atomic look cursor attempts
        else some (.stay cursor attempts)).bind fun outcome =>
          (outcome.andThen fun cursor attempts =>
            grammar.run depth body mode look cursor attempts).bind fun outcome =>
              match outcome.result with
              | none => some (.stay cursor outcome.attempts)
              | some found =>
                (grammar.run depth (.more body) mode look found.cursor outcome.attempts).map
                  (·.prepend found.trees) := rfl

theorem run_ahead (body : Expr Rule) :
    grammar.run (depth + 1) (.ahead body) mode look cursor attempts =
      (grammar.run depth body mode look.ahead cursor attempts).bind fun outcome =>
        if outcome.result.isSome then some (.stay cursor outcome.attempts)
        else some (.refuse outcome.attempts) := rfl

theorem run_avoid (body : Expr Rule) :
    grammar.run (depth + 1) (.avoid body) mode look cursor attempts =
      (grammar.run depth body mode look.avoid cursor attempts).bind fun outcome =>
        if outcome.result.isSome then some (.refuse outcome.attempts)
        else some (.stay cursor outcome.attempts) := rfl

theorem run_call (rule : Rule) :
    grammar.run (depth + 1) (.call rule) mode look cursor attempts =
      (grammar.run depth (grammar.body rule) (innerMode (grammar.kind rule) mode) look cursor
        attempts).map (leave rule (entryMode (grammar.kind rule) mode) look cursor attempts) := rfl

end Run

end Grammar

theorem Attempts.count_eq_zero {attempts : Attempts Rule} {position : Nat}
    (apart : attempts.position ≠ position) : attempts.count position = 0 := by
  simp [Attempts.count, apart]

theorem Attempts.record_position (rule : Rule) (look : Look) (position : Nat)
    (before now : Attempts Rule) :
    (Attempts.record rule look position before now).position = Nat.max now.position position := by
  unfold Attempts.record
  by_cases single : now.count position - before.count position = 1
  · have here : now.position = position := by
      by_cases apart : now.position = position
      · exact apart
      · rw [Attempts.count_eq_zero apart] at single
        omega
    simp [single, here]
  · by_cases past : position < now.position
    · simp only [single, if_false, past, if_true]
      exact (Nat.max_eq_left (Nat.le_of_lt past)).symm
    · have reached : Nat.max now.position position = position :=
        Nat.max_eq_right (Nat.le_of_not_lt past)
      simp only [single, if_false, past, reached]
      cases look <;> (repeat' split) <;> rfl

namespace Cursor

theorem skip?_append (characters rest : List Char) (offset : Nat) :
    skip? ⟨characters ++ rest, offset⟩ characters = some ⟨rest, offset + characters.length⟩ := by
  induction characters generalizing offset with
  | nil => rfl
  | cons c characters inductionHypothesis =>
      simp [skip?, inductionHypothesis, Nat.add_assoc, Nat.add_comm 1]

theorem skip?_eq_none {characters text : List Char} (apart : ¬ characters <+: text) (offset : Nat) :
    skip? ⟨text, offset⟩ characters = none := by
  induction characters generalizing text offset with
  | nil => simp at apart
  | cons c characters inductionHypothesis =>
      cases text with
      | nil => rfl
      | cons d text =>
          by_cases same : c = d
          · have apart' : ¬ characters <+: text := by
              simpa [List.cons_prefix_cons, same] using apart
            simp [skip?, same, inductionHypothesis apart']
          · simp [skip?, same]

end Cursor

/-- The furthest position, after refusals with these numbers of characters left. -/
def furthest (total : Nat) (refusals : List Nat) (position : Nat) : Nat :=
  refusals.foldl (fun furthest left => Nat.max furthest (total - left)) position

@[simp]
theorem furthest_append (total : Nat) (first second : List Nat) (position : Nat) :
    furthest total (first ++ second) position =
      furthest total second (furthest total first position) := by
  simp [furthest]

theorem furthest_cons (total refusal : Nat) (refusals : List Nat) (position : Nat) :
    furthest total (refusal :: refusals) position =
      furthest total refusals (Nat.max position (total - refusal)) := rfl

theorem le_furthest (total : Nat) (refusals : List Nat) (position : Nat) :
    position ≤ furthest total refusals position := by
  induction refusals generalizing position with
  | nil => exact Nat.le_refl _
  | cons refusal refusals inductionHypothesis =>
      exact Nat.le_trans (Nat.le_max_left _ _) (inductionHypothesis _)

theorem Furthest.furthest_eq {left : Nat} {refusals : List Nat} (noted : Furthest left refusals)
    (total : Nat) : furthest total refusals 0 = total - left := by
  have upper : ∀ position, position ≤ total - left →
      furthest total refusals position ≤ total - left := by
    have least := noted.least
    clear noted
    induction refusals with
    | nil => exact fun _ below => below
    | cons refusal refusals inductionHypothesis =>
        intro position below
        obtain ⟨first, later⟩ := List.forall_mem_cons.mp least
        exact inductionHypothesis later _ (Nat.max_le.mpr ⟨below, Nat.sub_le_sub_left first total⟩)
  have lower : ∀ position, total - left ≤ furthest total refusals position := by
    obtain ⟨before, after, rfl⟩ := List.append_of_mem noted.noted
    intro position
    rw [furthest_append, furthest_cons]
    exact Nat.le_trans (Nat.le_max_right _ _) (le_furthest _ _ _)
  exact Nat.le_antisymm (upper 0 (Nat.zero_le _)) (lower 0)

/-- A match in an input of `total` characters, with its position counted from the start. -/
def Found.locate (total : Nat) (found : Found Rule) : Match Rule :=
  ⟨found.1, ⟨found.2, total - found.2.length⟩⟩

namespace Outcome

/-- An outcome that says what a derivation says. -/
structure Reports (outcome : Outcome Rule) (total : Nat) (result : Option (Found Rule))
    (refusals : List Nat) (before : Attempts Rule) : Prop where
  result_eq : outcome.result = result.map (Found.locate total)
  position_eq : outcome.attempts.position = furthest total refusals before.position

variable {total : Nat} {before : Attempts Rule}

theorem reports_stay (before : Attempts Rule) {text : List Char} {offset : Nat}
    (placed : offset + text.length = total) :
    (Outcome.stay ⟨text, offset⟩ before).Reports total (some ([], text)) [] before := by
  refine ⟨?_, rfl⟩
  simp [Outcome.stay, Found.locate, ← placed]

theorem reports_refuse : (Outcome.refuse before).Reports total none [] before :=
  ⟨rfl, rfl⟩

theorem Reports.prepend {outcome : Outcome Rule} {middle : Attempts Rule}
    {result : Option (Found Rule)} {refusals refusals' : List Nat} (trees : List (Tree Rule))
    (reported : outcome.Reports total result refusals' middle)
    (reached : middle.position = furthest total refusals before.position) :
    (outcome.prepend trees).Reports total (result.map (Found.after trees)) (refusals ++ refusals')
      before := by
  constructor
  · simp only [Outcome.prepend, reported.result_eq, Option.map_map]
    rfl
  · simp only [Outcome.prepend, reported.position_eq, reached, furthest_append]

theorem Reports.andThen {outcome : Outcome Rule} {trees : List (Tree Rule)} {rest : List Char}
    {result : Option (Found Rule)} {refusals refusals' : List Nat}
    {next : Cursor → Attempts Rule → Option (Outcome Rule)}
    (reported : outcome.Reports total (some (trees, rest)) refusals before)
    (continued : ∃ later, next ⟨rest, total - rest.length⟩ outcome.attempts = some later ∧
      later.Reports total result refusals' outcome.attempts) :
    ∃ whole, outcome.andThen next = some whole ∧
      whole.Reports total (result.map (Found.after trees)) (refusals ++ refusals') before := by
  obtain ⟨later, ran, laterReported⟩ := continued
  refine ⟨later.prepend trees, ?_, laterReported.prepend trees reported.position_eq⟩
  simp only [Outcome.andThen, reported.result_eq, Option.map_some, Found.locate, ran]

theorem Reports.andThen_refused {outcome : Outcome Rule} {refusals : List Nat}
    {next : Cursor → Attempts Rule → Option (Outcome Rule)}
    (reported : outcome.Reports total none refusals before) :
    ∃ whole, outcome.andThen next = some whole ∧ whole.Reports total none refusals before := by
  refine ⟨.refuse outcome.attempts, ?_, rfl, reported.position_eq⟩
  simp only [Outcome.andThen, reported.result_eq, Option.map_none]

end Outcome

namespace Grammar

variable {grammar : Grammar Rule} {total : Nat} {expr : Expr Rule} {mode : Mode} {look : Look}
  {text : List Char} {result : Option (Found Rule)} {refusals : List Nat}

namespace Ranking

/-- How long the chain between two parts is in a mode. -/
def gap (ranking : grammar.Ranking) (mode : Mode) : Nat :=
  if mode = .loose then ranking.filler else 0

/-- The rank of an expression in a mode. -/
def rankOf (ranking : grammar.Ranking) (mode : Mode) (expr : Expr Rule) : Nat :=
  expr.rank ranking.empty ranking.ranks (ranking.gap mode)

/-- Whether an expression keeps to the ranking. -/
def Admits (ranking : grammar.Ranking) (expr : Expr Rule) : Prop :=
  expr.advances ranking.empty ranking.ranks ranking.filler ranking.chain = true

/-- The depth that suffices at a text. -/
def depthAt (ranking : grammar.Ranking) (mode : Mode) (expr : Expr Rule) (text : List Char) : Nat :=
  ranking.chain * text.length + ranking.rankOf mode expr

theorem gap_le (ranking : grammar.Ranking) (mode : Mode) : ranking.gap mode ≤ ranking.filler := by
  unfold gap
  split
  · exact Nat.le_refl _
  · exact Nat.zero_le _

theorem rankOf_pos (ranking : grammar.Ranking) (mode : Mode) (expr : Expr Rule) :
    0 < ranking.rankOf mode expr := by
  cases expr with
  | call rule => exact Nat.lt_of_le_of_lt (Nat.zero_le _) (ranking.rank_body rule)
  | _ => exact Nat.succ_pos _

theorem depth_eq_succ (ranking : grammar.Ranking) {depth : Nat}
    (deep : ranking.depthAt mode expr text ≤ depth) : ∃ less, depth = less + 1 := by
  have positive := ranking.rankOf_pos mode expr
  refine ⟨depth - 1, ?_⟩
  unfold depthAt at deep
  omega

theorem depthAt_le_of_rank (ranking : grammar.Ranking) {inner : Expr Rule} {mode' : Mode}
    {rest : List Char} {depth : Nat}
    (lower : ranking.rankOf mode' inner < ranking.rankOf mode expr)
    (shorter : rest.length ≤ text.length) (deep : ranking.depthAt mode expr text ≤ depth + 1) :
    ranking.depthAt mode' inner rest ≤ depth := by
  have chains : ranking.chain * rest.length ≤ ranking.chain * text.length :=
    Nat.mul_le_mul_left _ shorter
  unfold depthAt at *
  omega

theorem depthAt_le_of_shorter (ranking : grammar.Ranking) {inner : Expr Rule} {rest : List Char}
    {depth : Nat} (bounded : ranking.rankOf mode inner ≤ ranking.chain)
    (shorter : rest.length < text.length) (deep : ranking.depthAt mode expr text ≤ depth + 1) :
    ranking.depthAt mode inner rest ≤ depth := by
  have chains : ranking.chain * (rest.length + 1) ≤ ranking.chain * text.length :=
    Nat.mul_le_mul_left _ shorter
  have positive := ranking.rankOf_pos mode expr
  unfold depthAt at *
  rw [Nat.mul_add] at chains
  omega

theorem depthAt_le_again (ranking : grammar.Ranking) {rest : List Char} {depth : Nat}
    (shorter : rest.length < text.length) (deep : ranking.depthAt mode expr text ≤ depth + 1) :
    ranking.depthAt mode expr rest ≤ depth := by
  have chains : ranking.chain * (rest.length + 1) ≤ ranking.chain * text.length :=
    Nat.mul_le_mul_left _ shorter
  have positive := ranking.chain_pos
  unfold depthAt at *
  rw [Nat.mul_add] at chains
  omega

theorem Admits.join {ranking : grammar.Ranking} {first second : Expr Rule}
    (admitted : ranking.Admits (.join first second)) :
    ranking.Admits first ∧ ranking.Admits second ∧ ∀ mode, ranking.rankOf mode second ≤
      ranking.chain := by
  have parts : (ranking.Admits first ∧ ranking.Admits second) ∧
      second.rank ranking.empty ranking.ranks ranking.filler ≤ ranking.chain := by
    simpa [Admits, Expr.advances] using admitted
  exact ⟨parts.1.1, parts.1.2, fun mode =>
    Nat.le_trans (Expr.rank_mono (ranking.gap_le mode) second) parts.2⟩

theorem Admits.seq {ranking : grammar.Ranking} {first second : Expr Rule}
    (admitted : ranking.Admits (.seq first second)) : ranking.Admits (.join first second) :=
  admitted

theorem Admits.alt {ranking : grammar.Ranking} {first second : Expr Rule}
    (admitted : ranking.Admits (.alt first second)) :
    ranking.Admits first ∧ ranking.Admits second := by
  simpa [Admits, Expr.advances] using admitted

theorem Admits.more {ranking : grammar.Ranking} {body : Expr Rule}
    (admitted : ranking.Admits (.more body)) :
    ranking.Admits body ∧ body.mayBeEmpty ranking.empty = false := by
  simpa [Admits, Expr.advances] using admitted

section Ranks

variable (ranking : grammar.Ranking) {first second body : Expr Rule}

theorem rankOf_join_first :
    ranking.rankOf mode first < ranking.rankOf mode (.join first second) :=
  Nat.lt_succ_of_le (Nat.le_max_left _ _)

theorem rankOf_join_second (empty : first.mayBeEmpty ranking.empty = true) :
    ranking.rankOf mode second < ranking.rankOf mode (.join first second) := by
  simp only [rankOf, Expr.rank, empty, if_true]
  exact Nat.lt_succ_of_le (Nat.le_max_right _ _)

theorem rankOf_join_le_seq :
    ranking.rankOf mode (.join first second) ≤ ranking.rankOf mode (.seq first second) := by
  apply Nat.succ_le_succ
  exact Nat.max_le.mpr ⟨Nat.le_max_left _ _,
    Nat.le_trans (Nat.le_max_right _ _) (Nat.le_max_right _ _)⟩

theorem rankOf_seq_first :
    ranking.rankOf mode first < ranking.rankOf mode (.seq first second) :=
  Nat.lt_of_lt_of_le ranking.rankOf_join_first ranking.rankOf_join_le_seq

theorem rankOf_seq_second (empty : first.mayBeEmpty ranking.empty = true) :
    ranking.rankOf mode second < ranking.rankOf mode (.seq first second) :=
  Nat.lt_of_lt_of_le (ranking.rankOf_join_second empty) ranking.rankOf_join_le_seq

theorem rankOf_seq_filler :
    ranking.rankOf .atomic grammar.filler < ranking.rankOf .loose (.seq first second) :=
  Nat.lt_succ_of_le (Nat.le_trans ranking.rank_filler
    (Nat.le_trans (Nat.le_max_left _ _) (Nat.le_max_right _ _)))

theorem rankOf_alt_first : ranking.rankOf mode first < ranking.rankOf mode (.alt first second) :=
  Nat.lt_succ_of_le (Nat.le_max_left _ _)

theorem rankOf_alt_second : ranking.rankOf mode second < ranking.rankOf mode (.alt first second) :=
  Nat.lt_succ_of_le (Nat.le_max_right _ _)

theorem rankOf_more_filler :
    ranking.rankOf .atomic grammar.filler < ranking.rankOf .loose (.more body) :=
  Nat.lt_succ_of_le (Nat.le_trans ranking.rank_filler (Nat.le_max_left _ _))

theorem rankOf_more_body : ranking.rankOf mode body < ranking.rankOf mode (.more body) :=
  Nat.lt_succ_of_le (Nat.le_max_right _ _)

theorem gap_innerMode (rule : Rule) (mode : Mode) :
    ranking.gap (innerMode (grammar.kind rule) mode) ≤
      if grammar.kind rule = .plain then ranking.filler else 0 := by
  cases grammar.kind rule with
  | plain => exact ranking.gap_le mode
  | atomic | compound => exact Nat.le_refl _

theorem rankOf_body (rule : Rule) (mode : Mode) :
    ranking.rankOf (innerMode (grammar.kind rule) mode) (grammar.body rule) <
      ranking.rankOf mode (.call rule) :=
  Nat.lt_of_le_of_lt (Expr.rank_mono (ranking.gap_innerMode rule mode) _) (ranking.rank_body rule)

end Ranks

/-- What follows a match needs less depth: either something was read, or the rank is lower. -/
theorem depthAt_le_second (ranking : grammar.Ranking) {first second : Expr Rule}
    {trees : List (Tree Rule)} {rest rest' : List Char} {depth : Nat}
    (derived : grammar.Derives total first mode look text (some (trees, rest)) refusals)
    (bounded : ranking.rankOf mode second ≤ ranking.chain)
    (above : first.mayBeEmpty ranking.empty = true →
      ranking.rankOf mode second < ranking.rankOf mode expr)
    (shorter : rest'.length ≤ rest.length)
    (deep : ranking.depthAt mode expr text ≤ depth + 1) :
    ranking.depthAt mode second rest' ≤ depth := by
  cases empty : first.mayBeEmpty ranking.empty with
  | true =>
      exact ranking.depthAt_le_of_rank (above empty)
        (Nat.le_trans shorter (derived.length_le _ rfl)) deep
  | false =>
      exact ranking.depthAt_le_of_shorter bounded
        (Nat.lt_of_le_of_lt shorter (derived.length_lt ranking empty _ rfl)) deep

end Ranking

theorem Derives.placed_rest {trees : List (Tree Rule)} {rest : List Char} {offset : Nat}
    (derived : grammar.Derives total expr mode look text (some (trees, rest)) refusals)
    (placed : offset + text.length = total) : total - rest.length + rest.length = total := by
  have shorter : rest.length ≤ text.length := derived.length_le _ rfl
  omega

theorem reports_leave {rule : Rule} {outcome : Outcome Rule} {before : Attempts Rule} {offset : Nat}
    (placed : offset + text.length = total)
    (shorter : ∀ found ∈ result, found.2.length ≤ text.length)
    (reported : outcome.Reports total result refusals before) :
    (leave rule mode look ⟨text, offset⟩ before outcome).Reports total
      (result.map (enclose rule mode text)) (refusals ++ noted mode look text result) before := by
  have offset_eq : offset = total - text.length := by omega
  have result_eq : (leave rule mode look ⟨text, offset⟩ before outcome).result =
      (result.map (enclose rule mode text)).map (Found.locate total) := by
    cases result with
    | none => simp [leave, reported.result_eq, apply_ite Outcome.result]
    | some found =>
        have length_le := shorter found rfl
        have taken : total - found.2.length - offset = text.length - found.2.length := by omega
        cases mode <;>
          simp [leave, reported.result_eq, apply_ite Outcome.result, Found.locate, enclose,
            Cursor.upTo, taken]
  refine ⟨result_eq, ?_⟩
  have noted_iff : (if look = .negative then outcome.result.isSome else outcome.result.isNone) =
      (if look = .negative then result.isSome else result.isNone) := by
    simp [reported.result_eq]
  simp only [leave, noted, noted_iff]
  generalize (if look = .negative then result.isSome else result.isNone) = refused
  by_cases counted : (refused && decide (mode ≠ .atomic)) = true
  · rw [if_pos counted, if_pos counted]
    simp [furthest, Attempts.record_position, reported.position_eq, offset_eq]
  · rw [if_neg counted, if_neg counted]
    simp [reported.position_eq]

/-- Every run with enough depth ends with the given result and refusals. -/
def RunsTo (ranking : grammar.Ranking) (total : Nat) (expr : Expr Rule) (mode : Mode) (look : Look)
    (text : List Char) (result : Option (Found Rule)) (refusals : List Nat) : Prop :=
  ∀ ⦃depth offset : Nat⦄ (before : Attempts Rule), ranking.Admits expr →
    ranking.depthAt mode expr text ≤ depth + 1 → offset + text.length = total →
    ∃ outcome, grammar.run (depth + 1) expr mode look ⟨text, offset⟩ before = some outcome ∧
      outcome.Reports total result refusals before

namespace RunsTo

variable {ranking : grammar.Ranking} {first second body : Expr Rule}
  {trees trees' : List (Tree Rule)} {rest rest' : List Char} {refusals' refusals'' : List Nat}

theorem run_eq {depth offset : Nat}
    (ends : RunsTo ranking total expr mode look text result refusals) (before : Attempts Rule)
    (admitted : ranking.Admits expr) (deep : ranking.depthAt mode expr text ≤ depth)
    (placed : offset + text.length = total) :
    ∃ outcome, grammar.run depth expr mode look ⟨text, offset⟩ before = some outcome ∧
      outcome.Reports total result refusals before := by
  obtain ⟨depth, rfl⟩ := ranking.depth_eq_succ deep
  exact ends before admitted deep placed

theorem char {accepts : Char → Bool} {c : Char} (accepted : accepts c = true) :
    RunsTo ranking total (.char accepts) mode look (c :: rest) (some ([], rest)) [] := by
  intro depth offset before admitted deep placed
  refine ⟨.stay ⟨rest, offset + 1⟩ before, by simp [run_char, accepted], ?_⟩
  exact Outcome.reports_stay _ (by simp at placed; omega)

theorem charRefused {accepts : Char → Bool} (rejected : ∀ c ∈ text.head?, accepts c = false) :
    RunsTo ranking total (.char accepts) mode look text none [] := by
  intro depth offset before admitted deep placed
  refine ⟨.refuse before, ?_, Outcome.reports_refuse⟩
  cases text with
  | nil => simp [run_char]
  | cons c rest => simp [run_char, rejected c rfl]

theorem letters (characters : List Char) :
    RunsTo ranking total (.text characters) mode look (characters ++ rest) (some ([], rest))
      [] := by
  intro depth offset before admitted deep placed
  refine ⟨.stay ⟨rest, offset + characters.length⟩ before, ?_, ?_⟩
  · simp [run_text, Cursor.skip?_append]
  · exact Outcome.reports_stay _ (by simp at placed; omega)

theorem lettersRefused {characters : List Char} (apart : ¬ characters <+: text) :
    RunsTo ranking total (.text characters) mode look text none [] := by
  intro depth offset before admitted deep placed
  exact ⟨.refuse before, by simp [run_text, Cursor.skip?_eq_none apart], Outcome.reports_refuse⟩

theorem start (whole : text.length = total) :
    RunsTo ranking total .start mode look text (some ([], text)) [] := by
  intro depth offset before admitted deep placed
  have first : offset = 0 := by omega
  exact ⟨.stay ⟨text, offset⟩ before, by simp [run_start, first], Outcome.reports_stay _ placed⟩

theorem startRefused (part : text.length ≠ total) :
    RunsTo ranking total .start mode look text none [] := by
  intro depth offset before admitted deep placed
  have later : offset ≠ 0 := by omega
  exact ⟨.refuse before, by simp [run_start, later], Outcome.reports_refuse⟩

theorem done : RunsTo ranking total .done mode look [] (some ([], [])) [] := by
  intro depth offset before admitted deep placed
  exact ⟨.stay ⟨[], offset⟩ before, by simp [run_done], Outcome.reports_stay _ placed⟩

theorem doneRefused (nonempty : text ≠ []) : RunsTo ranking total .done mode look text none [] := by
  intro depth offset before admitted deep placed
  exact ⟨.refuse before, by simp [run_done, nonempty], Outcome.reports_refuse⟩

theorem joinRefused (ends : RunsTo ranking total first mode look text none refusals) :
    RunsTo ranking total (.join first second) mode look text none refusals := by
  intro depth offset before admitted deep placed
  obtain ⟨admittedFirst, _, _⟩ := admitted.join
  obtain ⟨outcome, ran, reported⟩ := ends.run_eq before admittedFirst
    (ranking.depthAt_le_of_rank ranking.rankOf_join_first (Nat.le_refl _) deep) placed
  simp only [run_join, ran, Option.bind_some]
  exact reported.andThen_refused

theorem join (derived : grammar.Derives total first mode look text (some (trees, rest)) refusals)
    (endsFirst : RunsTo ranking total first mode look text (some (trees, rest)) refusals)
    (endsSecond : RunsTo ranking total second mode look rest result refusals') :
    RunsTo ranking total (.join first second) mode look text (result.map (Found.after trees))
      (refusals ++ refusals') := by
  intro depth offset before admitted deep placed
  obtain ⟨admittedFirst, admittedSecond, bounded⟩ := admitted.join
  obtain ⟨outcome, ran, reported⟩ := endsFirst.run_eq before admittedFirst
    (ranking.depthAt_le_of_rank ranking.rankOf_join_first (Nat.le_refl _) deep) placed
  simp only [run_join, ran, Option.bind_some]
  apply reported.andThen
  exact endsSecond.run_eq _ admittedSecond
    (ranking.depthAt_le_second derived (bounded _) ranking.rankOf_join_second (Nat.le_refl _) deep)
    (derived.placed_rest placed)

theorem seq (strict : mode ≠ .loose)
    (ends : RunsTo ranking total (.join first second) mode look text result refusals) :
    RunsTo ranking total (.seq first second) mode look text result refusals := by
  intro depth offset before admitted deep placed
  obtain ⟨outcome, ran, reported⟩ := ends before admitted.seq
    (Nat.le_trans (Nat.add_le_add_left ranking.rankOf_join_le_seq _) deep) placed
  refine ⟨outcome, ?_, reported⟩
  rw [← ran]
  simp only [run_seq, run_join, strict, if_false]

theorem seqRefused (ends : RunsTo ranking total first .loose look text none refusals) :
    RunsTo ranking total (.seq first second) .loose look text none refusals := by
  intro depth offset before admitted deep placed
  obtain ⟨admittedFirst, _, _⟩ := admitted.seq.join
  obtain ⟨outcome, ran, reported⟩ := ends.run_eq before admittedFirst
    (ranking.depthAt_le_of_rank ranking.rankOf_seq_first (Nat.le_refl _) deep) placed
  simp only [run_seq, ran, Option.bind_some]
  exact reported.andThen_refused

theorem seqBlocked
    (derived : grammar.Derives total first .loose look text (some (trees, rest)) refusals)
    (endsFirst : RunsTo ranking total first .loose look text (some (trees, rest)) refusals)
    (endsFiller : RunsTo ranking total grammar.filler .atomic look rest none refusals') :
    RunsTo ranking total (.seq first second) .loose look text none (refusals ++ refusals') := by
  intro depth offset before admitted deep placed
  obtain ⟨admittedFirst, _, _⟩ := admitted.seq.join
  obtain ⟨outcome, ran, reported⟩ := endsFirst.run_eq before admittedFirst
    (ranking.depthAt_le_of_rank ranking.rankOf_seq_first (Nat.le_refl _) deep) placed
  obtain ⟨filled, ranFiller, reportedFiller⟩ := endsFiller.run_eq outcome.attempts
    ranking.advances_filler
    (ranking.depthAt_le_of_rank ranking.rankOf_seq_filler (derived.length_le _ rfl) deep)
    (derived.placed_rest placed)
  simp only [run_seq, ran, Option.bind_some, if_true]
  have noFound : (none : Option (Found Rule)).map (Found.after trees) = none := rfl
  rw [← noFound]
  apply reported.andThen
  simp only [ranFiller, Option.bind_some]
  exact reportedFiller.andThen_refused

theorem seqLoose
    (derived : grammar.Derives total first .loose look text (some (trees, rest)) refusals)
    (derivedFiller : grammar.Derives total grammar.filler .atomic look rest (some (trees', rest'))
      refusals')
    (endsFirst : RunsTo ranking total first .loose look text (some (trees, rest)) refusals)
    (endsFiller : RunsTo ranking total grammar.filler .atomic look rest (some (trees', rest'))
      refusals')
    (endsSecond : RunsTo ranking total second .loose look rest' result refusals'') :
    RunsTo ranking total (.seq first second) .loose look text
      (result.map (Found.after (trees ++ trees'))) (refusals ++ refusals' ++ refusals'') := by
  intro depth offset before admitted deep placed
  obtain ⟨admittedFirst, admittedSecond, bounded⟩ := admitted.seq.join
  obtain ⟨outcome, ran, reported⟩ := endsFirst.run_eq before admittedFirst
    (ranking.depthAt_le_of_rank ranking.rankOf_seq_first (Nat.le_refl _) deep) placed
  obtain ⟨filled, ranFiller, reportedFiller⟩ := endsFiller.run_eq outcome.attempts
    ranking.advances_filler
    (ranking.depthAt_le_of_rank ranking.rankOf_seq_filler (derived.length_le _ rfl) deep)
    (derived.placed_rest placed)
  have nested : result.map (Found.after (trees ++ trees')) =
      (result.map (Found.after trees')).map (Found.after trees) := by
    cases result <;> simp [Found.after]
  simp only [run_seq, ran, Option.bind_some, if_true]
  rw [nested, List.append_assoc]
  apply reported.andThen
  simp only [ranFiller, Option.bind_some]
  apply reportedFiller.andThen
  exact endsSecond.run_eq _ admittedSecond
    (ranking.depthAt_le_second derived (bounded _) ranking.rankOf_seq_second
      (derivedFiller.length_le _ rfl) deep)
    (derivedFiller.placed_rest (derived.placed_rest placed))

theorem altFirst {found : Found Rule}
    (ends : RunsTo ranking total first mode look text (some found) refusals) :
    RunsTo ranking total (.alt first second) mode look text (some found) refusals := by
  intro depth offset before admitted deep placed
  obtain ⟨outcome, ran, reported⟩ := ends.run_eq before admitted.alt.1
    (ranking.depthAt_le_of_rank ranking.rankOf_alt_first (Nat.le_refl _) deep) placed
  exact ⟨outcome, by simp [run_alt, ran, reported.result_eq], reported⟩

theorem altSecond (endsFirst : RunsTo ranking total first mode look text none refusals)
    (endsSecond : RunsTo ranking total second mode look text result refusals') :
    RunsTo ranking total (.alt first second) mode look text result (refusals ++ refusals') := by
  intro depth offset before admitted deep placed
  obtain ⟨outcome, ran, reported⟩ := endsFirst.run_eq before admitted.alt.1
    (ranking.depthAt_le_of_rank ranking.rankOf_alt_first (Nat.le_refl _) deep) placed
  obtain ⟨other, ranOther, reportedOther⟩ := endsSecond.run_eq outcome.attempts admitted.alt.2
    (ranking.depthAt_le_of_rank ranking.rankOf_alt_second (Nat.le_refl _) deep) placed
  refine ⟨other, by simp [run_alt, ran, reported.result_eq, ranOther], reportedOther.result_eq, ?_⟩
  rw [reportedOther.position_eq, reported.position_eq, furthest_append]

theorem opt {found : Found Rule}
    (ends : RunsTo ranking total body mode look text (some found) refusals) :
    RunsTo ranking total (.opt body) mode look text (some found) refusals := by
  intro depth offset before admitted deep placed
  obtain ⟨outcome, ran, reported⟩ := ends.run_eq before admitted
    (ranking.depthAt_le_of_rank (Nat.lt_succ_self _) (Nat.le_refl _) deep) placed
  exact ⟨outcome, by simp [run_opt, ran, reported.result_eq], reported⟩

theorem optNone (ends : RunsTo ranking total body mode look text none refusals) :
    RunsTo ranking total (.opt body) mode look text (some ([], text)) refusals := by
  intro depth offset before admitted deep placed
  obtain ⟨outcome, ran, reported⟩ := ends.run_eq before admitted
    (ranking.depthAt_le_of_rank (Nat.lt_succ_self _) (Nat.le_refl _) deep) placed
  refine ⟨.stay ⟨text, offset⟩ outcome.attempts, by simp [run_opt, ran, reported.result_eq], ?_⟩
  exact ⟨(Outcome.reports_stay before placed).result_eq, reported.position_eq⟩

theorem moreStop (strict : mode ≠ .loose)
    (ends : RunsTo ranking total body mode look text none refusals) :
    RunsTo ranking total (.more body) mode look text (some ([], text)) refusals := by
  intro depth offset before admitted deep placed
  obtain ⟨outcome, ran, reported⟩ := ends.run_eq before admitted.more.1
    (ranking.depthAt_le_of_rank ranking.rankOf_more_body (Nat.le_refl _) deep) placed
  refine ⟨.stay ⟨text, offset⟩ outcome.attempts, ?_, ?_⟩
  · simp [run_more, strict, Outcome.andThen, Outcome.stay, ran, Outcome.prepend, reported.result_eq]
  · exact ⟨(Outcome.reports_stay before placed).result_eq, reported.position_eq⟩

theorem moreBlocked (ends : RunsTo ranking total grammar.filler .atomic look text none refusals) :
    RunsTo ranking total (.more body) .loose look text (some ([], text)) refusals := by
  intro depth offset before admitted deep placed
  obtain ⟨outcome, ran, reported⟩ := ends.run_eq before ranking.advances_filler
    (ranking.depthAt_le_of_rank ranking.rankOf_more_filler (Nat.le_refl _) deep) placed
  refine ⟨.stay ⟨text, offset⟩ outcome.attempts, ?_, ?_⟩
  · simp [run_more, Outcome.andThen, ran, reported.result_eq, Outcome.refuse]
  · exact ⟨(Outcome.reports_stay before placed).result_eq, reported.position_eq⟩

theorem moreStopLoose
    (derived : grammar.Derives total grammar.filler .atomic look text (some (trees, rest)) refusals)
    (endsFiller : RunsTo ranking total grammar.filler .atomic look text (some (trees, rest))
      refusals)
    (endsBody : RunsTo ranking total body .loose look rest none refusals') :
    RunsTo ranking total (.more body) .loose look text (some ([], text))
      (refusals ++ refusals') := by
  intro depth offset before admitted deep placed
  obtain ⟨filled, ranFiller, reportedFiller⟩ := endsFiller.run_eq before ranking.advances_filler
    (ranking.depthAt_le_of_rank ranking.rankOf_more_filler (Nat.le_refl _) deep) placed
  obtain ⟨whole, ranWhole, reported⟩ := reportedFiller.andThen (endsBody.run_eq filled.attempts
    admitted.more.1
      (ranking.depthAt_le_of_rank ranking.rankOf_more_body (derived.length_le _ rfl) deep)
    (derived.placed_rest placed))
  refine ⟨.stay ⟨text, offset⟩ whole.attempts, ?_, ?_⟩
  · simp [run_more, ranFiller, ranWhole, reported.result_eq]
  · exact ⟨(Outcome.reports_stay before placed).result_eq, reported.position_eq⟩

theorem more (strict : mode ≠ .loose)
    (derived : grammar.Derives total body mode look text (some (trees, rest)) refusals)
    (endsBody : RunsTo ranking total body mode look text (some (trees, rest)) refusals)
    (endsMore : RunsTo ranking total (.more body) mode look rest result refusals') :
    RunsTo ranking total (.more body) mode look text (result.map (Found.after trees))
      (refusals ++ refusals') := by
  intro depth offset before admitted deep placed
  obtain ⟨admittedBody, reads⟩ := admitted.more
  obtain ⟨outcome, ran, reported⟩ := endsBody.run_eq before admittedBody
    (ranking.depthAt_le_of_rank ranking.rankOf_more_body (Nat.le_refl _) deep) placed
  obtain ⟨later, ranLater, reportedLater⟩ := endsMore.run_eq outcome.attempts admitted
    (ranking.depthAt_le_again (derived.length_lt ranking reads _ rfl) deep)
    (derived.placed_rest placed)
  refine ⟨later.prepend trees, ?_, reportedLater.prepend trees reported.position_eq⟩
  simp [run_more, strict, Outcome.andThen, Outcome.stay, ran, Outcome.prepend, reported.result_eq,
    Found.locate, ranLater]

theorem moreLoose
    (derivedFiller : grammar.Derives total grammar.filler .atomic look text (some (trees, rest))
      refusals)
    (derivedBody : grammar.Derives total body .loose look rest (some (trees', rest')) refusals')
    (endsFiller : RunsTo ranking total grammar.filler .atomic look text (some (trees, rest))
      refusals)
    (endsBody : RunsTo ranking total body .loose look rest (some (trees', rest')) refusals')
    (endsMore : RunsTo ranking total (.more body) .loose look rest' result refusals'') :
    RunsTo ranking total (.more body) .loose look text (result.map (Found.after (trees ++ trees')))
      (refusals ++ refusals' ++ refusals'') := by
  intro depth offset before admitted deep placed
  obtain ⟨admittedBody, reads⟩ := admitted.more
  have fillerLength := derivedFiller.length_le _ rfl
  obtain ⟨filled, ranFiller, reportedFiller⟩ := endsFiller.run_eq before ranking.advances_filler
    (ranking.depthAt_le_of_rank ranking.rankOf_more_filler (Nat.le_refl _) deep) placed
  obtain ⟨whole, ranWhole, reported⟩ := reportedFiller.andThen (endsBody.run_eq filled.attempts
    admittedBody (ranking.depthAt_le_of_rank ranking.rankOf_more_body fillerLength deep)
    (derivedFiller.placed_rest placed))
  obtain ⟨later, ranLater, reportedLater⟩ := endsMore.run_eq whole.attempts admitted
    (ranking.depthAt_le_again
      (Nat.lt_of_lt_of_le (derivedBody.length_lt ranking reads _ rfl) fillerLength) deep)
    (derivedBody.placed_rest (derivedFiller.placed_rest placed))
  refine ⟨later.prepend (trees ++ trees'), ?_,
    reportedLater.prepend (trees ++ trees') reported.position_eq⟩
  simp [run_more, ranFiller, ranWhole, reported.result_eq, Found.after, Found.locate, ranLater]

theorem ahead {found : Found Rule}
    (ends : RunsTo ranking total body mode look.ahead text (some found) refusals) :
    RunsTo ranking total (.ahead body) mode look text (some ([], text)) refusals := by
  intro depth offset before admitted deep placed
  obtain ⟨outcome, ran, reported⟩ := ends.run_eq before admitted
    (ranking.depthAt_le_of_rank (Nat.lt_succ_self _) (Nat.le_refl _) deep) placed
  refine ⟨.stay ⟨text, offset⟩ outcome.attempts, by simp [run_ahead, ran, reported.result_eq], ?_⟩
  exact ⟨(Outcome.reports_stay before placed).result_eq, reported.position_eq⟩

theorem aheadRefused (ends : RunsTo ranking total body mode look.ahead text none refusals) :
    RunsTo ranking total (.ahead body) mode look text none refusals := by
  intro depth offset before admitted deep placed
  obtain ⟨outcome, ran, reported⟩ := ends.run_eq before admitted
    (ranking.depthAt_le_of_rank (Nat.lt_succ_self _) (Nat.le_refl _) deep) placed
  exact ⟨.refuse outcome.attempts, by simp [run_ahead, ran,
    reported.result_eq], rfl, reported.position_eq⟩

theorem avoid (ends : RunsTo ranking total body mode look.avoid text none refusals) :
    RunsTo ranking total (.avoid body) mode look text (some ([], text)) refusals := by
  intro depth offset before admitted deep placed
  obtain ⟨outcome, ran, reported⟩ := ends.run_eq before admitted
    (ranking.depthAt_le_of_rank (Nat.lt_succ_self _) (Nat.le_refl _) deep) placed
  refine ⟨.stay ⟨text, offset⟩ outcome.attempts, by simp [run_avoid, ran, reported.result_eq], ?_⟩
  exact ⟨(Outcome.reports_stay before placed).result_eq, reported.position_eq⟩

theorem avoidRefused {found : Found Rule}
    (ends : RunsTo ranking total body mode look.avoid text (some found) refusals) :
    RunsTo ranking total (.avoid body) mode look text none refusals := by
  intro depth offset before admitted deep placed
  obtain ⟨outcome, ran, reported⟩ := ends.run_eq before admitted
    (ranking.depthAt_le_of_rank (Nat.lt_succ_self _) (Nat.le_refl _) deep) placed
  exact ⟨.refuse outcome.attempts, by simp [run_avoid, ran,
    reported.result_eq], rfl, reported.position_eq⟩

theorem call {rule : Rule}
    (derived : grammar.Derives total (grammar.body rule) (innerMode (grammar.kind rule) mode) look
      text result refusals)
    (ends : RunsTo ranking total (grammar.body rule) (innerMode (grammar.kind rule) mode) look text
      result refusals) :
    RunsTo ranking total (.call rule) mode look text
      (result.map (enclose rule (entryMode (grammar.kind rule) mode) text))
      (refusals ++ noted (entryMode (grammar.kind rule) mode) look text result) := by
  intro depth offset before admitted deep placed
  obtain ⟨outcome, ran, reported⟩ := ends.run_eq before (ranking.advances_body rule)
    (ranking.depthAt_le_of_rank (ranking.rankOf_body rule mode) (Nat.le_refl _) deep) placed
  exact ⟨_, by simp [run_call, ran], reports_leave placed derived.length_le reported⟩

end RunsTo

/-- A run that is allowed enough depth ends as the derivation says. -/
theorem Derives.runsTo (ranking : grammar.Ranking)
    (derived : grammar.Derives total expr mode look text result refusals) :
    RunsTo ranking total expr mode look text result refusals := by
  induction derived with
  | char accepted => exact .char accepted
  | charRefused rejected => exact .charRefused rejected
  | text => exact .letters _
  | textRefused apart => exact .lettersRefused apart
  | start whole => exact .start whole
  | startRefused part => exact .startRefused part
  | done => exact .done
  | doneRefused nonempty => exact .doneRefused nonempty
  | joinRefused _ ends => exact .joinRefused ends
  | join derived _ endsFirst endsSecond => exact .join derived endsFirst endsSecond
  | seq strict _ ends => exact .seq strict ends
  | seqRefused _ ends => exact .seqRefused ends
  | seqBlocked derived _ endsFirst endsFiller => exact .seqBlocked derived endsFirst endsFiller
  | seqLoose derived derivedFiller _ endsFirst endsFiller endsSecond =>
      exact .seqLoose derived derivedFiller endsFirst endsFiller endsSecond
  | altFirst _ ends => exact .altFirst ends
  | altSecond _ _ endsFirst endsSecond => exact .altSecond endsFirst endsSecond
  | opt _ ends => exact .opt ends
  | optNone _ ends => exact .optNone ends
  | moreStop strict _ ends => exact .moreStop strict ends
  | moreBlocked _ ends => exact .moreBlocked ends
  | moreStopLoose derived _ endsFiller endsBody => exact .moreStopLoose derived endsFiller endsBody
  | more strict derived _ endsBody endsMore => exact .more strict derived endsBody endsMore
  | moreLoose derivedFiller derivedBody _ endsFiller endsBody endsMore =>
      exact .moreLoose derivedFiller derivedBody endsFiller endsBody endsMore
  | ahead _ ends => exact .ahead ends
  | aheadRefused _ ends => exact .aheadRefused ends
  | avoid _ ends => exact .avoid ends
  | avoidRefused _ ends => exact .avoidRefused ends
  | call derived ends => exact .call derived ends

end Grammar

end CommandShell.Peg
