import CommandShell.Proofs.Script.WellFormed
import CommandShell.Script.Outline

/-!
What an outline shows of a script: everything but how words are divided, which of them are
variables, and which statements run in the background. The lines have no closing marks, so the proof
goes by the depth at which a line stands and by its first letter. Behind the lines of a command
there may stand only what is no part of it, and then both the command and what stands behind are
known from the lines.
-/

namespace CommandShell

/-! What is shown. -/

/-- The texts of words, as a single literal. -/
def shownWords (words : List Word) : List Word := [.literal (joinWords words)]

mutual

/-- A command with a single literal for every list of words and for every variable of a loop, and
with nothing in the background. -/
def Command.shown : Command → Command
  | .pipeline stages => .pipeline (stages.map shownWords)
  | .assignment name value => .assignment name (shownWords value)
  | .conditional branches fallback => .conditional (shownBranches branches) (shownFallback fallback)
  | .loop parallel binder values body =>
    .loop parallel (.literal binder.text) (shownWords values) (shownStatements body)

def shownBranches : List Branch → List Branch
  | [] => []
  | .mk test body :: branches =>
    .mk (test.map shownWords) (shownStatements body) :: shownBranches branches

def shownFallback : Option (List Statement) → Option (List Statement)
  | none => none
  | some body => some (shownStatements body)

def shownStatements : List Statement → List Statement
  | [] => []
  | .mk command _ :: statements => .mk command.shown false :: shownStatements statements

end

def Script.shown (script : Script) : Script := shownStatements script

/-! The scripts whose outlines can be read. -/

/-- Words that stand on one line. -/
def oneLine (words : List Word) : Bool := words.all fun word => !word.text.toList.contains '\n'

mutual

/-- Whether words stand on one line, what is named is a name, and no conditional is empty. -/
def Command.legible : Command → Bool
  | .pipeline stages => stages.all oneLine
  | .assignment name value => isName name && oneLine value
  | .conditional branches fallback =>
    !branches.isEmpty && branchesLegible branches && fallbackLegible fallback
  | .loop _ binder values body => isName binder.text && oneLine values && statementsLegible body

def branchesLegible : List Branch → Bool
  | [] => true
  | .mk test body :: branches =>
      test.all oneLine && statementsLegible body && branchesLegible branches

def fallbackLegible : Option (List Statement) → Bool
  | none => true
  | some body => statementsLegible body

def statementsLegible : List Statement → Bool
  | [] => true
  | .mk command _ :: statements => command.legible && statementsLegible statements

end

def Script.legible (script : Script) : Bool := statementsLegible script

/-! From the text to the lines. -/

theorem append_cons_inj {α : Type} {mark : α} {first first' rest rest' : List α}
    (absent : mark ∉ first) (absent' : mark ∉ first')
    (same : first ++ mark :: rest = first' ++ mark :: rest') :
    first = first' ∧ rest = rest' := by
  induction first generalizing first' with
  | nil =>
      cases first' with
      | nil => exact ⟨rfl, (List.cons.inj same).2⟩
      | cons c first' => simp [(List.cons.inj same).1] at absent'
  | cons c first inductionHypothesis =>
      cases first' with
      | nil => simp [(List.cons.inj same).1] at absent
      | cons c' first' =>
          obtain ⟨rfl, later⟩ := List.cons.inj same
          obtain ⟨rfl, rfl⟩ :=
            inductionHypothesis (fun member => absent (List.mem_cons_of_mem _ member))
            (fun member => absent' (List.mem_cons_of_mem _ member)) later
          exact ⟨rfl, rfl⟩

namespace OutlineLine

/-- A line without a break in it and without a space in front of its text. -/
def Clean (line : OutlineLine) : Prop :=
  '\n' ∉ line.text.toList ∧ line.text.toList.head? ≠ some ' '

theorem toList_render (line : OutlineLine) :
    line.render.toList = (List.replicate (2 * line.depth) ' ' ++ line.text.toList) ++ ['\n'] := by
  simp [render]

theorem eq_of_indented {line line' : OutlineLine} (clean : line.Clean) (clean' : line'.Clean)
    (same : List.replicate (2 * line.depth) ' ' ++ line.text.toList =
      List.replicate (2 * line'.depth) ' ' ++ line'.text.toList) : line = line' := by
  have spaces {line : OutlineLine} (clean : line.Clean) :
      (List.replicate (2 * line.depth) ' ' ++ line.text.toList).takeWhile (· == ' ') =
        List.replicate (2 * line.depth) ' ' := by
    rw [List.takeWhile_append_of_pos (by simp)]
    cases text : line.text.toList with
    | nil => simp
    | cons c rest =>
        have other : c ≠ ' ' := fun same => clean.2 (by rw [text, same]; rfl)
        simp [other]
  have indents := congrArg (List.takeWhile (· == ' ')) same
  rw [spaces clean, spaces clean'] at indents
  have depths : line.depth = line'.depth := by
    have lengths : 2 * line.depth = 2 * line'.depth := by simpa using congrArg List.length indents
    omega
  rw [depths] at same
  have texts := String.toList_inj.mp (List.append_cancel_left same)
  obtain ⟨depth, text⟩ := line
  obtain ⟨depth', text'⟩ := line'
  exact congr (congrArg mk depths) texts

theorem render_append_inj {line line' : OutlineLine} (clean : line.Clean) (clean' : line'.Clean)
    {rest rest' : List Char} (same : line.render.toList ++ rest = line'.render.toList ++ rest') :
    line = line' ∧ rest = rest' := by
  have absent {line : OutlineLine} (clean : line.Clean) :
      '\n' ∉ List.replicate (2 * line.depth) ' ' ++ line.text.toList := by
    simp [clean.1]
  simp only [toList_render, List.append_assoc (_ ++ _), List.singleton_append] at same
  obtain ⟨indented, rfl⟩ := append_cons_inj (absent clean) (absent clean') same
  exact ⟨eq_of_indented clean clean' indented, rfl⟩

theorem join_render_inj {lines lines' : List OutlineLine} (clean : ∀ line ∈ lines, line.Clean)
    (clean' : ∀ line ∈ lines', line.Clean)
    (same : String.join (lines.map render) = String.join (lines'.map render)) : lines = lines' := by
  have filled (line : OutlineLine) (lines : List OutlineLine) :
      String.join ((line :: lines).map render) ≠ "" := by
    intro empty
    have := congrArg String.toList empty
    simp [toList_render] at this
  induction lines generalizing lines' with
  | nil =>
      cases lines' with
      | nil => rfl
      | cons line' lines' => exact absurd same.symm (filled line' lines')
  | cons line lines inductionHypothesis =>
      cases lines' with
      | nil => exact absurd same (filled line lines)
      | cons line' lines' =>
          rw [List.forall_mem_cons] at clean clean'
          have texts := congrArg String.toList same
          simp only [List.map_cons, String.toList_join, List.flatMap_cons] at texts
          obtain ⟨rfl, rest⟩ := render_append_inj clean.1 clean'.1 texts
          rw [inductionHypothesis clean.2 clean'.2 (String.toList_inj.mp (by simpa using rest))]

end OutlineLine

/-! The lines of an outline are such lines. -/

theorem not_mem_joinWords {words : List Word} (short : oneLine words = true) :
    '\n' ∉ (joinWords words).toList := by
  induction words with
  | nil => simp [joinWords]
  | cons word words inductionHypothesis =>
      obtain ⟨first, others⟩ := Bool.and_eq_true_iff.mp (List.all_cons.symm.trans short)
      have absent : '\n' ∉ word.text.toList := by simpa using first
      have later := inductionHypothesis others
      rw [joinWords, String.toList_intercalate] at later ⊢
      cases words with
      | nil => simpa using absent
      | cons next words =>
          simp only [List.map_cons, List.intercalate_cons_cons, List.mem_append, not_or] at later ⊢
          exact ⟨⟨absent, by decide⟩, later⟩

theorem isNamePart_of_isName {name : String} (named : isName name = true) :
    ∀ c ∈ name.toList, Rule.isNamePart c = true := by
  unfold isName at named
  split at named
  · simp at named
  · next first letters same =>
      obtain ⟨starts, continues⟩ := Bool.and_eq_true_iff.mp named
      rw [same]
      intro c member
      rcases List.mem_cons.mp member with rfl | later
      · exact Reader.isNamePart_of_isNameStart starts
      · exact List.all_eq_true.mp continues c later

theorem not_mem_of_isName {name : String} (named : isName name = true) {c : Char}
    (other : Rule.isNamePart c = false) : c ∉ name.toList := by
  intro member
  rw [isNamePart_of_isName named c member] at other
  contradiction

theorem clean_program {program : Program} (short : oneLine program = true) (depth : Nat) :
    (Program.outline depth program).Clean := by
  refine ⟨?_, by simp [Program.outline]⟩
  rw [Program.outline, String.toList_append, List.mem_append, not_or]
  exact ⟨by decide, not_mem_joinWords short⟩

theorem clean_pipeline {stages : Pipeline} (short : stages.all oneLine = true) (depth : Nat) :
    ∀ line ∈ Pipeline.outline depth stages, line.Clean := by
  have programs (depth : Nat) : ∀ line ∈ stages.map (Program.outline depth), line.Clean := by
    intro line member
    obtain ⟨program, inside, rfl⟩ := List.mem_map.mp member
    exact clean_program (List.all_eq_true.mp short program inside) depth
  unfold Pipeline.outline
  split
  · exact programs depth
  · exact List.forall_mem_cons.mpr ⟨by simp [OutlineLine.Clean], programs (depth + 1)⟩

theorem clean_bodyLine (depth : Nat) : (bodyLine depth).Clean := by
  simp [bodyLine, OutlineLine.Clean]

mutual

theorem clean_command : ∀ {command : Command}, command.legible = true → ∀ depth,
    ∀ line ∈ command.outline depth, line.Clean
  | .pipeline stages, legible, depth => by
      rw [Command.outline]
      exact clean_pipeline legible depth
  | .assignment name value, legible, depth => by
      obtain ⟨named, short⟩ := Bool.and_eq_true_iff.mp legible
      rw [Command.outline, List.forall_mem_singleton]
      refine ⟨?_, by simp⟩
      simp [not_mem_of_isName named (c := '\n') rfl, not_mem_joinWords short]
  | .conditional branches fallback, legible, depth => by
      simp only [Command.legible, Bool.and_eq_true] at legible
      rw [Command.outline, List.forall_mem_append]
      exact ⟨clean_branches legible.1.2 depth (by simp [OutlineLine.Clean]),
        clean_fallback legible.2 depth⟩
  | .loop parallel binder values body, legible, depth => by
      simp only [Command.legible, Bool.and_eq_true] at legible
      obtain ⟨⟨named, short⟩, inside⟩ := legible
      rw [Command.outline, List.forall_mem_cons, List.forall_mem_cons]
      refine ⟨⟨?_, by simp⟩, clean_bodyLine _, clean_statements inside _⟩
      cases parallel <;> simp [not_mem_of_isName named (c := '\n') rfl, not_mem_joinWords short]

theorem clean_branches : ∀ {branches : List Branch}, branchesLegible branches = true →
    ∀ depth {announced}, OutlineLine.Clean ⟨depth, announced⟩ →
      ∀ line ∈ outlineBranches depth announced branches, line.Clean
  | [], _, _, _, _ => by simp [outlineBranches]
  | .mk test body :: branches, legible, depth, announced, clean => by
      simp only [branchesLegible, Bool.and_eq_true] at legible
      obtain ⟨⟨tests, inside⟩, others⟩ := legible
      rw [outlineBranches]
      simp only [List.forall_mem_cons, List.forall_mem_append]
      refine ⟨⟨⟨clean, clean_pipeline tests _⟩, ?_⟩, ?_⟩
      · exact ⟨by simp [OutlineLine.Clean], clean_bodyLine _, clean_statements inside _⟩
      · exact clean_branches others depth (by simp [OutlineLine.Clean])

theorem clean_fallback : ∀ {fallback : Option (List Statement)}, fallbackLegible fallback = true →
    ∀ depth, ∀ line ∈ outlineFallback depth fallback, line.Clean
  | none, _, _ => by simp [outlineFallback]
  | some body, legible, depth => by
      rw [outlineFallback, List.forall_mem_cons, List.forall_mem_cons]
      exact ⟨by simp [OutlineLine.Clean], clean_bodyLine _, clean_statements legible _⟩

theorem clean_statements : ∀ {statements : List Statement}, statementsLegible statements = true →
    ∀ depth, ∀ line ∈ outlineStatements depth statements, line.Clean
  | [], _, _ => by simp [outlineStatements]
  | .mk command _ :: statements, legible, depth => by
      obtain ⟨first, others⟩ := Bool.and_eq_true_iff.mp legible
      rw [outlineStatements, List.forall_mem_append]
      exact ⟨clean_command first depth, clean_statements others depth⟩

end

/-! From the lines to the script. -/

/-- Lines of which the first, if there is one, stands further out than the depth. -/
def Outside (depth : Nat) (lines : List OutlineLine) : Prop :=
  ∀ line ∈ lines.head?, line.depth < depth

/-- Lines of which the first is no part of a command at the depth: it stands further out, or is as
deep and opens no further branch and no fallback. -/
def Behind (depth : Nat) (lines : List OutlineLine) : Prop :=
  ∀ line ∈ lines.head?, line.depth < depth ∨ line.depth = depth ∧ line.text.toList.head? ≠ some 'e'

section

variable {depth : Nat} {line : OutlineLine} {lines : List OutlineLine}

theorem outside_cons : Outside depth (line :: lines) ↔ line.depth < depth := by
  simp [Outside]

theorem Outside.behind (outside : Outside depth lines) : Behind depth lines :=
  fun line first => Or.inl (outside line first)

theorem Outside.deeper (outside : Outside depth lines) : Outside (depth + 1) lines :=
  fun line first => Nat.lt_succ_of_lt (outside line first)

theorem Behind.outside (behind : Behind depth lines) : Outside (depth + 1) lines := by
  intro line first
  rcases behind line first with outer | ⟨level, _⟩
  · exact Nat.lt_succ_of_lt outer
  · exact Nat.lt_succ_of_le (Nat.le_of_eq level)

theorem Behind.letter_ne (behind : Behind depth (line :: lines)) (level : line.depth = depth) :
    line.text.toList.head? ≠ some 'e' := by
  rcases behind line rfl with outer | ⟨_, other⟩
  · exact absurd level (Nat.ne_of_lt outer)
  · exact other

end

/-- The first letter of the lines of a command. It tells the kinds of commands apart. -/
def Command.letter : Command → Char
  | .pipeline _ => 'p'
  | .assignment _ _ => 'v'
  | .conditional _ _ => 'i'
  | .loop _ _ _ _ => 'f'

theorem Pipeline.outline_several {stages : Pipeline} (several : stages.length ≠ 1) (depth : Nat) :
    Pipeline.outline depth stages = ⟨depth, "pipe_stream:"⟩ ::
      stages.map (Program.outline (depth + 1)) := by
  match stages with
  | [] => rfl
  | [program] => exact absurd rfl several
  | first :: second :: others => rfl

theorem Command.exists_outline_eq_cons {command : Command} (legible : command.legible = true)
    (depth : Nat) :
    ∃ line lines, command.outline depth = line :: lines ∧ line.depth = depth ∧
      line.text.toList.head? = some command.letter := by
  cases command with
  | pipeline stages =>
      rw [Command.outline]
      by_cases single : stages.length = 1
      · obtain ⟨program, rfl⟩ := List.length_eq_one_iff.mp single
        exact ⟨_, _, rfl, rfl, by simp [Program.outline, letter]⟩
      · exact ⟨_, _, Pipeline.outline_several single depth, rfl, by simp [letter]⟩
  | assignment name value => exact ⟨_, _, by rw [Command.outline], rfl, by simp [letter]⟩
  | conditional branches fallback =>
      cases branches with
      | nil => simp [Command.legible] at legible
      | cons branch branches =>
          obtain ⟨test, body⟩ := branch
          exact ⟨_, _, by rw [Command.outline, outlineBranches]; rfl, rfl, by simp [letter]⟩
  | loop parallel binder values body => exact ⟨_, _, by rw [Command.outline], rfl, by simp [letter]⟩

theorem Command.letter_eq {command command' : Command} (legible : command.legible = true)
    (legible' : command'.legible = true) {depth : Nat} {rest rest' : List OutlineLine}
    (same : command.outline depth ++ rest = command'.outline depth ++ rest') :
    command.letter = command'.letter := by
  obtain ⟨line, lines, begins, _, letter⟩ := command.exists_outline_eq_cons legible depth
  obtain ⟨line', lines', begins', _, letter'⟩ := command'.exists_outline_eq_cons legible' depth
  rw [begins, begins'] at same
  obtain ⟨rfl, _⟩ := List.cons.inj same
  exact Option.some.inj (letter.symm.trans letter')

theorem statements_ne_command {command : Command} (legible : command.legible = true) {depth : Nat}
    {rest lines : List OutlineLine} (outside : Outside depth rest) :
    rest ≠ command.outline depth ++ lines := by
  rintro rfl
  obtain ⟨line, lines', begins, level, _⟩ := command.exists_outline_eq_cons legible depth
  rw [begins] at outside
  exact absurd level (Nat.ne_of_lt (outside_cons.mp outside))

theorem behind_statements {statements : List Statement}
    (legible : statementsLegible statements = true) {depth : Nat} {rest : List OutlineLine}
    (behind : Behind depth rest) :
    Behind depth (outlineStatements depth statements ++ rest) := by
  cases statements with
  | nil => exact behind
  | cons statement statements =>
      obtain ⟨command, background⟩ := statement
      obtain ⟨first, _⟩ := Bool.and_eq_true_iff.mp legible
      obtain ⟨line, lines, begins, level, letter⟩ := command.exists_outline_eq_cons first depth
      rw [outlineStatements, begins]
      rintro _ ⟨⟩
      refine Or.inr ⟨level, ?_⟩
      rw [letter]
      cases command <;> simp [Command.letter]

theorem shownWords_eq_of_program {depth : Nat} {program program' : Program}
    (same : Program.outline depth program = Program.outline depth program') :
    shownWords program = shownWords program' := by
  have texts := congrArg (fun line => line.text.toList) same
  simp only [Program.outline, String.toList_append] at texts
  rw [shownWords, shownWords, String.toList_inj.mp (List.append_cancel_left texts)]

theorem programs_unique {depth : Nat} {stages stages' : List Program}
    {rest rest' : List OutlineLine} (outside : Outside depth rest) (outside' : Outside depth rest')
    (same : stages.map (Program.outline depth) ++ rest = stages'.map (Program.outline depth) ++
      rest') :
    stages.map shownWords = stages'.map shownWords ∧ rest = rest' := by
  induction stages generalizing stages' with
  | nil =>
      cases stages' with
      | nil => exact ⟨rfl, same⟩
      | cons program' stages' =>
          subst same
          exact absurd (outside_cons.mp outside) (Nat.lt_irrefl depth)
  | cons program stages inductionHypothesis =>
      cases stages' with
      | nil =>
          subst same
          exact absurd (outside_cons.mp outside') (Nat.lt_irrefl depth)
      | cons program' stages' =>
          obtain ⟨line, later⟩ := List.cons.inj same
          obtain ⟨others, rests⟩ := inductionHypothesis later
          exact ⟨List.cons_eq_cons.mpr ⟨shownWords_eq_of_program line, others⟩, rests⟩

theorem pipeline_unique {depth : Nat} {stages stages' : Pipeline} {rest rest' : List OutlineLine}
    (behind : Behind depth rest) (behind' : Behind depth rest')
    (same : Pipeline.outline depth stages ++ rest = Pipeline.outline depth stages' ++ rest') :
    stages.map shownWords = stages'.map shownWords ∧ rest = rest' := by
  -- The line above several programs is not that of a program.
  have apart (program : Program) (lines lines' : List OutlineLine) :
      Program.outline depth program :: lines ≠ ⟨depth, "pipe_stream:"⟩ :: lines' := by
    intro same
    have := congrArg (fun line => line.text.toList) (List.cons.inj same).1
    simp [Program.outline] at this
  by_cases single : stages.length = 1
  · obtain ⟨program, rfl⟩ := List.length_eq_one_iff.mp single
    by_cases single' : stages'.length = 1
    · obtain ⟨program', rfl⟩ := List.length_eq_one_iff.mp single'
      obtain ⟨line, rests⟩ := List.cons.inj same
      exact ⟨congrArg (fun words => [words]) (shownWords_eq_of_program line), rests⟩
    · rw [Pipeline.outline_several single'] at same
      exact absurd same (apart _ _ _)
  · rw [Pipeline.outline_several single] at same
    by_cases single' : stages'.length = 1
    · obtain ⟨program', rfl⟩ := List.length_eq_one_iff.mp single'
      exact absurd same.symm (apart _ _ _)
    · rw [Pipeline.outline_several single'] at same
      exact programs_unique behind.outside behind'.outside (List.cons.inj same).2

/-- A name ends at the first space, so what is assigned to it is known. -/
theorem assignment_line_inj {name name' value value' : String} (named : isName name = true)
    (named' : isName name' = true)
    (same : "var_assign: " ++ name ++ " = " ++ value = "var_assign: " ++ name' ++ " = " ++ value') :
    name = name' ∧ value = value' := by
  have space {name : String} (named : isName name = true) : ' ' ∉ name.toList :=
    not_mem_of_isName named rfl
  have texts := congrArg String.toList same
  simp only [String.toList_append, List.append_assoc] at texts
  obtain ⟨names, rest⟩ :=
    append_cons_inj (space named) (space named') (List.append_cancel_left texts)
  exact ⟨String.toList_inj.mp names, String.toList_inj.mp (List.append_cancel_left rest)⟩

/-- The line of a loop. Its end tells whether the loop is parallel, whatever the values are. -/
theorem loop_line_inj {name name' values values' : String} {parallel parallel' : Bool}
    (named : isName name = true) (named' : isName name' = true)
    (same : "for " ++ name ++ " in " ++ values ++ "; " ++ (if parallel then "parallel " else "") ++
      "do" =
      "for " ++ name' ++ " in " ++ values' ++ "; " ++ (if parallel' then "parallel " else "") ++
        "do") :
    name = name' ∧ values = values' ∧ parallel = parallel' := by
  have space {name : String} (named : isName name = true) : ' ' ∉ name.toList :=
    not_mem_of_isName named rfl
  have texts := congrArg String.toList same
  simp only [String.toList_append, List.append_assoc] at texts
  obtain ⟨names, rest⟩ :=
    append_cons_inj (space named) (space named') (List.append_cancel_left texts)
  have ends := congrArg List.reverse (List.append_cancel_left rest)
  refine ⟨String.toList_inj.mp names, ?_⟩
  cases parallel <;> cases parallel' <;> simp at ends
  · exact ⟨String.toList_inj.mp ends, rfl⟩
  · exact ⟨String.toList_inj.mp ends, rfl⟩

/-- Lines behind the last branch at the depth: the first is no deeper, and it announces no
branch. -/
structure BranchesEnd (depth : Nat) (lines : List OutlineLine) : Prop where
  outside : Outside (depth + 1) lines
  unannounced : ∀ others, lines ≠ ⟨depth, "elif:"⟩ :: others

/-- The branches of a conditional end at its fallback, or at what is behind the conditional. -/
theorem branchesEnd_fallback (fallback : Option (List Statement)) {depth : Nat}
    {rest : List OutlineLine} (behind : Behind depth rest) :
    BranchesEnd depth (outlineFallback depth fallback ++ rest) := by
  cases fallback with
  | none =>
      refine ⟨behind.outside, ?_⟩
      rintro others rfl
      exact behind.letter_ne rfl (by simp)
  | some body =>
      rw [outlineFallback]
      refine ⟨outside_cons.mpr (Nat.lt_succ_self depth), fun others same => ?_⟩
      simpa using congrArg OutlineLine.text (List.cons.inj same).1

/-- Behind a branch no line is deeper than the line that announced it. -/
theorem outside_branches (branches : List Branch) {depth : Nat} {rest : List OutlineLine}
    (ends : BranchesEnd depth rest) :
    Outside (depth + 1) (outlineBranches depth "elif:" branches ++ rest) := by
  cases branches with
  | nil => exact ends.outside
  | cons branch branches =>
      obtain ⟨test, body⟩ := branch
      rw [outlineBranches]
      exact outside_cons.mpr (Nat.lt_succ_self depth)

mutual

theorem command_unique : ∀ {command command' : Command}, command.legible = true →
    command'.legible = true →
    ∀ {depth : Nat} {rest rest' : List OutlineLine}, Behind depth rest → Behind depth rest' →
      command.outline depth ++ rest = command'.outline depth ++ rest' →
      command.shown = command'.shown ∧ rest = rest'
  | .pipeline stages, command', legible, legible', depth, rest, rest', behind, behind', same => by
      have letters := Command.letter_eq legible legible' same
      cases command' with
      | pipeline stages' =>
          rw [Command.outline, Command.outline] at same
          obtain ⟨shown, rests⟩ := pipeline_unique behind behind' same
          rw [Command.shown, Command.shown, shown]
          exact ⟨rfl, rests⟩
      | _ => simp [Command.letter] at letters
  | .assignment name value, command', legible, legible', depth, rest, rest', _, _, same => by
      have letters := Command.letter_eq legible legible' same
      cases command' with
      | assignment name' value' =>
          obtain ⟨named, _⟩ := Bool.and_eq_true_iff.mp legible
          obtain ⟨named', _⟩ := Bool.and_eq_true_iff.mp legible'
          rw [Command.outline, Command.outline] at same
          obtain ⟨line, rests⟩ := List.cons.inj same
          obtain ⟨rfl, values⟩ := assignment_line_inj named named' (congrArg OutlineLine.text line)
          rw [Command.shown, Command.shown, shownWords, shownWords, values]
          exact ⟨rfl, rests⟩
      | _ => simp [Command.letter] at letters
  | .conditional branches fallback, command', legible, legible', depth, rest, rest', behind,
      behind', same => by
      have letters := Command.letter_eq legible legible' same
      cases command' with
      | conditional branches' fallback' =>
          simp only [Command.legible, Bool.and_eq_true] at legible legible'
          obtain ⟨⟨filled, tests⟩, last⟩ := legible
          obtain ⟨⟨filled', tests'⟩, last'⟩ := legible'
          simp only [Command.outline, List.append_assoc] at same
          obtain ⟨shown, later⟩ := branches_unique tests tests'
            (Or.inr ⟨by simpa using filled, by simpa using filled'⟩)
              (branchesEnd_fallback fallback behind)
            (branchesEnd_fallback fallback' behind') same
          obtain ⟨fallbacks, rests⟩ := fallback_unique last last' behind behind' later
          rw [Command.shown, Command.shown, shown, fallbacks]
          exact ⟨rfl, rests⟩
      | _ => simp [Command.letter] at letters
  | .loop parallel binder values body, command', legible, legible', depth, rest, rest', behind,
      behind', same => by
      have letters := Command.letter_eq legible legible' same
      cases command' with
      | loop parallel' binder' values' body' =>
          simp only [Command.legible, Bool.and_eq_true] at legible legible'
          obtain ⟨⟨named, _⟩, inside⟩ := legible
          obtain ⟨⟨named', _⟩, inside'⟩ := legible'
          rw [Command.outline, Command.outline] at same
          obtain ⟨line, later⟩ := List.cons.inj same
          obtain ⟨names, words, rfl⟩ := loop_line_inj named named' (congrArg OutlineLine.text line)
          obtain ⟨bodies, rests⟩ := statements_unique inside inside' behind.outside.deeper
            behind'.outside.deeper (List.cons.inj later).2
          rw [Command.shown, Command.shown, shownWords, shownWords, names, words, bodies]
          exact ⟨rfl, rests⟩
      | _ => simp [Command.letter] at letters

theorem branches_unique : ∀ {branches branches' : List Branch},
    branchesLegible branches = true → branchesLegible branches' = true →
    ∀ {depth : Nat} {announced : String} {rest rest' : List OutlineLine},
      announced = "elif:" ∨ branches ≠ [] ∧ branches' ≠ [] → BranchesEnd depth rest →
      BranchesEnd depth rest' →
      outlineBranches depth announced branches ++ rest =
        outlineBranches depth announced branches' ++ rest' →
      shownBranches branches = shownBranches branches' ∧ rest = rest'
  | [], [], _, _, _, _, _, _, _, _, _, same => ⟨rfl, same⟩
  | [], .mk test' body' :: branches', _, _, _, _, _, _, announces, ends, _, same => by
      obtain rfl := announces.resolve_right fun filled => filled.1 rfl
      rw [outlineBranches, outlineBranches] at same
      exact absurd same (ends.unannounced _)
  | .mk test body :: branches, [], _, _, _, _, _, _, announces, _, ends', same => by
      obtain rfl := announces.resolve_right fun filled => filled.2 rfl
      rw [outlineBranches, outlineBranches] at same
      exact absurd same.symm (ends'.unannounced _)
  | .mk test body :: branches, .mk test' body' :: branches', legible, legible', depth, announced,
      rest, rest', _, ends, ends', same => by
      simp only [branchesLegible, Bool.and_eq_true] at legible legible'
      obtain ⟨⟨_, inside⟩, others⟩ := legible
      obtain ⟨⟨_, inside'⟩, others'⟩ := legible'
      simp only [outlineBranches, List.append_assoc, List.cons_append] at same
      have behind_test (lines : List OutlineLine) :
          Behind (depth + 1) (⟨depth, "then:"⟩ :: lines) :=
        (outside_cons.mpr (Nat.lt_succ_self depth)).behind
      obtain ⟨tests, later⟩ :=
        pipeline_unique (behind_test _) (behind_test _) (List.cons.inj same).2
      obtain ⟨bodies, behind⟩ :=
        statements_unique inside inside' (outside_branches branches ends).deeper
        (outside_branches branches' ends').deeper (List.cons.inj (List.cons.inj later).2).2
      obtain ⟨shown, rests⟩ := branches_unique others others' (Or.inl rfl) ends ends' behind
      rw [shownBranches, shownBranches, tests, bodies, shown]
      exact ⟨rfl, rests⟩

theorem fallback_unique : ∀ {fallback fallback' : Option (List Statement)},
    fallbackLegible fallback = true → fallbackLegible fallback' = true →
    ∀ {depth : Nat} {rest rest' : List OutlineLine}, Behind depth rest → Behind depth rest' →
      outlineFallback depth fallback ++ rest = outlineFallback depth fallback' ++ rest' →
      shownFallback fallback = shownFallback fallback' ∧ rest = rest'
  | none, none, _, _, _, _, _, _, _, same => ⟨rfl, same⟩
  | none, some body', _, _, depth, rest, rest', behind, _, same => by
      rw [outlineFallback, outlineFallback, List.nil_append] at same
      subst same
      exact absurd (by simp) (behind.letter_ne rfl)
  | some body, none, _, _, depth, rest, rest', _, behind', same => by
      rw [outlineFallback, outlineFallback, List.nil_append] at same
      subst same
      exact absurd (by simp) (behind'.letter_ne rfl)
  | some body, some body', inside, inside', depth, rest, rest', behind, behind', same => by
      rw [outlineFallback, outlineFallback] at same
      obtain ⟨bodies, rests⟩ := statements_unique inside inside' behind.outside.deeper
        behind'.outside.deeper (List.cons.inj (List.cons.inj same).2).2
      rw [shownFallback, shownFallback, bodies]
      exact ⟨rfl, rests⟩

theorem statements_unique : ∀ {statements statements' : List Statement},
    statementsLegible statements = true → statementsLegible statements' = true →
    ∀ {depth : Nat} {rest rest' : List OutlineLine}, Outside depth rest → Outside depth rest' →
      outlineStatements depth statements ++ rest = outlineStatements depth statements' ++ rest' →
      shownStatements statements = shownStatements statements' ∧ rest = rest'
  | [], [], _, _, _, _, _, _, _, same => ⟨rfl, same⟩
  | [], .mk command' _ :: statements', _, legible', depth, rest, rest', outside, _, same => by
      obtain ⟨first, _⟩ := Bool.and_eq_true_iff.mp legible'
      rw [outlineStatements, outlineStatements, List.append_assoc] at same
      exact absurd same (statements_ne_command first outside)
  | .mk command _ :: statements, [], legible, _, depth, rest, rest', _, outside', same => by
      obtain ⟨first, _⟩ := Bool.and_eq_true_iff.mp legible
      rw [outlineStatements, outlineStatements, List.append_assoc] at same
      exact absurd same.symm (statements_ne_command first outside')
  | .mk command _ :: statements, .mk command' _ :: statements', legible, legible', depth, rest,
      rest', outside, outside', same => by
      obtain ⟨first, others⟩ := Bool.and_eq_true_iff.mp legible
      obtain ⟨first', others'⟩ := Bool.and_eq_true_iff.mp legible'
      rw [outlineStatements, outlineStatements, List.append_assoc, List.append_assoc] at same
      obtain ⟨commands, later⟩ :=
        command_unique first first' (behind_statements others outside.behind)
        (behind_statements others' outside'.behind) same
      obtain ⟨shown, rests⟩ := statements_unique others others' outside outside' later
      rw [shownStatements, shownStatements, commands, shown]
      exact ⟨rfl, rests⟩

end

/-! An outline shows no more. -/

theorem joinWords_shownWords (words : List Word) :
    joinWords (shownWords words) = joinWords words := by
  simp [joinWords, shownWords, Word.text]

theorem outline_map_shownWords (depth : Nat) (stages : Pipeline) :
    Pipeline.outline depth (stages.map shownWords) = Pipeline.outline depth stages := by
  have program (depth : Nat) (words : Program) :
      Program.outline depth (shownWords words) = Program.outline depth words := by
    rw [Program.outline, Program.outline, joinWords_shownWords]
  by_cases single : stages.length = 1
  · obtain ⟨words, rfl⟩ := List.length_eq_one_iff.mp single
    exact congrArg (fun line => [line]) (program depth words)
  · rw [Pipeline.outline_several single, Pipeline.outline_several (by simpa using single),
      List.map_map]
    simp only [Function.comp_def, program]

mutual

theorem outline_shown :
    ∀ (command : Command) (depth : Nat), command.shown.outline depth = command.outline depth
  | .pipeline stages, depth => by
      rw [Command.shown, Command.outline, Command.outline, outline_map_shownWords]
  | .assignment name value, depth => by
      rw [Command.shown, Command.outline, Command.outline, joinWords_shownWords]
  | .conditional branches fallback, depth => by
      rw [Command.shown, Command.outline, Command.outline, outline_shownBranches,
        outline_shownFallback]
  | .loop parallel binder values body, depth => by
      rw [Command.shown, Command.outline, Command.outline, joinWords_shownWords,
        outline_shownStatements]
      rfl

theorem outline_shownBranches : ∀ (branches : List Branch) (depth : Nat) (announced : String),
    outlineBranches depth announced (shownBranches branches) =
      outlineBranches depth announced branches
  | [], _, _ => rfl
  | .mk test body :: branches, depth, announced => by
      rw [shownBranches, outlineBranches, outlineBranches, outline_map_shownWords,
        outline_shownStatements, outline_shownBranches]

theorem outline_shownFallback : ∀ (fallback : Option (List Statement)) (depth : Nat),
    outlineFallback depth (shownFallback fallback) = outlineFallback depth fallback
  | none, _ => rfl
  | some body, depth => by
      rw [shownFallback, outlineFallback, outlineFallback, outline_shownStatements]

theorem outline_shownStatements : ∀ (statements : List Statement) (depth : Nat),
    outlineStatements depth (shownStatements statements) = outlineStatements depth statements
  | [], _ => rfl
  | .mk command _ :: statements, depth => by
      rw [shownStatements, outlineStatements, outlineStatements, outline_shown,
        outline_shownStatements]

end

namespace Script

variable {script script' : Script}

theorem outlineLines_eq_of_outline_eq (legible : script.legible = true)
    (legible' : script'.legible = true) (same : script.outline = script'.outline) :
    script.outlineLines = script'.outlineLines := by
  have clean {script : Script} (legible : script.legible = true) :
      ∀ line ∈ script.outlineLines, line.Clean :=
    List.forall_mem_cons.mpr ⟨clean_bodyLine 0, clean_statements legible 1⟩
  exact OutlineLine.join_render_inj (clean legible) (clean legible') same

/-- Two scripts whose words stand on one line, whose names are names and whose conditionals have
branches have the same outline exactly if they are the same but for the division of words, for the
words that are variables, and for what runs in the background. -/
theorem outline_eq_iff (legible : script.legible = true) (legible' : script'.legible = true) :
    script.outline = script'.outline ↔ script.shown = script'.shown := by
  constructor
  · intro same
    have lines := outlineLines_eq_of_outline_eq legible legible' same
    have statements := (List.cons.inj lines).2
    rw [← List.append_nil (outlineStatements 1 script),
      ← List.append_nil (outlineStatements 1 script')]
      at statements
    have outside : Outside 1 [] := by simp [Outside]
    exact (statements_unique legible legible' outside outside statements).1
  · intro same
    have lines : script.outlineLines = script'.outlineLines := by
      rw [outlineLines, outlineLines, ← outline_shownStatements script,
        ← outline_shownStatements script']
      exact congrArg (fun shown => bodyLine 0 :: outlineStatements 1 shown) same
    rw [outline, outline, lines]

/-- A conditional of two branches is not shown like one that stands in the fallback of another. -/
theorem outline_branch_ne_fallback :
    let test : Pipeline := [[.literal "test", .reference "x"]]
    let several : Script := [.mk (.conditional [.mk test [], .mk test []] none) false]
    let nested : Script :=
      [.mk (.conditional [.mk test []] (some [.mk (.conditional [.mk test []] none) false])) false]
    several.legible = true ∧ nested.legible = true ∧ several.outline ≠ nested.outline := by
  intro test several nested
  have legible : several.legible = true := by decide
  have legible' : nested.legible = true := by decide
  refine ⟨legible, legible', fun same => ?_⟩
  have shown := (outline_eq_iff legible legible').mp same
  simp [Script.shown, several, nested, shownStatements, Command.shown, shownBranches] at shown

end Script

end CommandShell
