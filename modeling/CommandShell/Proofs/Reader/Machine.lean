import CommandShell.Proofs.Reader.Clause

/-!
The reader as a machine. It goes over the text once and never back: at the start of each statement
it looks at the first word, and either opens, divides or closes a compound statement or reads a
simple one. The compound statements it is inside of stand on a stack.
-/

namespace CommandShell.Reader

/-- The compound statement that the next statement stands in. -/
inductive Frame where
  /-- In the body that a test guards, behind complete branches. -/
  | guarded (branches : List Branch) (test : Pipeline)
  | fallback (branches : List Branch)
  | loop (head : Head)

/-- How far the machine has come: the statements so far, and those before each compound statement
that is still open, the innermost first. -/
structure State where
  stack : List (Frame × List Statement)
  current : List Statement

namespace State

def start : State := ⟨[], []⟩

def extend (state : State) (statements : List Statement) : State :=
  { state with current := state.current ++ statements }

@[simp]
theorem extend_nil (state : State) : state.extend [] = state := by
  simp [extend]

@[simp]
theorem extend_extend (state : State) (first second : List Statement) :
    (state.extend first).extend second = state.extend (first ++ second) := by
  simp [extend]

@[simp]
theorem stack_extend (state : State) (statements : List Statement) :
    (state.extend statements).stack = state.stack := rfl

/-- Open a compound statement. -/
def enter (state : State) (frame : Frame) : State := ⟨(frame, state.current) :: state.stack, []⟩

/-- The compound statement that a word closes, and the state around it. -/
def leave? (keyword : Keyword) : State → Option (Command × State)
  | ⟨(.guarded branches test, before) :: stack, current⟩ =>
    if keyword = .fiWord then
      some (.conditional (branches ++ [.mk test current]) none, ⟨stack, before⟩)
    else none
  | ⟨(.fallback branches, before) :: stack, current⟩ =>
    if keyword = .fiWord then some (.conditional branches (some current), ⟨stack, before⟩) else none
  | ⟨(.loop head, before) :: stack, current⟩ =>
    if keyword = .doneWord then
      some (.loop head.parallel (.literal (.ofList head.name)) head.values current, ⟨stack, before⟩)
    else none
  | ⟨[], _⟩ => none

/-- The branches of a conditional, once a word has ended the last of them. -/
def branches? : State → Option (List Branch × State)
  | ⟨(.guarded branches test, before) :: stack, current⟩ =>
    some (branches ++ [.mk test current], ⟨stack, before⟩)
  | _ => none

end State

/-- Finish a statement behind its command. -/
def readRest (state : State) (command : Command) (text : List Char) : Reading State :=
  (readEnd text).bind fun background rest => .found (state.extend [.mk command background]) rest

/-- What follows the word that closes the innermost frame. -/
def readClosing (state : State) (keyword : Keyword) (text behind : List Char) : Reading State :=
  match state.leave? keyword with
  | some (command, outer) => readRest outer command behind
  | none => .stuck text

/-- What follows a reserved word. -/
def readReserved (state : State) (keyword : Keyword) (text : List Char) : Reading State :=
  let behind := skipFiller (behindWord text)
  match keyword, state.branches? with
  | .ifWord, _ => (readTest behind).bind fun test rest =>
      .found (state.enter (.guarded [] test)) rest
  | .forWord, _ => (readHead behind).bind fun head rest => .found (state.enter (.loop head)) rest
  | .elifWord, some (branches, outer) =>
    (readTest behind).bind fun test rest => .found (outer.enter (.guarded branches test)) rest
  | .elseWord, some (branches, outer) =>
      .found (outer.enter (.fallback branches)) (skipOver isEnd behind)
  | keyword, _ => readClosing state keyword text behind

/-- Read the next statement, or the next part of a compound one. -/
def step (state : State) (text : List Char) : Reading State :=
  match Keyword.reservedAt? text with
  | some keyword => readReserved state keyword text
  | none => (readSimple text).bind (readRest state)

/-! Every step ends in the text that was given, and takes something from it. -/

theorem endsIn_readRest (state : State) (command : Command) (text : List Char) :
    (readRest state command text).EndsIn text :=
  (endsIn_readEnd text).bind fun _ rest => List.suffix_refl rest

theorem readReserved_cases (state : State) (keyword : Keyword) (text : List Char) :
    readReserved state keyword text = .stuck text ∨
      (readReserved state keyword text).EndsIn (skipFiller (behindWord text)) := by
  unfold readReserved
  split
  · exact Or.inr ((endsIn_readTest _).bind fun _ rest => List.suffix_refl rest)
  · exact Or.inr ((endsIn_readHead _).bind fun _ rest => List.suffix_refl rest)
  · exact Or.inr ((endsIn_readTest _).bind fun _ rest => List.suffix_refl rest)
  · exact Or.inr (suffix_skipOver _)
  · unfold readClosing
    split
    · exact Or.inr (endsIn_readRest _ _ _)
    · exact Or.inl rfl

theorem endsIn_step (state : State) (text : List Char) : (step state text).EndsIn text := by
  unfold step
  split
  · next keyword _ =>
      rcases readReserved_cases state keyword text with stuck | ends
      · rw [stuck]
        exact List.suffix_refl text
      · exact ends.of_suffix (suffix_skipFiller_behindWord text)
  · exact (endsIn_readSimple text).bind fun command rest => endsIn_readRest state command rest

theorem length_behindWord_lt {text : List Char} {keyword : Keyword}
    (starts : firstWord text = keyword.letters) : (behindWord text).length < text.length := by
  have same := congrArg List.length (firstWord_append_behindWord text)
  have nonempty := List.length_pos_iff.mpr keyword.letters_ne_nil
  rw [starts, List.length_append] at same
  omega

theorem length_lt_of_step {state next : State} {text rest : List Char}
    (stepped : step state text = .found next rest) : rest.length < text.length := by
  unfold step at stepped
  split at stepped
  · next keyword reserved =>
      have starts := (Keyword.reservedAt?_eq_some.mp reserved).2
      rcases readReserved_cases state keyword text with stuck | ends
      · simp [stuck] at stepped
      · rw [stepped] at ends
        exact Nat.lt_of_le_of_lt (ends.trans (suffix_skipFiller _)).length_le
          (length_behindWord_lt starts)
  · obtain ⟨command, rest', simple, finished⟩ := Reading.bind_eq_found.mp stepped
    have ends := endsIn_readRest state command rest'
    rw [finished] at ends
    exact Nat.lt_of_le_of_lt (List.IsSuffix.length_le ends) (length_lt_of_readSimple simple)

/-- Run the machine to the end of the text. -/
def run (state : State) (text : List Char) : Except (List Char) Script :=
  if text = [] ∧ state.stack = [] then .ok state.current
  else
    match _ : step state text with
    | .found next rest => run next rest
    | .stuck rest => .error rest
termination_by text.length
decreasing_by exact length_lt_of_step ‹_›

/-- Read a whole text. -/
def read (text : List Char) : Except (List Char) Script := run .start (skipOver isEnd text)

theorem run_nil {state : State} (outside : state.stack = []) :
    run state [] = .ok state.current := by
  rw [run, if_pos ⟨rfl, outside⟩]

/-- Run on from what a step gave. -/
def resume : Reading State → Except (List Char) Script
  | .found state rest => run state rest
  | .stuck rest => .error rest

theorem run_eq {state : State} {text : List Char} (going : text ≠ [] ∨ state.stack ≠ []) :
    run state text = resume (step state text) := by
  rw [run, if_neg (by rintro ⟨rfl, outside⟩; simp [outside] at going)]
  split <;> simp_all [resume]

theorem suffix_of_run {state : State} {text stop : List Char}
    (fails : run state text = .error stop) :
    stop <:+ text := by
  fun_induction run state text with
  | case1 state text finished => simp at fails
  | case2 state text going next rest stepped inductionHypothesis =>
      have ends := endsIn_step state text
      rw [stepped] at ends
      exact (inductionHypothesis fails).trans ends
  | case3 state text going stop' stepped =>
      obtain rfl := Except.error.inj fails
      have ends := endsIn_step state text
      rwa [stepped] at ends

theorem suffix_of_read {text stop : List Char} (fails : read text = .error stop) : stop <:+ text :=
  (suffix_of_run fails).trans (suffix_skipOver text)

end CommandShell.Reader
