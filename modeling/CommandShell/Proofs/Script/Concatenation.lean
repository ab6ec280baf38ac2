import CommandShell.Proofs.Reader.Adequacy
import CommandShell.Proofs.Reader.Continuation

/-!
Texts one behind the other. A text that is a script and a further text behind a line break make the
statements of both, and an error in the further text stays where it is.
-/

namespace CommandShell

namespace Reader

namespace State

/-- A state with the given statements in front of all that was read. -/
def precedeAt (script : List Statement) : List (Frame × List Statement) → List Statement → State
  | [], current => ⟨[], script ++ current⟩
  | (frame, before) :: stack, current =>
      ((precedeAt script stack before).enter frame).extend current

def precede (script : List Statement) (state : State) : State :=
  precedeAt script state.stack state.current

variable (script : List Statement) (state : State)

theorem precede_extend (statements : List Statement) :
    (state.extend statements).precede script = (state.precede script).extend statements := by
  obtain ⟨stack, current⟩ := state
  cases stack with
  | nil => simp [precede, precedeAt, extend]
  | cons frame stack => simp [precede, precedeAt, extend]

theorem precede_enter (frame : Frame) :
    (state.enter frame).precede script = (state.precede script).enter frame := by
  simp [precede, precedeAt, enter]

theorem stack_precede : (state.precede script).stack = [] ↔ state.stack = [] := by
  obtain ⟨stack, current⟩ := state
  cases stack with
  | nil => simp [precede, precedeAt]
  | cons frame stack => simp [precede, precedeAt, enter]

theorem leave?_precede (keyword : Keyword) :
    (state.precede script).leave? keyword =
      (state.leave? keyword).map fun left => (left.1, left.2.precede script) := by
  obtain ⟨stack, current⟩ := state
  cases stack with
  | nil => rfl
  | cons top stack =>
      obtain ⟨frame, before⟩ := top
      cases frame <;> simp only [precede, precedeAt, enter, extend, leave?] <;> split <;> rfl

theorem branches?_precede :
    (state.precede script).branches? =
      state.branches?.map fun divided => (divided.1, divided.2.precede script) := by
  obtain ⟨stack, current⟩ := state
  cases stack with
  | nil => rfl
  | cons top stack =>
      obtain ⟨frame, before⟩ := top
      cases frame <;> simp [precede, precedeAt, enter, extend, branches?]

end State

/-- What a reading finds, with the given statements in front. -/
def Reading.precede (script : List Statement) (reading : Reading State) : Reading State :=
  reading.bind fun state rest => .found (state.precede script) rest

section Precede

variable (script : List Statement) (state : State)

theorem Reading.precede_bind {α : Type} (reading : Reading α)
    {next next' : α → List Char → Reading State}
    (same : ∀ value rest, next' value rest = (next value rest).precede script) :
    reading.bind next' = (reading.bind next).precede script := by
  cases reading with
  | found value rest => exact same value rest
  | stuck text => rfl

theorem readRest_precede (command : Command) (text : List Char) :
    readRest (state.precede script) command text =
      (readRest state command text).precede script := by
  refine Reading.precede_bind script _ fun background rest => ?_
  rw [← State.precede_extend]
  rfl

theorem readClosing_precede (keyword : Keyword) (text behind : List Char) :
    readClosing (state.precede script) keyword text behind =
      (readClosing state keyword text behind).precede script := by
  unfold readClosing
  rw [State.leave?_precede]
  cases state.leave? keyword with
  | none => rfl
  | some left => exact readRest_precede script left.2 left.1 behind

theorem readReserved_precede (keyword : Keyword) (text : List Char) :
    readReserved (state.precede script) keyword text =
      (readReserved state keyword text).precede script := by
  have closes := readClosing_precede script state
  have divides := State.branches?_precede script state
  unfold readReserved
  generalize skipFiller (behindWord text) = behind
  rw [divides]
  cases keyword with
  | ifWord =>
      exact Reading.precede_bind script _ fun test rest => by rw [← State.precede_enter]; rfl
  | forWord =>
      exact Reading.precede_bind script _ fun head rest => by rw [← State.precede_enter]; rfl
  | elifWord =>
      cases state.branches? with
      | none => exact closes _ text behind
      | some divided =>
          exact Reading.precede_bind script _ fun test rest => by rw [← State.precede_enter]; rfl
  | elseWord =>
      cases state.branches? with
      | none => exact closes _ text behind
      | some divided => simp only [Option.map_some, ← State.precede_enter]; rfl
  | _ => exact closes _ text behind

theorem step_precede (text : List Char) :
    step (state.precede script) text = (step state text).precede script := by
  unfold step
  split
  · exact readReserved_precede script state _ text
  · exact Reading.precede_bind script _ (readRest_precede script state)

/-- Statements in front of all others stay there. -/
theorem run_precede (text : List Char) :
    run (state.precede script) text = (run state text).map (script ++ ·) := by
  fun_induction run state text with
  | case1 state text finished =>
      obtain ⟨rfl, outside⟩ := finished
      rw [run_nil ((State.stack_precede script state).mpr outside), State.precede, outside]
      rfl
  | case2 state text going next rest stepped inductionHypothesis =>
      have going' : text ≠ [] ∨ (state.precede script).stack ≠ [] := by
        rw [ne_eq, ne_eq, State.stack_precede, ← Decidable.not_and_iff_not_or_not]
        exact going
      rw [run_eq going', step_precede, stepped]
      exact inductionHypothesis
  | case3 state text going stop stepped =>
      have going' : text ≠ [] ∨ (state.precede script).stack ≠ [] := by
        rw [ne_eq, ne_eq, State.stack_precede, ← Decidable.not_and_iff_not_or_not]
        exact going
      rw [run_eq going', step_precede, stepped]
      rfl

end Precede

/-- A whole text and a further one behind a line break. -/
theorem read_append {first : List Char} {script : Script} (whole : Sealed first)
    (reads : read first = .ok script) (more : List Char) :
    read (first ++ '\n' :: more) = (read more).map (script ++ ·) := by
  have state : State.precede script .start = ⟨[], script⟩ := by
    simp [State.precede, State.precedeAt, State.start]
  rw [read_append_of_ok (parted_newline more) reads (whole.apart more), ← state, run_precede, read,
    skipOver_cons (skipFiller_of_isBreak rfl more) rfl]

end Reader

namespace Text

/-- Blanks at the end are those at the end of the last line, if there is anything else in it. -/
theorem length_trimEnd_append (first more : List Char) (offset : Nat) :
    (trimEnd (first ++ more)).length ≤ first.length + offset ↔ (trimEnd more).length ≤ offset := by
  simp only [trimEnd, List.reverse_append, List.length_reverse, List.dropWhile_append]
  split
  · next blank =>
      have shorter :=
        (List.dropWhile_suffix isBlank : first.reverse.dropWhile isBlank <:+ _).length_le
      rw [List.length_reverse] at shorter
      rw [List.isEmpty_iff.mp blank, List.length_nil]
      omega
  · rw [List.length_append, List.length_reverse]
    omega

end Text

namespace ParseError

/-- How many bytes stand before the position. -/
def byteOffset (error : ParseError) : Nat := (String.ofList error.before).utf8ByteSize

end ParseError

namespace Script

open Reader

theorem parseChars_eq_error {source : List Char} {cause : Error}
    (fails : parseChars source = .error cause) :
    ∃ stop error, read source = .error stop ∧ cause = .parse error ∧ error.source = source ∧
      error.offset = source.length - stop.length := by
  cases reads : read source with
  | ok script => simp [parseChars_of_read_ok reads] at fails
  | error stop =>
      obtain ⟨error, fails', whole, place⟩ := parseChars_of_read_error reads
      rw [fails'] at fails
      exact ⟨stop, error, rfl, (Except.error.inj fails).symm, whole, place⟩

/-- A text behind a script and a line break is parsed as it is alone. -/
theorem parse_append_line {first : String} {script : Script}
    (parsed : Script.parse first = .ok script) (noBackslash : ¬ ['\\'] <:+ first.toList)
    (noReturn : ¬ ['\\', '\r'] <:+ first.toList) (more : String) :
    (∀ script', Script.parse (first ++ "\n" ++ more) = .ok (script ++ script') ↔
      Script.parse more = .ok script') ∧
    (∀ cause, Script.parse more = .error cause →
      ∃ error error', cause = .parse error ∧
        Script.parse (first ++ "\n" ++ more) = .error (.parse error') ∧
        error'.byteOffset = first.utf8ByteSize + 1 + error.byteOffset ∧
        error'.incomplete = error.incomplete) := by
  have text : (first ++ "\n" ++ more).toList = first.toList ++ '\n' :: more.toList := by simp
  have reads := read_append ⟨noBackslash, noReturn⟩ (parseChars_eq_ok.mp parsed) more.toList
  rw [Script.parse, Script.parse, text]
  constructor
  · intro script'
    rw [parseChars_eq_ok, parseChars_eq_ok, reads]
    cases read more.toList with
    | ok script'' => simp [Except.map]
    | error stop => simp [Except.map]
  · intro cause fails
    obtain ⟨stop, error, stuck, rfl, source, offset⟩ := parseChars_eq_error fails
    rw [stuck] at reads
    obtain ⟨error', fails', source', offset'⟩ := parseChars_of_read_error reads
    have length_le := (suffix_of_read stuck).length_le
    have moved : error'.offset = (first.toList ++ ['\n']).length + error.offset := by
      rw [offset', offset]
      simp only [List.length_append, List.length_cons, List.length_nil]
      omega
    have source'' : error'.source = first.toList ++ ['\n'] ++ error.source := by
      simp [source', source]
    refine ⟨error, error', rfl, fails', ?_, ?_⟩
    · have before : error'.before = first.toList ++ '\n' :: error.before := by
        rw [ParseError.before, moved, source'', List.take_length_add_append]
        simp [ParseError.before]
      have text' : String.ofList (first.toList ++ '\n' :: error.before) =
          first ++ "\n" ++ String.ofList error.before := by
        simp [String.ext_iff]
      rw [ParseError.byteOffset, before, text', String.utf8ByteSize_append,
        String.utf8ByteSize_append]
      rfl
    · rw [Bool.eq_iff_iff, ParseError.incomplete, ParseError.incomplete, decide_eq_true_iff,
        decide_eq_true_iff, source'', moved, Text.length_trimEnd_append]

set_option maxRecDepth 4000

theorem parse_append_line_accent :
    Script.parse ("é" ++ "\n" ++ "x=") =
      .ok [.mk (.pipeline [[.literal "é"]]) false, .mk (.assignment "x" []) false] ∧
    ∃ error, Script.parse ("é" ++ "\n" ++ "if") = .error (.parse error) ∧ error.byteOffset = 5 ∧
      error.incomplete = true := by
  have parsed : Script.parse "é" = .ok [.mk (.pipeline [[.literal "é"]]) false] := by
    with_unfolding_all rfl
  have fails : Script.parse "if" = .error (.parse ⟨['i', 'f'], 2, [.word], []⟩) := by
    with_unfolding_all rfl
  constructor
  · exact ((parse_append_line parsed (by decide) (by decide) "x=").1 _).mpr
      (by with_unfolding_all rfl)
  · obtain ⟨error, error', same, fails', place, rest⟩ :=
      (parse_append_line parsed (by decide) (by decide) "if").2 _ fails
    obtain rfl := Error.parse.inj same
    exact ⟨error', fails', place.trans (by decide), rest.trans (by decide)⟩

end Script

end CommandShell
