import CommandShell.Proofs.Reader.Adequacy

/-!
The scripts that have a text. Their pipelines, programs and conditionals are not empty, what is
named in them is a name, and no literal holds both kinds of quotes. Whatever is parsed is such a
script: every step of the machine keeps to them.
-/

namespace CommandShell

/-- A letter or an underscore, and then letters, digits and underscores. -/
def isName (text : String) : Bool :=
  match text.toList with
  | [] => false
  | c :: rest => Rule.isNameStart c && rest.all Rule.isNamePart

/-- A literal that one kind of quotes can hold, or a name that can be referred to. -/
def Word.wellFormed : Word → Bool
  | .literal text => !(text.toList.contains '\x27' && text.toList.contains '\x22')
  | .reference name => isName name || name == "?"

def Program.wellFormed (program : Program) : Bool := !program.isEmpty && program.all Word.wellFormed

def Pipeline.wellFormed (stages : Pipeline) : Bool :=
  !stages.isEmpty && stages.all Program.wellFormed

/-- The variable of a loop is a literal, and a name. -/
def Word.isBinder : Word → Bool
  | .literal name => isName name
  | .reference _ => false

mutual

def Command.wellFormed : Command → Bool
  | .pipeline stages => Pipeline.wellFormed stages
  | .assignment name value => isName name && value.all Word.wellFormed
  | .conditional branches fallback =>
    !branches.isEmpty && branchesWellFormed branches && fallbackWellFormed fallback
  | .loop _ binder values body =>
    binder.isBinder && values.all Word.wellFormed && statementsWellFormed body

def branchesWellFormed : List Branch → Bool
  | [] => true
  | .mk test body :: branches =>
    Pipeline.wellFormed test && statementsWellFormed body && branchesWellFormed branches

def fallbackWellFormed : Option (List Statement) → Bool
  | none => true
  | some body => statementsWellFormed body

def statementsWellFormed : List Statement → Bool
  | [] => true
  | .mk command _ :: statements => command.wellFormed && statementsWellFormed statements

end

def Script.wellFormed (script : Script) : Bool := statementsWellFormed script

theorem branchesWellFormed_append (first second : List Branch) :
    branchesWellFormed (first ++ second) =
      (branchesWellFormed first && branchesWellFormed second) := by
  induction first with
  | nil => simp [branchesWellFormed]
  | cons branch first inductionHypothesis =>
      obtain ⟨test, body⟩ := branch
      simp [branchesWellFormed, inductionHypothesis, Bool.and_assoc]

theorem statementsWellFormed_append (first second : List Statement) :
    statementsWellFormed (first ++ second) =
      (statementsWellFormed first && statementsWellFormed second) := by
  induction first with
  | nil => simp [statementsWellFormed]
  | cons statement first inductionHypothesis =>
      obtain ⟨command, background⟩ := statement
      simp [statementsWellFormed, inductionHypothesis, Bool.and_assoc]

namespace Reader

theorem isName_of_readName? {text name rest : List Char}
    (found : readName? text = some (name, rest)) :
    isName (.ofList name) = true := by
  cases text with
  | nil => simp [readName?] at found
  | cons c text =>
      simp only [readName?, Option.ite_none_right_eq_some, Option.some.injEq,
        Prod.mk.injEq] at found
      obtain ⟨starts, rfl, rfl⟩ := found
      simp only [isName, String.toList_ofList, starts, Bool.true_and]
      exact List.all_takeWhile

theorem wellFormed_of_readReferred? {text name rest : List Char}
    (found : readReferred? text = some (name, rest)) :
    (Word.reference (.ofList name)).wellFormed = true := by
  unfold readReferred? at found
  split at found
  · obtain ⟨rfl, rfl⟩ := Prod.mk.inj (Option.some.inj found)
    rfl
  · simp [Word.wellFormed, isName_of_readName? found]

theorem wellFormed_of_readReference? {text name rest : List Char}
    (found : readReference? text = some (name, rest)) :
    (Word.reference (.ofList name)).wellFormed = true := by
  unfold readReference? at found
  split at found
  · split at found
    · next referred =>
        obtain ⟨rfl, rfl⟩ := Prod.mk.inj (Option.some.inj found)
        exact wellFormed_of_readReferred? referred
    · simp at found
  · exact wellFormed_of_readReferred? found

theorem not_mem_of_readPlain? {text inside rest : List Char}
    (found : readPlain? text = some (inside, rest)) : '\x27' ∉ inside := by
  cases text with
  | nil => simp [readPlain?] at found
  | cons c text =>
      simp only [readPlain?, Option.ite_none_left_eq_some, Option.some.injEq,
        Prod.mk.injEq] at found
      obtain ⟨plain, rfl, rfl⟩ := found
      intro membership
      rcases List.mem_cons.mp membership with rfl | later
      · exact plain rfl
      · have passed := List.all_eq_true.mp List.all_takeWhile _ later
        simp [isDelimiter] at passed

theorem wellFormed_of_readPiece? {text rest : List Char} {piece : Word}
    (found : readPiece? text = some (piece, rest)) : piece.wellFormed = true := by
  unfold readPiece? at found
  split at found
  · obtain ⟨⟨inside, behind⟩, quoted, same⟩ := Option.map_eq_some_iff.mp found
    obtain ⟨rfl, rfl⟩ := Prod.mk.inj same
    simp [Word.wellFormed, not_mem_of_readQuoted? quoted]
  · obtain ⟨⟨inside, behind⟩, quoted, same⟩ := Option.map_eq_some_iff.mp found
    obtain ⟨rfl, rfl⟩ := Prod.mk.inj same
    simp [Word.wellFormed, not_mem_of_readQuoted? quoted]
  · split at found
    · next referred =>
        obtain ⟨rfl, rfl⟩ := Prod.mk.inj (Option.some.inj found)
        exact wellFormed_of_readReference? referred
    · obtain ⟨rfl, rfl⟩ := Prod.mk.inj (Option.some.inj found)
      rfl
  · obtain ⟨⟨inside, behind⟩, plain, same⟩ := Option.map_eq_some_iff.mp found
    obtain ⟨rfl, rfl⟩ := Prod.mk.inj same
    simp [Word.wellFormed, not_mem_of_readPlain? plain]

theorem wellFormed_readPieces (text : List Char) :
    (readPieces text).1.all Word.wellFormed = true := by
  fun_induction readPieces text with
  | case1 => rfl
  | case2 text piece rest found inductionHypothesis =>
      simp only [List.all_cons, inductionHypothesis, wellFormed_of_readPiece? found, Bool.and_self]

theorem wellFormed_readWords (text : List Char) :
    (readWords text).1.all Word.wellFormed = true := by
  fun_induction readWords text with
  | case1 => rfl
  | case2 text piece found words more inductionHypothesis =>
      rw [List.all_append, wellFormed_readPieces text, inductionHypothesis]
      rfl

theorem wellFormed_of_readPipeline {text rest : List Char} {stages : Pipeline}
    (found : readPipeline text = .found stages rest) : Pipeline.wellFormed stages = true := by
  have program {text : List Char} (starts : startsProgram text = true) :
      Program.wellFormed (readWords text).1 = true := by
    have nonempty := mt readWords_eq_nil.mp (startsProgram_iff.mp starts).2
    simp [Program.wellFormed, nonempty, wellFormed_readWords]
  fun_induction readPipeline text generalizing stages rest with
  | case1 text starts more behind inductionHypothesis =>
      obtain ⟨later, rest', piped, same⟩ := Reading.bind_eq_found.mp found
      obtain ⟨rfl, rfl⟩ := Reading.found.inj same
      have later := inductionHypothesis piped
      simp only [Pipeline.wellFormed, Bool.and_eq_true] at later
      simp [Pipeline.wellFormed, program starts, later.2]
  | case2 text starts noBar =>
      obtain ⟨rfl, rfl⟩ := Reading.found.inj found
      simp [Pipeline.wellFormed, program starts]
  | case3 text idle => simp at found

theorem wellFormed_of_readTest {text rest : List Char} {test : Pipeline}
    (found : readTest text = .found test rest) : Pipeline.wellFormed test = true := by
  obtain ⟨stages, behind, piped, found⟩ := Reading.bind_eq_found.mp found
  obtain ⟨_, _, _, found⟩ := Reading.bind_eq_found.mp found
  obtain ⟨_, _, _, found⟩ := Reading.bind_eq_found.mp found
  obtain ⟨rfl, rfl⟩ := Reading.found.inj found
  exact wellFormed_of_readPipeline piped

def Head.wellFormed (head : Head) : Bool :=
  isName (.ofList head.name) && head.values.all Word.wellFormed

theorem wellFormed_of_readHead {text rest : List Char} {head : Head}
    (found : readHead text = .found head rest) : head.wellFormed = true := by
  unfold readHead at found
  split at found
  · simp at found
  · next name behind named =>
      obtain ⟨_, _, _, found⟩ := Reading.bind_eq_found.mp found
      obtain ⟨_, _, _, found⟩ := Reading.bind_eq_found.mp found
      obtain ⟨_, _, _, found⟩ := Reading.bind_eq_found.mp found
      obtain ⟨_, _, _, found⟩ := Reading.bind_eq_found.mp found
      obtain ⟨rfl, rfl⟩ := Reading.found.inj found
      simp [Head.wellFormed, isName_of_readName? named, wellFormed_readWords]

theorem wellFormed_of_readSimple {text rest : List Char} {command : Command}
    (found : readSimple text = .found command rest) : command.wellFormed = true := by
  unfold readSimple at found
  split at found
  · next name value assigned =>
      obtain ⟨rfl, rfl⟩ := Reading.found.inj found
      have named := readAssigned?_eq_some.mp assigned
      simp [Command.wellFormed, isName_of_readName? named, wellFormed_readPieces]
  · obtain ⟨stages, behind, piped, same⟩ := Reading.bind_eq_found.mp found
    obtain ⟨rfl, rfl⟩ := Reading.found.inj same
    simp [Command.wellFormed, wellFormed_of_readPipeline piped]

def Frame.wellFormed : Frame → Bool
  | .guarded branches test => branchesWellFormed branches && Pipeline.wellFormed test
  | .fallback branches => !branches.isEmpty && branchesWellFormed branches
  | .loop head => head.wellFormed

/-- Whether all that was read so far is well formed. -/
def State.wellFormed (state : State) : Bool :=
  statementsWellFormed state.current &&
    state.stack.all fun entry => entry.1.wellFormed && statementsWellFormed entry.2

namespace State

variable {state outer : State}

theorem wellFormed_extend {statements : List Statement} (formed : state.wellFormed = true)
    (more : statementsWellFormed statements = true) :
    (state.extend statements).wellFormed = true := by
  simp only [wellFormed, Bool.and_eq_true] at formed
  simp [wellFormed, extend, statementsWellFormed_append, formed.1, formed.2, more]

theorem wellFormed_enter {frame : Frame} (formed : state.wellFormed = true)
    (framed : frame.wellFormed = true) : (state.enter frame).wellFormed = true := by
  simp only [wellFormed, Bool.and_eq_true] at formed
  simp [wellFormed, enter, statementsWellFormed, formed.1, formed.2, framed]

theorem wellFormed_cons {frame : Frame} {before current : List Statement}
    {stack : List (Frame × List Statement)} :
    wellFormed ⟨(frame, before) :: stack, current⟩ = true ↔
      statementsWellFormed current = true ∧ frame.wellFormed = true ∧
        wellFormed ⟨stack, before⟩ = true := by
  simp only [wellFormed, List.all_cons, Bool.and_eq_true, and_assoc]

theorem wellFormed_of_branches? {branches : List Branch} (formed : state.wellFormed = true)
    (found : state.branches? = some (branches, outer)) :
    (!branches.isEmpty && branchesWellFormed branches) = true ∧ outer.wellFormed = true := by
  unfold branches? at found
  split at found
  · next branches' test before stack current =>
      obtain ⟨rfl, rfl⟩ := Prod.mk.inj (Option.some.inj found)
      simp only [wellFormed_cons, Frame.wellFormed, Bool.and_eq_true] at formed
      simp [branchesWellFormed_append, branchesWellFormed, formed]
  · simp at found

theorem wellFormed_of_leave? {keyword : Keyword} {command : Command}
    (formed : state.wellFormed = true) (found : state.leave? keyword = some (command, outer)) :
    command.wellFormed = true ∧ outer.wellFormed = true := by
  unfold leave? at found
  split at found
  all_goals simp only [Option.ite_none_right_eq_some, Option.some.injEq, Prod.mk.injEq,
    reduceCtorEq] at found
  all_goals
    obtain ⟨_, rfl, rfl⟩ := found
    simp only [wellFormed_cons, Frame.wellFormed, Head.wellFormed, Bool.and_eq_true] at formed
  · simp [Command.wellFormed, branchesWellFormed_append, branchesWellFormed, fallbackWellFormed,
      formed]
  · simp only [Command.wellFormed, fallbackWellFormed, formed, Bool.and_self, and_self]
  · simp [Command.wellFormed, Word.isBinder, formed]

end State

theorem wellFormed_of_readRest {state next : State} {command : Command} {text rest : List Char}
    (formed : state.wellFormed = true) (formedCommand : command.wellFormed = true)
    (found : readRest state command text = .found next rest) : next.wellFormed = true := by
  obtain ⟨background, behind, _, same⟩ := Reading.bind_eq_found.mp found
  obtain ⟨rfl, rfl⟩ := Reading.found.inj same
  exact State.wellFormed_extend formed (by simp [statementsWellFormed, formedCommand])

theorem wellFormed_of_readReserved {state next : State} {keyword : Keyword} {text rest : List Char}
    (formed : state.wellFormed = true)
    (found : readReserved state keyword text = .found next rest) :
    next.wellFormed = true := by
  unfold readReserved at found
  split at found
  · obtain ⟨test, behind, tested, same⟩ := Reading.bind_eq_found.mp found
    obtain ⟨rfl, rfl⟩ := Reading.found.inj same
    exact State.wellFormed_enter formed
      (by simp [Frame.wellFormed, branchesWellFormed, wellFormed_of_readTest tested])
  · obtain ⟨head, behind, headed, same⟩ := Reading.bind_eq_found.mp found
    obtain ⟨rfl, rfl⟩ := Reading.found.inj same
    exact State.wellFormed_enter formed (wellFormed_of_readHead headed)
  · next divided =>
      obtain ⟨test, behind, tested, same⟩ := Reading.bind_eq_found.mp found
      obtain ⟨rfl, rfl⟩ := Reading.found.inj same
      obtain ⟨branched, formedOuter⟩ := State.wellFormed_of_branches? formed divided
      simp only [Bool.and_eq_true] at branched
      exact State.wellFormed_enter formedOuter
        (by simp [Frame.wellFormed, branched.2, wellFormed_of_readTest tested])
  · next divided =>
      obtain ⟨rfl, rfl⟩ := Reading.found.inj found
      obtain ⟨branched, formedOuter⟩ := State.wellFormed_of_branches? formed divided
      exact State.wellFormed_enter formedOuter branched
  · unfold readClosing at found
    split at found
    · next left =>
        obtain ⟨formedCommand, formedOuter⟩ := State.wellFormed_of_leave? formed left
        exact wellFormed_of_readRest formedOuter formedCommand found
    · simp at found

theorem wellFormed_of_step {state next : State} {text rest : List Char}
    (formed : state.wellFormed = true) (stepped : step state text = .found next rest) :
    next.wellFormed = true := by
  unfold step at stepped
  split at stepped
  · exact wellFormed_of_readReserved formed stepped
  · obtain ⟨command, behind, simple, finished⟩ := Reading.bind_eq_found.mp stepped
    exact wellFormed_of_readRest formed (wellFormed_of_readSimple simple) finished

theorem wellFormed_of_run {state : State} {text : List Char} {script : Script}
    (formed : state.wellFormed = true) (ran : run state text = .ok script) :
    script.wellFormed = true := by
  fun_induction run state text with
  | case1 state text finished =>
      obtain rfl := Except.ok.inj ran
      simp only [State.wellFormed, Bool.and_eq_true] at formed
      exact formed.1
  | case2 state text going next rest stepped inductionHypothesis =>
      exact inductionHypothesis (wellFormed_of_step formed stepped) ran
  | case3 state text going rest stepped => simp at ran

end Reader

/-- Whatever is parsed is well formed. -/
theorem Script.wellFormed_of_parseChars {source : List Char} {script : Script}
    (parsed : parseChars source = .ok script) : script.wellFormed = true :=
  Reader.wellFormed_of_run rfl (parseChars_eq_ok.mp parsed)

end CommandShell
