import CommandShell.Proofs.Session.Agreement
import CommandShell.Proofs.Shell.LastStatus

/-!
The lines of a session fall into units. A unit is gathered until it is a script or cannot become
one; then it is run or reported, once, and the next one begins. What is gathered when the lines come
to their end is not heard of again: it is neither run nor reported.
-/

namespace CommandShell

theorem joinLines_concat (lines : List String) (line : String) :
    joinLines (lines ++ [line]) = joinLines lines ++ line ++ "\n" := by
  induction lines with
  | nil => simp [joinLines]
  | cons first lines inductionHypothesis =>
      rw [List.cons_append, joinLines, inductionHypothesis, joinLines]
      simp only [String.append_assoc]

namespace Session

/-- Lines that are gathered, since no beginning of them is finished. -/
def Pending (lines : List String) : Prop :=
  ∀ part, part ≠ [] → part <+: lines → read (joinLines part) = .unfinished

/-- Lines that are gathered up to the last of them, and not beyond it. -/
structure IsUnit (lines : List String) : Prop where
  nonempty : lines ≠ []
  pending : Pending lines.dropLast
  settled : read (joinLines lines) ≠ .unfinished

/-- Lines fall into units, and others that are still gathered behind them. -/
structure Divides (lines : List String) (units : List (List String)) (rest : List String) :
    Prop where
  whole : lines = units.flatten ++ rest
  isUnit : ∀ unit ∈ units, IsUnit unit
  pending : Pending rest

theorem pending_nil : Pending [] := by
  intro part nonempty isPrefix
  exact absurd (List.prefix_nil.mp isPrefix) nonempty

theorem Pending.concat {lines : List String} {line : String} (pending : Pending lines)
    (unfinished : read (joinLines (lines ++ [line])) = .unfinished) :
    Pending (lines ++ [line]) := by
  intro part nonempty isPrefix
  rcases List.prefix_concat_iff.mp isPrefix with rfl | shorter
  · exact unfinished
  · exact pending part nonempty shorter

theorem IsUnit.eq_of_prefix {first second : List String} (isUnit : IsUnit first)
    (isUnit' : IsUnit second) (isPrefix : first <+: second) : first = second := by
  rw [← List.dropLast_concat_getLast isUnit'.nonempty] at isPrefix ⊢
  rcases List.prefix_concat_iff.mp isPrefix with same | shorter
  · exact same
  · exact absurd (isUnit'.pending first isUnit.nonempty shorter) isUnit.settled

theorem IsUnit.not_prefix_of_pending {unit lines : List String} (isUnit : IsUnit unit)
    (pending : Pending lines) : ¬ unit <+: lines := by
  intro isPrefix
  exact isUnit.settled (pending unit isUnit.nonempty isPrefix)

theorem Divides.uncons {lines rest unit : List String} {units : List (List String)}
    (divides : Divides lines (unit :: units) rest) :
    ∃ later, lines = unit ++ later ∧ IsUnit unit ∧ Divides later units rest := by
  obtain ⟨whole, isUnit, pending⟩ := divides
  obtain ⟨first, others⟩ := List.forall_mem_cons.mp isUnit
  exact ⟨units.flatten ++ rest, by simpa using whole, first, rfl, others, pending⟩

/-- Lines fall into units in one way only. -/
theorem Divides.unique {lines : List String} {units units' : List (List String)}
    {rest rest' : List String} (divides : Divides lines units rest)
    (divides' : Divides lines units' rest') :
    units = units' ∧ rest = rest' := by
  induction units generalizing lines units' with
  | nil =>
      obtain rfl : lines = rest := divides.whole
      cases units' with
      | nil => exact ⟨rfl, divides'.whole⟩
      | cons unit' units' =>
          obtain ⟨later, rfl, isUnit, _⟩ := divides'.uncons
          exact absurd (List.prefix_append unit' later)
            (isUnit.not_prefix_of_pending divides.pending)
  | cons unit units inductionHypothesis =>
      obtain ⟨later, rfl, isUnit, divided⟩ := divides.uncons
      cases units' with
      | nil =>
          have pending : Pending (unit ++ later) := by
            rw [divides'.whole]
            exact divides'.pending
          exact absurd (List.prefix_append unit later) (isUnit.not_prefix_of_pending pending)
      | cons unit' units' =>
          obtain ⟨later', whole, isUnit', divided'⟩ := divides'.uncons
          have same : unit = unit' := by
            have isPrefix : unit' <+: unit ++ later := ⟨later', whole.symm⟩
            rcases List.prefix_or_prefix_of_prefix (List.prefix_append unit later) isPrefix with
              ahead | behind
            · exact isUnit.eq_of_prefix isUnit' ahead
            · exact (isUnit'.eq_of_prefix isUnit behind).symm
          subst same
          obtain rfl := List.append_cancel_left whole
          obtain ⟨rfl, rfl⟩ := inductionHypothesis divided divided'
          exact ⟨rfl, rfl⟩

/-- Ask for lines that are gathered behind others. -/
def askEach (gathered : String) : List String → Routine Unit
  | [] => pure ()
  | line :: lines => do
    ask gathered
    askEach (gathered ++ line ++ "\n") lines

/-- Ask for the lines of each unit and run its text; then ask for the lines of the rest, and once
more. -/
def serve (dump : Bool) (rest : List String) : List (List String) → Routine Unit
  | [] => do
    askEach "" rest
    ask (joinLines rest)
  | unit :: units => do
    askEach "" unit
    let _ ← runInput dump (joinLines unit)
    serve dump rest units

theorem askEach_concat (gathered : String) (lines : List String) (line : String) :
    askEach gathered (lines ++ [line]) =
      askEach gathered lines >>= fun _ => ask (gathered ++ joinLines lines) := by
  induction lines generalizing gathered with
  | nil =>
      rw [joinLines, String.append_empty]
      rfl
  | cons first lines inductionHypothesis =>
      rw [List.cons_append, askEach, inductionHypothesis, askEach, Routine.bind_assoc, joinLines]
      simp only [String.append_assoc]

theorem parse_of_read_script {gathered : String} {script : Script}
    (reads : read gathered = .script script) :
    Script.parse gathered = .ok script := by
  delta read at reads
  split at reads
  · next parsed =>
      obtain rfl := Reading.script.inj reads
      exact parsed
  · split at reads <;> contradiction
  · contradiction

theorem parse_of_read_unreadable {gathered : String} {error : Error}
    (reads : read gathered = .unreadable error) : Script.parse gathered = .error error := by
  delta read at reads
  split at reads
  · contradiction
  · next failed =>
      split at reads
      · contradiction
      · obtain rfl := Reading.unreadable.inj reads
        exact failed
  · next _ failed =>
      obtain rfl := Reading.unreadable.inj reads
      exact failed

theorem run_settled {gathered line : String} (dump : Bool) (entries : List Entry)
    (settled : read (gathered ++ line ++ "\n") ≠ .unfinished) :
    run dump gathered (.line line :: entries) = (do
      ask gathered
      let _ ← runInput dump (gathered ++ line ++ "\n")
      run dump "" entries) := by
  rw [run_line]
  cases reads : read (gathered ++ line ++ "\n") with
  | unfinished => exact absurd reads settled
  | script script => rw [runInput_of_parse (parse_of_read_script reads)]
  | unreadable error => rw [runInput_of_error (parse_of_read_unreadable reads)]

/-- What is left of a session, once some lines have been gathered. -/
theorem exists_divides (dump : Bool) {held : List String} (pending : Pending held)
    (lines : List String) :
    ∃ units rest, Divides (held ++ lines) units rest ∧
      (askEach "" held >>= fun _ => run dump (joinLines held) (lines.map .line)) =
        serve dump rest units := by
  induction lines generalizing held with
  | nil => exact ⟨[], held, ⟨by simp, by simp, pending⟩, rfl⟩
  | cons line lines inductionHypothesis =>
      by_cases unfinished : read (joinLines (held ++ [line])) = .unfinished
      · obtain ⟨units, rest, divides, same⟩ := inductionHypothesis (pending.concat unfinished)
        refine ⟨units, rest, by simpa using divides, ?_⟩
        rw [← same, askEach_concat, Routine.bind_assoc, List.map_cons, run_line, ← joinLines_concat,
          unfinished, String.empty_append]
      · obtain ⟨units, rest, divides, same⟩ := inductionHypothesis pending_nil
        have isUnit : IsUnit (held ++ [line]) := ⟨by simp, by simpa using pending, unfinished⟩
        refine ⟨(held ++ [line]) :: units, rest, ⟨?_, ?_, divides.pending⟩, ?_⟩
        · simpa using divides.whole
        · exact List.forall_mem_cons.mpr ⟨isUnit, divides.isUnit⟩
        · rw [joinLines_concat] at unfinished
          rw [List.map_cons, run_settled dump _ unfinished, serve, askEach_concat,
            Routine.bind_assoc, ← joinLines_concat, ← same, String.empty_append]
          rfl

theorem ask_runs (gathered : String) (shell : Shell) :
    (ask gathered).Runs shell fun events _ => ∃ reply,
      events =
        [⟨.write .output (if gathered.isEmpty then shell.prompt else continuation), reply⟩] := by
  intro events outcome shell'
  rw [ask, Routine.leads_get_bind]
  exact Routine.Runs.write _ _ events outcome shell'

/-- Any lines that are entered fall into units in one way, and a session runs the text of each unit
once, in order. The text is that of a script, or it is reported and the status says so. Lines that
are still gathered in the end are only asked for. -/
theorem run_units (dump : Bool) (lines : List String) :
    ∃ units rest, Divides lines units rest ∧
      (∀ units' rest', Divides lines units' rest' → units' = units ∧ rest' = rest) ∧
      run dump "" (lines.map .line) = serve dump rest units ∧
      ∀ unit ∈ units,
        (∃ script, Script.parse (joinLines unit) = .ok script ∧
          runInput dump (joinLines unit) = runScript dump script) ∨
        ∃ error, Script.parse (joinLines unit) = .error error ∧
          ∀ shell events outcome shell',
            (runInput dump (joinLines unit)).Leads shell events outcome shell' ↔
            events = [⟨.write .errors (shellName ++ ": " ++ error.message ++ "\n"), .ok ()⟩] ∧
              outcome = .ok Status.unreadable ∧ shell' = shell.setStatus Status.unreadable := by
  obtain ⟨units, rest, divides, same⟩ := exists_divides dump pending_nil lines
  refine ⟨units, rest, divides, fun units' rest' other => other.unique divides, same, ?_⟩
  intro unit _
  cases parsed : Script.parse (joinLines unit) with
  | ok script => exact Or.inl ⟨script, rfl, runInput_of_parse parsed dump⟩
  | error error =>
      refine Or.inr ⟨error, rfl, ?_⟩
      intro shell events outcome shell'
      rw [runInput_of_error parsed]
      exact reportUnreadable_leads_iff

set_option maxRecDepth 4000

/-- A conditional that is not finished when the lines come to their end: two prompts are all that is
written, and the status is left as it was. As a text of its own it is reported. -/
theorem run_unfinished_conditional :
    (¬ ∃ units, Divides ["if true"] units []) ∧
    (∀ dump shell events outcome shell',
      (run dump "" [.line "if true"]).Leads shell events outcome shell' →
        events.map Event.call = [.write .output shell.prompt, .write .output continuation] ∧
          outcome = .ok () ∧ shell' = shell) ∧
    ∀ dump shell events outcome shell',
      (runInput dump "if true\n").Leads shell events outcome shell' →
      outcome = .ok Status.unreadable ∧ shell' = shell.setStatus Status.unreadable := by
  have failed :
      Script.parse "if true\n" = .error (.parse ⟨"if true\n".toList, 8, [.thenWord], []⟩) := by
    with_unfolding_all rfl
  have unfinished : read "if true\n" = .unfinished := by
    delta read
    rw [failed]
    rfl
  have pending : Pending ([] ++ ["if true"]) := pending_nil.concat unfinished
  refine ⟨?_, ?_, ?_⟩
  · rintro ⟨units, divides⟩
    have alone : Divides ["if true"] [] ["if true"] := ⟨rfl, by simp, pending⟩
    exact absurd (divides.unique alone).2 (by simp)
  · intro dump shell events outcome shell' leads
    have asked : (ask "" >>= fun _ => ask "if true\n").Leads shell events outcome shell' := by
      have text : "" ++ "if true" ++ "\n" = "if true\n" := by decide
      rw [run_line, text, unfinished] at leads
      exact leads
    obtain ⟨_, _, _, rfl, ⟨reply, rfl⟩, later⟩ := (ask_runs _ _).leads_bind.mp asked
    obtain ⟨_, ⟨reply', rfl⟩, rfl, rfl⟩ := (ask_runs _ _ _ _ _).mp later
    exact ⟨rfl, rfl, rfl⟩
  · intro dump shell events outcome shell' leads
    rw [runInput_of_error failed] at leads
    exact reportUnreadable_leads leads

end Session

end CommandShell
