import CommandShell.Proofs.Reader.Unfinished
import CommandShell.Proofs.Script.Concatenation
import CommandShell.Session

/-!
The course of a session that is given a script line by line. Whatever is gathered is either a
script, and what follows is one too, or it only lacks its end.
-/

namespace CommandShell

/-- A text of lines, each of them with its line break. -/
def joinLines : List String → String
  | [] => ""
  | line :: lines => line ++ "\n" ++ joinLines lines

/-- Characters that keep their meaning at the end of a line: neither quotes, which may go on in the
next one, nor backslashes. -/
def isPlain (c : Char) : Bool := !(c == '\x27' || c == '\x22' || c == '\\')

namespace Reader

variable {text : List Char}

theorem sealed_of_isPlain (plain : ∀ c ∈ text, isPlain c = true) : Sealed text := by
  have absent : '\\' ∉ text := by
    intro membership
    simpa [isPlain] using plain _ membership
  constructor
  · intro suffix
    exact absent (suffix.subset (by simp))
  · intro suffix
    exact absent (suffix.subset (by simp))

theorem atQuote_of_isPlain (plain : ∀ c ∈ text, isPlain c = true) : atQuote text = false := by
  cases text with
  | nil => rfl
  | cons c rest =>
      have own : isPlain c = true := plain c (by simp)
      simp only [isPlain, Bool.not_eq_true', Bool.or_eq_false_iff, beq_eq_false_iff_ne] at own
      simp [atQuote, own]

theorem read_nil : read [] = .ok [] := by
  rw [read, skipOver_nil, run_nil rfl]
  rfl

/-- The lines up to some place in a script are a script of their own, and so are those behind, or
they are not at their end yet. -/
theorem read_lines {first more : List Char} {script : Script}
    (plain : ∀ c ∈ first, isPlain c = true) (reads : read (first ++ '\n' :: more) = .ok script) :
    (∃ script₁ script₂, read (first ++ ['\n']) = .ok script₁ ∧ read more = .ok script₂ ∧
      script = script₁ ++ script₂) ∨
    ∃ stop, stop <:+ ['\n'] ∧ read (first ++ ['\n']) = .error stop := by
  have whole := sealed_of_isPlain plain
  cases alone : read first with
  | ok script₁ =>
      have single := read_append whole alone []
      rw [read_append whole alone] at reads
      rw [read_nil] at single
      cases behind : read more with
      | error stop => simp [behind, Except.map] at reads
      | ok script₂ =>
          rw [behind] at reads
          exact Or.inl
            ⟨script₁, script₂, by simpa [Except.map] using single, rfl, (Except.ok.inj reads).symm⟩
  | error stop =>
      by_cases ended : stop = []
      · rw [ended] at alone
        exact Or.inr (read_waits whole alone)
      · -- Stuck in the middle of the lines, the machine would be stuck in the whole text.
        have plainStop : ∀ c ∈ stop, isPlain c = true :=
          fun c membership => plain c ((suffix_of_read alone).subset membership)
        have solid : Solid stop := by
          refine ⟨ended, ?_⟩
          rintro rfl
          simp [isPlain] at plainStop
        rcases read_append_of_error (parted_newline more) solid alone with fails | ⟨quoted, _⟩
        · simp [fails] at reads
        · simp [atQuote_of_isPlain plainStop] at quoted

end Reader

namespace Session

theorem read_of_ok {gathered : String} {script : Script}
    (reads : Reader.read gathered.toList = .ok script) :
    read gathered = .script script := by
  have parsed : Script.parse gathered = .ok script := Script.parseChars_of_read_ok reads
  delta read
  rw [parsed]

theorem read_of_waits {gathered : String} {first stop : List Char}
    (text : gathered.toList = first ++ ['\n']) (blank : stop <:+ ['\n'])
    (fails : Reader.read gathered.toList = .error stop) : read gathered = .unfinished := by
  obtain ⟨error, fails', source, offset⟩ := Script.parseChars_of_read_error fails
  have failed : Script.parse gathered = .error (.parse error) := fails'
  have incomplete : error.incomplete = true := by
    have length_le : stop.length ≤ 1 := blank.length_le
    have place : error.offset = first.length + (1 - stop.length) := by
      rw [offset, text]
      simp only [List.length_append, List.length_cons, List.length_nil]
      omega
    rw [ParseError.incomplete, decide_eq_true_iff, source, text, place, Text.length_trimEnd_append]
    exact Nat.zero_le _
  delta read
  rw [failed]
  exact if_pos incomplete

/-- The scripts that a session reads from lines, if all of them belong to scripts. -/
inductive Course : String → List String → List Script → Prop where
  | ended : Course "" [] []
  | unfinished {gathered line : String} {lines : List String} {scripts : List Script}
      (reads : read (gathered ++ line ++ "\n") = .unfinished)
      (later : Course (gathered ++ line ++ "\n") lines scripts) :
        Course gathered (line :: lines) scripts
  | script {gathered line : String} {lines : List String} {script : Script} {scripts : List Script}
      (reads : read (gathered ++ line ++ "\n") = .script script) (later : Course "" lines scripts) :
      Course gathered (line :: lines) (script :: scripts)

/-- Lines that make a script are read as scripts that follow each other in it. What was gathered
before them is nothing or not finished. -/
theorem exists_course {gathered : String} {lines : List String} {script : Script}
    (plain : ∀ c ∈ gathered.toList, isPlain c = true)
    (plainLines : ∀ line ∈ lines, ∀ c ∈ line.toList, isPlain c = true)
    (pending : gathered = "" ∨ ∃ stop, Reader.read gathered.toList = .error stop)
    (reads : Reader.read (gathered.toList ++ (joinLines lines).toList) = .ok script) :
    ∃ scripts, Course gathered lines scripts ∧ scripts.flatten = script := by
  induction lines generalizing gathered script with
  | nil =>
      rcases pending with rfl | ⟨stop, fails⟩
      · obtain rfl := Except.ok.inj (Reader.read_nil.symm.trans reads)
        exact ⟨[], .ended, rfl⟩
      · simp [joinLines, fails] at reads
  | cons line lines inductionHypothesis =>
      have plainFirst : ∀ c ∈ gathered.toList ++ line.toList, isPlain c = true := by
        intro c membership
        rcases List.mem_append.mp membership with before | own
        · exact plain c before
        · exact plainLines line (by simp) c own
      have plainLater : ∀ later ∈ lines, ∀ c ∈ later.toList, isPlain c = true :=
        fun later membership => plainLines later (List.mem_cons_of_mem line membership)
      have text : (gathered ++ line ++ "\n").toList = gathered.toList ++ line.toList ++ ['\n'] := by
        simp
      have reads' :
          Reader.read (gathered.toList ++ line.toList ++ '\n' :: (joinLines lines).toList) =
          .ok script := by
        simpa [joinLines] using reads
      rcases Reader.read_lines plainFirst reads' with ⟨script₁, script₂, own, behind, rfl⟩ |
        ⟨stop, blank, fails⟩
      · obtain ⟨scripts, later, whole⟩ :=
          inductionHypothesis (by simp) plainLater (Or.inl rfl) behind
        rw [← text] at own
        exact ⟨script₁ :: scripts, .script (read_of_ok own) later, by simp [whole]⟩
      · rw [← text] at fails
        have plainText : ∀ c ∈ (gathered ++ line ++ "\n").toList, isPlain c = true := by
          rw [text]
          intro c membership
          rcases List.mem_append.mp membership with before | own
          · exact plainFirst c before
          · obtain rfl := List.mem_singleton.mp own
            rfl
        have reads'' : Reader.read ((gathered ++ line ++ "\n").toList ++ (joinLines lines).toList) =
            .ok script := by
          simpa using reads'
        obtain ⟨scripts, later, whole⟩ :=
          inductionHypothesis plainText plainLater (Or.inr ⟨stop, fails⟩) reads''
        exact ⟨scripts, .unfinished (read_of_waits text blank fails) later, whole⟩

end Session

end CommandShell
