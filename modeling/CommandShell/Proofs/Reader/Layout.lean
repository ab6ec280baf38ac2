/-!
The layout of a script: the filler between its parts and the ends of its statements, as functions on
the text.
-/

namespace CommandShell.Reader

/-- The characters that end a line. -/
def isBreak (c : Char) : Bool := c == '\n' || c == '\r'

/-- The characters that end a statement. -/
def isEnd (c : Char) : Bool := c == ';' || isBreak c

/-- The text behind a line break. -/
def dropBreak? : List Char → Option (List Char)
  | '\n' :: rest => some rest
  | '\r' :: '\n' :: rest => some rest
  | '\r' :: rest => some rest
  | _ => none

/-- The text behind a space, a tab or a line break that a backslash takes back. -/
def dropBlank? : List Char → Option (List Char)
  | ' ' :: rest => some rest
  | '\t' :: rest => some rest
  | '\\' :: rest => dropBreak? rest
  | _ => none

theorem suffix_of_dropBreak? {text rest : List Char} (dropped : dropBreak? text = some rest) :
    ∃ c tail, text = c :: tail ∧ rest <:+ tail := by
  unfold dropBreak? at dropped
  split at dropped
  · exact ⟨_, _, rfl, [], by simpa using dropped.symm⟩
  · exact ⟨_, _, rfl, ['\n'], by simpa using dropped.symm⟩
  · exact ⟨_, _, rfl, [], by simpa using dropped.symm⟩
  · simp at dropped

theorem suffix_of_dropBlank? {text rest : List Char} (dropped : dropBlank? text = some rest) :
    ∃ c tail, text = c :: tail ∧ rest <:+ tail := by
  unfold dropBlank? at dropped
  split at dropped
  · exact ⟨_, _, rfl, [], by simpa using dropped.symm⟩
  · exact ⟨_, _, rfl, [], by simpa using dropped.symm⟩
  · obtain ⟨c, tail, rfl, suffix⟩ := suffix_of_dropBreak? dropped
    exact ⟨_, _, rfl, suffix.trans (List.suffix_cons c tail)⟩
  · simp at dropped

theorem length_lt_of_dropBlank? {text rest : List Char} (dropped : dropBlank? text = some rest) :
    rest.length < text.length := by
  obtain ⟨c, tail, rfl, suffix⟩ := suffix_of_dropBlank? dropped
  exact Nat.lt_succ_of_le suffix.length_le

/-- The text without the blanks at its start. -/
def skipBlanks (text : List Char) : List Char :=
  match _ : dropBlank? text with
  | some rest => skipBlanks rest
  | none => text
termination_by text.length
decreasing_by exact length_lt_of_dropBlank? ‹_›

/-- The text without what is left of its first line. -/
def dropLine (text : List Char) : List Char := text.dropWhile fun c => !isBreak c

/-- The text without a comment at its start. -/
def dropComment : List Char → List Char
  | '#' :: rest => dropLine rest
  | text => text

/-- The text without the filler at its start. -/
def skipFiller (text : List Char) : List Char := dropComment (skipBlanks text)

theorem skipBlanks_eq (text : List Char) :
    skipBlanks text = match dropBlank? text with | some rest => skipBlanks rest | none => text := by
  rw [skipBlanks]
  split <;> simp_all

theorem skipBlanks_of_none {text : List Char} (dropped : dropBlank? text = none) :
    skipBlanks text = text := by
  rw [skipBlanks_eq, dropped]

theorem dropBlank?_skipBlanks (text : List Char) : dropBlank? (skipBlanks text) = none := by
  fun_induction skipBlanks text with
  | case1 text rest dropped inductionHypothesis => exact inductionHypothesis
  | case2 text dropped => exact dropped

theorem suffix_skipBlanks (text : List Char) : skipBlanks text <:+ text := by
  fun_induction skipBlanks text with
  | case1 text rest dropped inductionHypothesis =>
      obtain ⟨c, tail, rfl, suffix⟩ := suffix_of_dropBlank? dropped
      exact (inductionHypothesis.trans suffix).trans (List.suffix_cons c tail)
  | case2 text dropped => exact List.suffix_refl _

theorem dropLine_eq (text : List Char) :
    dropLine text = [] ∨ ∃ c rest, dropLine text = c :: rest ∧ isBreak c = true := by
  induction text with
  | nil => exact Or.inl rfl
  | cons c text inductionHypothesis =>
      by_cases ends : isBreak c = true
      · exact Or.inr ⟨c, text, by simp [dropLine, ends], ends⟩
      · simpa [dropLine, ends] using inductionHypothesis

theorem suffix_dropLine (text : List Char) : dropLine text <:+ text := List.dropWhile_suffix _

theorem dropBlank?_of_isBreak {c : Char} (ends : isBreak c = true) (rest : List Char) :
    dropBlank? (c :: rest) = none := by
  simp only [isBreak, Bool.or_eq_true, beq_iff_eq] at ends
  rcases ends with rfl | rfl <;> rfl

theorem dropBlank?_dropLine (text : List Char) : dropBlank? (dropLine text) = none := by
  rcases dropLine_eq text with nothing | ⟨c, rest, found, ends⟩
  · rw [nothing]
    rfl
  · rw [found]
    exact dropBlank?_of_isBreak ends rest

theorem dropComment_of_isBreak {c : Char} (ends : isBreak c = true) (rest : List Char) :
    dropComment (c :: rest) = c :: rest := by
  simp only [isBreak, Bool.or_eq_true, beq_iff_eq] at ends
  rcases ends with rfl | rfl <;> rfl

theorem dropComment_dropLine (text : List Char) : dropComment (dropLine text) = dropLine text := by
  rcases dropLine_eq text with nothing | ⟨c, rest, found, ends⟩
  · rw [nothing]
    rfl
  · rw [found]
    exact dropComment_of_isBreak ends rest

theorem dropComment_of_ne {text : List Char} (other : text.head? ≠ some '#') :
    dropComment text = text := by
  fun_cases dropComment text with
  | case1 rest => simp at other
  | case2 => rfl

theorem dropComment_dropComment (text : List Char) :
    dropComment (dropComment text) = dropComment text := by
  by_cases comment : text.head? = some '#'
  · obtain ⟨rest, rfl⟩ := List.head?_eq_some_iff.mp comment
    exact dropComment_dropLine rest
  · rw [dropComment_of_ne comment, dropComment_of_ne comment]

theorem dropBlank?_dropComment {text : List Char} (dropped : dropBlank? text = none) :
    dropBlank? (dropComment text) = none := by
  unfold dropComment
  split
  · exact dropBlank?_dropLine _
  · exact dropped

theorem suffix_skipFiller (text : List Char) : skipFiller text <:+ text := by
  refine List.IsSuffix.trans ?_ (suffix_skipBlanks text)
  unfold skipFiller dropComment
  split
  · next rest found =>
      rw [found]
      exact (suffix_dropLine rest).trans (List.suffix_cons _ _)
  · exact List.suffix_refl _

theorem length_skipFiller_le (text : List Char) : (skipFiller text).length ≤ text.length :=
  (suffix_skipFiller text).length_le

@[simp]
theorem skipFiller_skipFiller (text : List Char) :
    skipFiller (skipFiller text) = skipFiller text := by
  have noBlank := dropBlank?_dropComment (dropBlank?_skipBlanks text)
  unfold skipFiller
  rw [skipBlanks_of_none noBlank, dropComment_dropComment]

@[simp]
theorem skipFiller_nil : skipFiller [] = [] := by
  rw [skipFiller, skipBlanks_of_none rfl]
  rfl

theorem skipFiller_of_isBreak {c : Char} (ends : isBreak c = true) (rest : List Char) :
    skipFiller (c :: rest) = c :: rest := by
  rw [skipFiller, skipBlanks_of_none (dropBlank?_of_isBreak ends rest), dropComment_of_isBreak ends]

theorem skipFiller_of_isEnd {c : Char} (ends : isEnd c = true) (rest : List Char) :
    skipFiller (c :: rest) = c :: rest := by
  simp only [isEnd, Bool.or_eq_true, beq_iff_eq] at ends
  rcases ends with rfl | ends
  · rw [skipFiller, skipBlanks_of_none rfl]
    rfl
  · exact skipFiller_of_isBreak ends rest

/-- Whether a character is neither filler nor the start of it. -/
def isSolid (c : Char) : Bool := !(c == ' ' || c == '\t' || c == '\\' || c == '#')

theorem skipFiller_of_isSolid {c : Char} (solid : isSolid c = true) (rest : List Char) :
    skipFiller (c :: rest) = c :: rest := by
  simp only [isSolid, Bool.not_eq_true', Bool.or_eq_false_iff, beq_eq_false_iff_ne] at solid
  have noBlank : dropBlank? (c :: rest) = none := by
    unfold dropBlank?
    split <;> simp_all
  rw [skipFiller, skipBlanks_of_none noBlank, dropComment_of_ne (by simp [solid])]

theorem skipFiller_space (text : List Char) : skipFiller (' ' :: text) = skipFiller text := by
  rw [skipFiller, skipBlanks_eq]
  rfl

/-- The text without the filler at its start and the accepted characters among it. -/
def skipOver (accepts : Char → Bool) (text : List Char) : List Char :=
  match _ : skipFiller text with
  | [] => []
  | c :: rest => if accepts c then skipOver accepts rest else c :: rest
termination_by text.length
decreasing_by
  rename_i filled _
  have length_le := length_skipFiller_le text
  rw [filled, List.length_cons] at length_le
  omega

section SkipOver

variable {accepts : Char → Bool}

theorem skipOver_eq (text : List Char) :
    skipOver accepts text =
      match skipFiller text with
      | [] => []
      | c :: rest => if accepts c then skipOver accepts rest else c :: rest := by
  rw [skipOver]
  split <;> simp_all

@[simp]
theorem skipOver_skipFiller (text : List Char) :
    skipOver accepts (skipFiller text) = skipOver accepts text := by
  rw [skipOver_eq, skipFiller_skipFiller, ← skipOver_eq]

theorem skipOver_nil : skipOver accepts [] = [] := by
  rw [skipOver_eq, skipFiller_nil]

theorem skipOver_cons {c : Char} {rest : List Char} (trimmed : skipFiller (c :: rest) = c :: rest)
    (accepted : accepts c = true) : skipOver accepts (c :: rest) = skipOver accepts rest := by
  rw [skipOver_eq, trimmed]
  simp [accepted]

theorem skipOver_of_rejected {text : List Char} (trimmed : skipFiller text = text)
    (rejected : ∀ c ∈ text.head?, accepts c = false) : skipOver accepts text = text := by
  rw [skipOver_eq, trimmed]
  cases text with
  | nil => rfl
  | cons c rest => simp [rejected c rfl]

theorem suffix_skipOver (text : List Char) : skipOver accepts text <:+ text := by
  fun_induction skipOver accepts text with
  | case1 text empty => exact List.nil_suffix
  | case2 text c rest filled accepted inductionHypothesis =>
      have suffix := suffix_skipFiller text
      rw [filled] at suffix
      exact (inductionHypothesis.trans (List.suffix_cons c rest)).trans suffix
  | case3 text c rest filled rejected =>
      rw [← filled]
      exact suffix_skipFiller text

theorem head?_skipOver (text : List Char) :
    ∀ c ∈ (skipOver accepts text).head?, accepts c = false := by
  fun_induction skipOver accepts text with
  | case1 => simp
  | case2 text c rest filled accepted inductionHypothesis => exact inductionHypothesis
  | case3 text c rest filled rejected => simpa using rejected

@[simp]
theorem skipFiller_skipOver (text : List Char) :
    skipFiller (skipOver accepts text) = skipOver accepts text := by
  fun_induction skipOver accepts text with
  | case1 => exact skipFiller_nil
  | case2 text c rest filled accepted inductionHypothesis => exact inductionHypothesis
  | case3 text c rest filled rejected => rw [← filled, skipFiller_skipFiller]

@[simp]
theorem skipOver_skipOver (text : List Char) :
    skipOver accepts (skipOver accepts text) = skipOver accepts text :=
  skipOver_of_rejected (skipFiller_skipOver text) (head?_skipOver text)

end SkipOver

end CommandShell.Reader
