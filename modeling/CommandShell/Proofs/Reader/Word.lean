import CommandShell.Proofs.Reader.Keyword
import CommandShell.Script.OfTree

/-!
Words, read from the text. A word is a run of pieces: quoted texts, variables, and runs of
characters that end no word. Each function gives what it read and the text behind it, which is a
suffix of the text.
-/

namespace CommandShell.Reader

/-- A name at the start of the text. -/
def readName? : List Char → Option (List Char × List Char)
  | [] => none
  | c :: rest =>
    if Rule.isNameStart c then
      some (c :: rest.takeWhile Rule.isNamePart, rest.dropWhile Rule.isNamePart)
    else none

/-- The name of a variable, or the mark of the last status. -/
def readReferred? : List Char → Option (List Char × List Char)
  | '?' :: rest => some (['?'], rest)
  | text => readName? text

/-- What is referred to behind a dollar sign, in braces or not. -/
def readReference? : List Char → Option (List Char × List Char)
  | '\x7b' :: text =>
    match readReferred? text with
    | some (name, '\x7d' :: rest) => some (name, rest)
    | _ => none
  | text => readReferred? text

/-- The text up to a closing quote. -/
def readQuoted? (quote : Char) (text : List Char) : Option (List Char × List Char) :=
  match text.dropWhile (· != quote) with
  | [] => none
  | _ :: rest => some (text.takeWhile (· != quote), rest)

/-- The characters that end a run of plain characters. -/
def isDelimiter (c : Char) : Bool :=
  c == ' ' || c == '\t' || isEnd c || c == '|' || c == '&' || c == '$' || c == '\x27' || c == '\x22'

/-- A run of plain characters. -/
def readPlain? : List Char → Option (List Char × List Char)
  | [] => none
  | c :: rest =>
    if isDelimiter c then none
    else some (c :: rest.takeWhile fun c => !isDelimiter c, rest.dropWhile fun c => !isDelimiter c)

/-- A piece of a word. A dollar sign before anything else is itself. -/
def readPiece? : List Char → Option (Word × List Char)
  | '\x27' :: text => (readQuoted? '\x27' text).map fun found =>
    (.literal (.ofList found.1), found.2)
  | '\x22' :: text => (readQuoted? '\x22' text).map fun found =>
    (.literal (.ofList found.1), found.2)
  | '$' :: text =>
    match readReference? text with
    | some (name, rest) => some (.reference (.ofList name), rest)
    | none => some (.literal "$", text)
  | text => (readPlain? text).map fun found => (.literal (.ofList found.1), found.2)

theorem readReferred?_of_ne {text : List Char} (other : text.head? ≠ some '?') :
    readReferred? text = readName? text := by
  fun_cases readReferred? text with
  | case1 rest => simp at other
  | case2 => rfl

theorem readReference?_of_ne {text : List Char} (other : text.head? ≠ some '\x7b') :
    readReference? text = readReferred? text := by
  fun_cases readReference? text with
  | case1 => simp at other
  | case2 => simp at other
  | case3 => rfl

theorem readPiece?_of_ne {text : List Char} (noSingle : text.head? ≠ some '\x27')
    (noDouble : text.head? ≠ some '\x22') (noDollar : text.head? ≠ some '$') :
    readPiece? text = (readPlain? text).map fun found => (.literal (.ofList found.1), found.2) := by
  fun_cases readPiece? text with
  | case1 => simp at noSingle
  | case2 => simp at noDouble
  | case3 => simp at noDollar
  | case4 => simp at noDollar
  | case5 => rfl

theorem eq_append_of_readName? {text name rest : List Char}
    (found : readName? text = some (name, rest)) : text = name ++ rest := by
  cases text with
  | nil => simp [readName?] at found
  | cons c text =>
      simp only [readName?, Option.ite_none_right_eq_some, Option.some.injEq,
        Prod.mk.injEq] at found
      obtain ⟨_, rfl, rfl⟩ := found
      simp

theorem eq_append_of_readReferred? {text name rest : List Char}
    (found : readReferred? text = some (name, rest)) : text = name ++ rest := by
  unfold readReferred? at found
  split at found
  · obtain ⟨rfl, rfl⟩ := Prod.mk.inj (Option.some.inj found)
    rfl
  · exact eq_append_of_readName? found

theorem suffix_of_readReference? {text name rest : List Char}
    (found : readReference? text = some (name, rest)) : rest <:+ text := by
  unfold readReference? at found
  split at found
  · split at found
    · next text _ name' rest' referred =>
        obtain ⟨rfl, rfl⟩ := Prod.mk.inj (Option.some.inj found)
        rw [eq_append_of_readReferred? referred]
        exact ⟨'\x7b' :: name' ++ ['\x7d'], by simp⟩
    · simp at found
  · rw [eq_append_of_readReferred? found]
    exact List.suffix_append _ _

theorem eq_append_of_readQuoted? {quote : Char} {text inside rest : List Char}
    (found : readQuoted? quote text = some (inside, rest)) : text = inside ++ quote :: rest := by
  unfold readQuoted? at found
  split at found
  · simp at found
  · next c tail dropped =>
      obtain ⟨rfl, rfl⟩ := Prod.mk.inj (Option.some.inj found)
      have closing := List.head?_dropWhile_not (· != quote) text
      obtain rfl : c = quote := by simpa [dropped] using closing
      rw [← dropped]
      exact List.takeWhile_append_dropWhile.symm

theorem not_mem_of_readQuoted? {quote : Char} {text inside rest : List Char}
    (found : readQuoted? quote text = some (inside, rest)) : quote ∉ inside := by
  unfold readQuoted? at found
  split at found
  · simp at found
  · obtain ⟨rfl, rfl⟩ := Prod.mk.inj (Option.some.inj found)
    intro membership
    have passed := List.all_eq_true.mp List.all_takeWhile quote membership
    simp at passed

theorem readQuoted?_append {quote : Char} {inside : List Char} (absent : quote ∉ inside)
    (rest : List Char) : readQuoted? quote (inside ++ quote :: rest) = some (inside, rest) := by
  have all : ∀ c ∈ inside, (c != quote) = true := by
    intro c membership
    simp only [bne_iff_ne, ne_eq]
    rintro rfl
    exact absent membership
  unfold readQuoted?
  rw [List.takeWhile_append_of_pos all, List.dropWhile_append_of_pos all]
  simp

theorem eq_append_of_readPlain? {text inside rest : List Char}
    (found : readPlain? text = some (inside, rest)) : text = inside ++ rest := by
  cases text with
  | nil => simp [readPlain?] at found
  | cons c text =>
      simp only [readPlain?, Option.ite_none_left_eq_some, Option.some.injEq,
        Prod.mk.injEq] at found
      obtain ⟨_, rfl, rfl⟩ := found
      simp

theorem suffix_of_readPiece? {text rest : List Char} {piece : Word}
    (found : readPiece? text = some (piece, rest)) :
    ∃ c tail, text = c :: tail ∧ rest <:+ tail := by
  unfold readPiece? at found
  split at found
  · obtain ⟨⟨inside, behind⟩, quoted, same⟩ := Option.map_eq_some_iff.mp found
    obtain ⟨rfl, rfl⟩ := Prod.mk.inj same
    rw [eq_append_of_readQuoted? quoted]
    exact ⟨_, _, rfl, inside ++ ['\x27'], by simp⟩
  · obtain ⟨⟨inside, behind⟩, quoted, same⟩ := Option.map_eq_some_iff.mp found
    obtain ⟨rfl, rfl⟩ := Prod.mk.inj same
    rw [eq_append_of_readQuoted? quoted]
    exact ⟨_, _, rfl, inside ++ ['\x22'], by simp⟩
  · split at found
    · next name behind referred =>
        obtain ⟨rfl, rfl⟩ := Prod.mk.inj (Option.some.inj found)
        exact ⟨_, _, rfl, suffix_of_readReference? referred⟩
    · obtain ⟨rfl, rfl⟩ := Prod.mk.inj (Option.some.inj found)
      exact ⟨_, _, rfl, List.suffix_refl _⟩
  · obtain ⟨⟨inside, behind⟩, plain, same⟩ := Option.map_eq_some_iff.mp found
    obtain ⟨rfl, rfl⟩ := Prod.mk.inj same
    cases text with
    | nil => simp [readPlain?] at plain
    | cons c text =>
        simp only [readPlain?, Option.ite_none_left_eq_some, Option.some.injEq,
          Prod.mk.injEq] at plain
        obtain ⟨_, _, rfl⟩ := plain
        exact ⟨_, _, rfl, List.dropWhile_suffix _⟩

theorem length_lt_of_readPiece? {text rest : List Char} {piece : Word}
    (found : readPiece? text = some (piece, rest)) : rest.length < text.length := by
  obtain ⟨c, tail, rfl, suffix⟩ := suffix_of_readPiece? found
  exact Nat.lt_succ_of_le suffix.length_le

/-- The pieces at the start of the text. -/
def readPieces (text : List Char) : List Word × List Char :=
  match _ : readPiece? text with
  | none => ([], text)
  | some (piece, rest) => (piece :: (readPieces rest).1, (readPieces rest).2)
termination_by text.length
decreasing_by all_goals exact length_lt_of_readPiece? ‹_›

theorem readPieces_of_none {text : List Char} (found : readPiece? text = none) :
    readPieces text = ([], text) := by
  rw [readPieces]
  split <;> simp_all

theorem readPieces_of_some {text rest : List Char} {piece : Word}
    (found : readPiece? text = some (piece, rest)) :
    readPieces text = (piece :: (readPieces rest).1, (readPieces rest).2) := by
  rw [readPieces]
  split <;> simp_all

theorem readPieces_eq_nil {text : List Char} : (readPieces text).1 = [] ↔
    readPiece? text = none := by
  cases found : readPiece? text with
  | none => simp [readPieces_of_none found]
  | some piece => simp [readPieces_of_some found]

theorem suffix_readPieces (text : List Char) : (readPieces text).2 <:+ text := by
  fun_induction readPieces text with
  | case1 text found => exact List.suffix_refl _
  | case2 text piece rest found inductionHypothesis =>
      obtain ⟨c, tail, rfl, suffix⟩ := suffix_of_readPiece? found
      exact (inductionHypothesis.trans suffix).trans (List.suffix_cons _ _)

theorem readPiece?_readPieces (text : List Char) : readPiece? (readPieces text).2 = none := by
  fun_induction readPieces text with
  | case1 text found => exact found
  | case2 text piece rest found inductionHypothesis => exact inductionHypothesis

theorem length_readPieces_lt {text : List Char} (found : readPiece? text ≠ none) :
    (readPieces text).2.length < text.length := by
  obtain ⟨⟨piece, rest⟩, first⟩ := Option.ne_none_iff_exists'.mp found
  rw [readPieces_of_some first]
  exact Nat.lt_of_le_of_lt (suffix_readPieces rest).length_le (length_lt_of_readPiece? first)

/-- The pieces of all the words at the start of the text, filler between them. -/
def readWords (text : List Char) : List Word × List Char :=
  match _ : readPiece? text with
  | none => ([], text)
  | some _ =>
    let words := readPieces text
    let more := readWords (skipFiller words.2)
    (words.1 ++ more.1, more.2)
termination_by text.length
decreasing_by
  rename_i found
  exact Nat.lt_of_le_of_lt (length_skipFiller_le _) (length_readPieces_lt (by simp [found]))

theorem readWords_of_none {text : List Char} (found : readPiece? text = none) :
    readWords text = ([], text) := by
  rw [readWords]
  split <;> simp_all

theorem readWords_of_some {text : List Char} (found : readPiece? text ≠ none) :
    readWords text = ((readPieces text).1 ++ (readWords (skipFiller (readPieces text).2)).1,
      (readWords (skipFiller (readPieces text).2)).2) := by
  rw [readWords]
  split <;> simp_all

theorem readWords_eq_nil {text : List Char} : (readWords text).1 = [] ↔ readPiece? text = none := by
  by_cases found : readPiece? text = none
  · simp [readWords_of_none found, found]
  · simp [readWords_of_some found, found, readPieces_eq_nil]

theorem suffix_readWords (text : List Char) : (readWords text).2 <:+ text := by
  fun_induction readWords text with
  | case1 text found => exact List.suffix_refl _
  | case2 text piece found words more inductionHypothesis =>
      exact (inductionHypothesis.trans (suffix_skipFiller _)).trans (suffix_readPieces text)

theorem length_readWords_skipFiller_le (text : List Char) :
    (readWords (skipFiller text)).2.length ≤ text.length :=
  ((suffix_readWords _).trans (suffix_skipFiller text)).length_le

theorem skipFiller_readWords {text : List Char} (trimmed : skipFiller text = text) :
    skipFiller (readWords text).2 = (readWords text).2 := by
  fun_induction readWords text with
  | case1 text found => exact trimmed
  | case2 text piece found words more inductionHypothesis =>
      exact inductionHypothesis (skipFiller_skipFiller _)

end CommandShell.Reader
