import CommandShell.Proofs.Json.Grammar

/-!
Reading a text up to its closing quote. One lemma for each way to write a letter says how the reader
goes on behind it; a text is then read exactly if it is made of such letters.
-/

namespace CommandShell.Json

variable {read rest : List Char} {offset : Nat}

theorem readTextFrom_plain {c : Char} (visible : 0x20 ≤ c.toNat) (quote : c ≠ '\x22')
    (escape : c ≠ '\\') :
    readTextFrom read (c :: rest) offset = readTextFrom (c :: read) rest (offset + c.utf8Size) := by
  rw [readTextFrom]
  · rw [if_neg (Nat.not_lt.mpr visible)]
  all_goals simp_all

theorem readTextFrom_short {mark c : Char} (stands : (mark, c) ∈ shortEscapes) :
    readTextFrom read ('\\' :: mark :: rest) offset =
      readTextFrom (c :: read) rest (offset + 2) := by
  simp only [shortEscapes, List.mem_cons, Prod.mk.injEq, List.not_mem_nil, or_false] at stands
  rcases stands with ⟨rfl, rfl⟩ | ⟨rfl, rfl⟩ | ⟨rfl, rfl⟩ | ⟨rfl, rfl⟩ | ⟨rfl, rfl⟩ | ⟨rfl, rfl⟩ |
    ⟨rfl, rfl⟩ | ⟨rfl, rfl⟩ <;> simp [readTextFrom, escaped?]

theorem readTextFrom_code {a b c d : Char} {n : Nat} (digits : hexValues? a b c d = some n)
    (low : isLowSurrogate n = false) (high : isHighSurrogate n = false) :
    readTextFrom read ('\\' :: 'u' :: a :: b :: c :: d :: rest) offset =
      readTextFrom (Char.ofNat n :: read) rest (offset + 6) := by
  rw [readTextFrom.eq_def]
  split <;> grind

theorem readTextFrom_pair {a b c d e f g h : Char} {first second : Nat}
    (firstDigits : hexValues? a b c d = some first)
    (secondDigits : hexValues? e f g h = some second) (high : isHighSurrogate first = true)
    (low : isLowSurrogate second = true) :
    readTextFrom read ('\\' :: 'u' :: a :: b :: c :: d :: '\\' :: 'u' :: e :: f :: g :: h :: rest)
      offset = readTextFrom (pairedChar first second :: read) rest (offset + 12) := by
  have other : isLowSurrogate first = false := by
    simp only [isHighSurrogate, isLowSurrogate, Bool.and_eq_true, decide_eq_true_eq,
      Bool.and_eq_false_iff, decide_eq_false_iff_not] at high ⊢
    omega
  rw [readTextFrom]
  simp only [firstDigits, secondDigits, other, high, low]
  simp

/-- Behind a letter the reader goes on with the letter read. -/
theorem Letter.readTextFrom {c : Char} {text more : List Char} (letter : Letter c text more)
    (read : List Char) (offset : Nat) :
    ∃ offset', Json.readTextFrom read text offset = Json.readTextFrom (c :: read) more offset' := by
  cases letter with
  | plain visible quote escape => exact ⟨_, readTextFrom_plain visible quote escape⟩
  | short stands => exact ⟨_, readTextFrom_short stands⟩
  | code digits low high => exact ⟨_, readTextFrom_code digits low high⟩
  | pair firstDigits secondDigits high low =>
      exact ⟨_, readTextFrom_pair firstDigits secondDigits high low⟩

theorem Letters.readTextFrom {letters text rest : List Char} (written : Letters letters text rest)
    (read : List Char) (offset : Nat) :
    ∃ offset', Json.readTextFrom read text offset =
      .ok (.ofList (read.reverse ++ letters), ⟨rest, offset'⟩) := by
  induction written generalizing read offset with
  | close => exact ⟨offset + 1, by simp [Json.readTextFrom]⟩
  | letter first others inductionHypothesis =>
      obtain ⟨behind, step⟩ := first.readTextFrom read offset
      obtain ⟨offset', reads⟩ := inductionHypothesis (_ :: read) behind
      refine ⟨offset', step.trans (reads.trans ?_)⟩
      rw [List.reverse_cons, List.append_assoc, List.singleton_append]

theorem mem_shortEscapes {mark c : Char} (stands : escaped? mark = some c) :
    (mark, c) ∈ shortEscapes := by
  unfold escaped? at stands
  split at stands
  all_goals simp_all [shortEscapes, eq_comm]

theorem letters_of_readTextFrom {text : List Char} {value : String} {cursor : Cursor}
    (reads : readTextFrom read text offset = .ok (value, cursor)) :
    ∃ letters, value = .ofList (read.reverse ++ letters) ∧ Letters letters text cursor.rest := by
  have behind {c : Char} {read text more : List Char} (first : Letter c text more)
      (later : ∃ letters, value = .ofList ((c :: read).reverse ++ letters) ∧
        Letters letters more cursor.rest) :
      ∃ letters, value = .ofList (read.reverse ++ letters) ∧ Letters letters text cursor.rest := by
    obtain ⟨letters, rfl, others⟩ := later
    exact ⟨c :: letters, by simp, .letter first others⟩
  fun_induction readTextFrom read text offset with
  | case2 =>
      obtain ⟨rfl, rfl⟩ := Prod.mk.inj (Except.ok.inj reads)
      exact ⟨[], by simp, .close⟩
  | case6 _ _ _ _ _ _ _ _ _ _ _ _ firstDigits _ high _ secondDigits low inductionHypothesis =>
      exact behind (.pair firstDigits secondDigits high low) (inductionHypothesis reads)
  | case8 _ _ _ _ _ _ _ _ _ _ _ _ digits low high inductionHypothesis =>
      exact behind (.code digits (by simpa using low) (by simpa using high))
        (inductionHypothesis reads)
  | case16 _ _ _ _ _ _ _ _ _ digits low high inductionHypothesis =>
      exact behind (.code digits (by simpa using low) (by simpa using high))
        (inductionHypothesis reads)
  | case19 _ _ _ _ _ _ _ _ stands inductionHypothesis =>
      exact behind (.short (mem_shortEscapes stands)) (inductionHypothesis reads)
  | case22 _ c rest _ quote _ _ _ alone escape visible inductionHypothesis =>
      have plain : c ≠ '\\' := by
        intro same
        cases rest with
        | nil => exact alone same rfl
        | cons next rest => exact escape next rest same rfl
      exact behind (.plain (Nat.not_lt.mp visible) quote plain) (inductionHypothesis reads)
  | _ => contradiction

/-- A text is read exactly if it is made of letters, and then the letters are what is read. -/
theorem Letters.readText {value : String} {text rest : List Char}
    (written : Letters value.toList text rest) (offset : Nat) :
    ∃ offset', Json.readText ⟨text, offset⟩ = .ok (value, ⟨rest, offset'⟩) := by
  obtain ⟨offset', reads⟩ := written.readTextFrom [] offset
  exact ⟨offset', by simpa [Json.readText] using reads⟩

theorem letters_of_readText {value : String} {cursor cursor' : Cursor}
    (reads : readText cursor = .ok (value, cursor')) :
    Letters value.toList cursor.rest cursor'.rest := by
  obtain ⟨letters, rfl, written⟩ := letters_of_readTextFrom reads
  simpa using written

end CommandShell.Json
