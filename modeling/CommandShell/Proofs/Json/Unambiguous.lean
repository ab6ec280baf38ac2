import CommandShell.Proofs.Json.Scalar

/-!
The grammar is unambiguous: a text begins with at most one value, and a document is one of at most
one value.
-/

namespace CommandShell.Json

/-! Numbers. -/

theorem append_unique (inside : Char → Bool) {front front' behind behind' : List Char}
    (all : ∀ c ∈ front, inside c = true) (all' : ∀ c ∈ front', inside c = true)
    (stops : ∀ c ∈ behind.head?, inside c = false) (stops' : ∀ c ∈ behind'.head?, inside c = false)
    (same : front ++ behind = front' ++ behind') : front = front' ∧ behind = behind' := by
  have fronts : front = front' := by
    rw [← takeWhile_append_of_stops all stops, same, takeWhile_append_of_stops all' stops']
  subst fronts
  exact ⟨rfl, List.append_cancel_left same⟩

theorem digits_unique {digits digits' rest rest' : List Char} (isDigits : Digits digits)
    (isDigits' : Digits digits') (stops : ∀ c ∈ rest.head?, c.isDigit = false)
    (stops' : ∀ c ∈ rest'.head?, c.isDigit = false) (same : digits ++ rest = digits' ++ rest') :
    digits = digits' ∧ rest = rest' :=
  append_unique Char.isDigit isDigits.2 isDigits'.2 stops stops' same

theorem Digits.head_isDigit {digits : List Char} (isDigits : Digits digits) (rest : List Char) :
    ∀ c ∈ (digits ++ rest).head?, (!c.isDigit) = false := by
  obtain ⟨filled, all⟩ := isDigits
  obtain ⟨c, others, rfl⟩ := List.exists_cons_of_ne_nil filled
  rintro _ ⟨⟩
  rw [all c List.mem_cons_self]
  rfl

theorem sign_unique {sign sign' digits digits' rest rest' : List Char}
    (marks : ∀ c ∈ sign, (!c.isDigit) = true) (marks' : ∀ c ∈ sign', (!c.isDigit) = true)
    (isDigits : Digits digits) (isDigits' : Digits digits')
    (same : sign ++ (digits ++ rest) = sign' ++ (digits' ++ rest')) :
    sign = sign' ∧ digits ++ rest = digits' ++ rest' :=
  append_unique (fun c => !c.isDigit) marks marks' (isDigits.head_isDigit rest)
    (isDigits'.head_isDigit rest')
    same

theorem exponent_unique {exponent exponent' rest rest' : List Char} (isExponent : Exponent exponent)
    (isExponent' : Exponent exponent') (complete : Complete rest) (complete' : Complete rest')
    (same : exponent ++ rest = exponent' ++ rest') : exponent = exponent' ∧ rest = rest' := by
  have marks {sign : List Char} (known : sign ∈ [[], ['+'], ['-']]) :
      ∀ c ∈ sign, (!c.isDigit) = true := by
    simp only [List.mem_cons, List.not_mem_nil, or_false] at known
    rcases known with rfl | rfl | rfl <;> simp
  have starts {letter : Char} {others rest : List Char} (known : letter ∈ ['e', 'E'])
      (complete : Complete rest) :
      rest ≠ letter :: others := by
    rintro rfl
    have stops := complete letter rfl
    simp only [List.mem_cons, List.not_mem_nil, or_false] at known
    rcases known with rfl | rfl <;> simp [prolongs] at stops
  rcases isExponent with rfl | ⟨letter, sign, digits, rfl, known, signed, isDigits⟩ <;>
    rcases isExponent' with rfl | ⟨letter', sign', digits', rfl, known', signed', isDigits'⟩
  · exact ⟨rfl, same⟩
  · exact absurd same (starts known' complete)
  · exact absurd same.symm (starts known complete')
  · simp only [List.cons_append, List.append_assoc, List.cons.injEq] at same
    obtain ⟨rfl, behindLetter⟩ := same
    obtain ⟨rfl, behindSign⟩ :=
      sign_unique (marks signed) (marks signed') isDigits isDigits' behindLetter
    obtain ⟨rfl, rests⟩ := digits_unique isDigits isDigits' complete.head_not_isDigit
      complete'.head_not_isDigit behindSign
    exact ⟨rfl, rests⟩

theorem Exponent.stops {exponent rest : List Char} (isExponent : Exponent exponent)
    (complete : Complete rest) :
    ∀ c ∈ (exponent ++ rest).head?, c.isDigit = false ∧ c ≠ '.' := by
  rcases isExponent with rfl | ⟨letter, sign, digits, rfl, known, _⟩
  · intro c first
    have stops := complete c first
    simp only [prolongs, Bool.or_eq_false_iff, beq_eq_false_iff_ne] at stops
    exact ⟨stops.1.1.1, stops.1.1.2⟩
  · rintro _ ⟨⟩
    simp only [List.mem_cons, List.not_mem_nil, or_false] at known
    rcases known with rfl | rfl <;> decide

theorem fraction_unique {fraction fraction' rest rest' : List Char} (isFraction : Fraction fraction)
    (isFraction' : Fraction fraction') (stops : ∀ c ∈ rest.head?, c.isDigit = false ∧ c ≠ '.')
    (stops' : ∀ c ∈ rest'.head?, c.isDigit = false ∧ c ≠ '.')
    (same : fraction ++ rest = fraction' ++ rest') :
    fraction = fraction' ∧ rest = rest' := by
  have starts {others rest : List Char} (stops : ∀ c ∈ rest.head?, c.isDigit = false ∧ c ≠ '.') :
      rest ≠ '.' :: others := by
    rintro rfl
    exact (stops '.' rfl).2 rfl
  rcases isFraction with rfl | ⟨digits, rfl, isDigits⟩ <;> rcases isFraction' with
      rfl | ⟨digits', rfl, isDigits'⟩
  · exact ⟨rfl, same⟩
  · exact absurd same (starts stops)
  · exact absurd same.symm (starts stops')
  · simp only [List.cons_append, List.cons.injEq, true_and] at same
    obtain ⟨rfl, rests⟩ := digits_unique isDigits isDigits' (fun c first => (stops c first).1)
      (fun c first => (stops' c first).1) same
    exact ⟨rfl, rests⟩

theorem Fraction.stops {fraction rest : List Char} (isFraction : Fraction fraction)
    (stops : ∀ c ∈ rest.head?, c.isDigit = false ∧ c ≠ '.') :
    ∀ c ∈ (fraction ++ rest).head?, c.isDigit = false := by
  rcases isFraction with rfl | ⟨digits, rfl, _⟩
  · exact fun c first => (stops c first).1
  · rintro _ ⟨⟩
    decide

theorem number_unique {literal literal' rest rest' : List Char} (number : Number literal)
    (number' : Number literal') (complete : Complete rest) (complete' : Complete rest')
    (same : literal ++ rest = literal' ++ rest') : literal = literal' ∧ rest = rest' := by
  have marks {sign : List Char} (known : sign ∈ [[], ['-']]) : ∀ c ∈ sign, (!c.isDigit) = true := by
    simp only [List.mem_cons, List.not_mem_nil, or_false] at known
    rcases known with rfl | rfl <;> simp
  obtain ⟨signed, isWhole, isFraction, isExponent⟩ := number
  obtain ⟨signed', isWhole', isFraction', isExponent'⟩ := number'
  simp only [List.append_assoc] at same
  have stops := isExponent.stops complete
  have stops' := isExponent'.stops complete'
  obtain ⟨rfl, behindSign⟩ := sign_unique (marks signed) (marks signed') isWhole.1 isWhole'.1 same
  obtain ⟨rfl, behindWhole⟩ := digits_unique isWhole.1 isWhole'.1 (isFraction.stops stops)
    (isFraction'.stops stops') behindSign
  obtain ⟨rfl, behindFraction⟩ := fraction_unique isFraction isFraction' stops stops' behindWhole
  obtain ⟨rfl, rests⟩ := exponent_unique isExponent isExponent' complete complete' behindFraction
  exact ⟨rfl, rests⟩

/-! White space and texts. -/

theorem blank_unique {text rest rest' : List Char} {c c' : Char} (blank : Blank text (c :: rest))
    (blank' : Blank text (c' :: rest')) (solid : Cursor.isSpace c = false)
    (solid' : Cursor.isSpace c' = false) :
    c' :: rest' = c :: rest := by
  obtain ⟨offset, skips⟩ := blank.skipSpace solid 0
  obtain ⟨offset', skips'⟩ := blank'.skipSpace solid' 0
  exact (Cursor.mk.inj (skips'.symm.trans skips)).1

theorem letters_unique {value value' : String} {text rest rest' : List Char}
    (letters : Letters value.toList text rest) (letters' : Letters value'.toList text rest') :
    value' = value ∧ rest' = rest := by
  obtain ⟨offset, reads⟩ := letters.readText 0
  obtain ⟨offset', reads'⟩ := letters'.readText 0
  obtain ⟨values, cursors⟩ := Prod.mk.inj (Except.ok.inj (reads'.symm.trans reads))
  exact ⟨values, (Cursor.mk.inj cursors).1⟩

/-! Values. -/

/-- Whether a value of this kind can begin with a character. -/
def Value.opening : Value → Char → Bool
  | .null, c => c == 'n'
  | .bool _, c => c == 't' || c == 'f'
  | .number _, c => c == '-' || c.isDigit
  | .string _, c => c == '\x22'
  | .array _, c => c == '['
  | .object _, c => c == '\x7b'

theorem Written.opening {value : Value} {c : Char} {text rest : List Char}
    (written : Written value (c :: text) rest) : value.opening c = true := by
  generalize begins : c :: text = text' at written
  cases written with
  | number isNumber =>
      obtain ⟨first, others, rfl, starts⟩ := isNumber.exists_eq_cons
      obtain ⟨rfl, -⟩ := List.cons.inj begins
      simpa [Value.opening] using starts
  | _ =>
      obtain ⟨rfl, -⟩ := List.cons.inj begins
      rfl

theorem Value.eq_number_of_opening {value : Value} {c : Char} (starts : c = '-' ∨ c.isDigit = true)
    (opening : value.opening c = true) : ∃ literal, value = .number literal := by
  cases value with
  | number literal => exact ⟨literal, rfl⟩
  | _ =>
      simp only [Value.opening, Bool.or_eq_true, beq_iff_eq] at opening
      rcases opening with rfl | rfl <;> simp at starts

theorem Written.not_blank_close {value : Value} {text begin rest rest' : List Char}
    (blank : Blank text begin) (written : Written value begin rest) :
    ¬Blank text (']' :: rest') := by
  intro close
  obtain ⟨c, others, rfl, solid, differ⟩ := written.exists_eq_cons
  obtain ⟨rfl, -⟩ := List.cons.inj (blank_unique close blank rfl solid)
  exact differ rfl

theorem Written.blank_unique {value value' : Value} {text begin begin' rest rest' : List Char}
    (blank : Blank text begin) (blank' : Blank text begin') (written : Written value begin rest)
    (written' : Written value' begin' rest') : begin' = begin := by
  obtain ⟨c, others, rfl, solid, _⟩ := written.exists_eq_cons
  obtain ⟨c', others', rfl, solid', _⟩ := written'.exists_eq_cons
  exact Json.blank_unique blank blank' solid solid'

theorem WrittenMember.blank_unique {name name' : String} {value value' : Value}
    {text begin begin' rest rest' : List Char} (blank : Blank text begin)
    (blank' : Blank text begin') (written : WrittenMember name value begin rest)
    (written' : WrittenMember name' value' begin' rest') :
    begin' = begin := by
  cases written
  cases written'
  exact Json.blank_unique blank blank' rfl rfl

mutual

theorem Written.unique {value : Value} {text rest : List Char} (written : Written value text rest) :
    ∀ {value' : Value} {rest' : List Char}, Written value' text rest' →
      value' = value ∧ rest' = rest := by
  match written with
  | .nullWord =>
      intro value' rest' written'
      have opening := written'.opening
      cases value' with
      | null =>
          cases written'
          exact ⟨rfl, rfl⟩
      | _ => contradiction
  | .trueWord =>
      intro value' rest' written'
      have opening := written'.opening
      cases value' with
      | bool flag =>
          cases written'
          exact ⟨rfl, rfl⟩
      | _ => contradiction
  | .falseWord =>
      intro value' rest' written'
      have opening := written'.opening
      cases value' with
      | bool flag =>
          cases written'
          exact ⟨rfl, rfl⟩
      | _ => contradiction
  | .number isNumber complete =>
      intro value' rest' written'
      obtain ⟨c, others, begins, starts⟩ := isNumber.exists_eq_cons
      generalize same : _ ++ rest = text' at written'
      rw [begins, List.cons_append] at same
      obtain ⟨literal', rfl⟩ := Value.eq_number_of_opening starts (same ▸ written').opening
      cases written' with
      | number isNumber' complete' =>
          rw [← List.cons_append, ← begins] at same
          obtain ⟨rfl, rfl⟩ := number_unique isNumber isNumber' complete complete' same
          exact ⟨rfl, rfl⟩
  | .string letters =>
      intro value' rest' written'
      have opening := written'.opening
      cases value' with
      | string text' =>
          cases written' with
          | string letters' =>
              obtain ⟨rfl, rfl⟩ := letters_unique letters letters'
              exact ⟨rfl, rfl⟩
      | _ => contradiction
  | .emptyArray blank =>
      intro value' rest' written'
      have opening := written'.opening
      cases value' with
      | array elements' =>
          cases written' with
          | emptyArray blank' =>
              exact ⟨rfl, (List.cons.inj (Json.blank_unique blank blank' rfl rfl)).2⟩
          | array blank' written' => exact absurd blank (written'.not_blank_close blank')
      | _ => contradiction
  | .array blank written elements =>
      -- The recursion is on parts of the first reading, so it comes before the two are compared.
      have uniqueFirst := @written.unique
      have uniqueOthers := @elements.unique
      intro value' rest' written'
      have opening := written'.opening
      cases value' with
      | array elements' =>
          cases written' with
          | emptyArray blank' => exact absurd blank' (written.not_blank_close blank)
          | array blank' written' elements' =>
              obtain rfl := written.blank_unique blank blank' written'
              obtain ⟨rfl, rfl⟩ := uniqueFirst written'
              obtain ⟨rfl, rfl⟩ := uniqueOthers elements'
              exact ⟨rfl, rfl⟩
      | _ => contradiction
  | .emptyObject blank =>
      intro value' rest' written'
      have opening := written'.opening
      cases value' with
      | object members' =>
          cases written' with
          | emptyObject blank' =>
              exact ⟨rfl, (List.cons.inj (Json.blank_unique blank blank' rfl rfl)).2⟩
          | object blank' written' =>
              cases written'
              simpa using Json.blank_unique blank blank' rfl rfl
      | _ => contradiction
  | .object blank written members =>
      have uniqueFirst := @written.unique
      have uniqueOthers := @members.unique
      intro value' rest' written'
      have opening := written'.opening
      cases value' with
      | object members' =>
          cases written' with
          | emptyObject blank' =>
              cases written
              simpa using Json.blank_unique blank blank' rfl rfl
          | object blank' written' members' =>
              obtain rfl := written.blank_unique blank blank' written'
              obtain ⟨rfl, rfl, rfl⟩ := uniqueFirst written'
              obtain ⟨rfl, rfl⟩ := uniqueOthers members'
              exact ⟨rfl, rfl⟩
      | _ => contradiction
termination_by structural written

theorem WrittenElements.unique {values : List Value} {text rest : List Char}
    (elements : WrittenElements values text rest) :
    ∀ {values' : List Value} {rest' : List Char}, WrittenElements values' text rest' →
      values' = values ∧ rest' = rest := by
  match elements with
  | .close blank =>
      intro values' rest' elements'
      cases elements' with
      | close blank' => exact ⟨rfl, (List.cons.inj (blank_unique blank blank' rfl rfl)).2⟩
      | next comma' => simpa using blank_unique blank comma' rfl rfl
  | .next comma blank written elements =>
      have uniqueFirst := @written.unique
      have uniqueOthers := @elements.unique
      intro values' rest' elements'
      cases elements' with
      | close blank' => simpa using blank_unique comma blank' rfl rfl
      | next comma' blank' written' elements' =>
          obtain ⟨-, rfl⟩ := List.cons.inj (blank_unique comma comma' rfl rfl)
          obtain rfl := written.blank_unique blank blank' written'
          obtain ⟨rfl, rfl⟩ := uniqueFirst written'
          obtain ⟨rfl, rfl⟩ := uniqueOthers elements'
          exact ⟨rfl, rfl⟩
termination_by structural elements

theorem WrittenMember.unique {name : String} {value : Value} {text rest : List Char}
    (member : WrittenMember name value text rest) :
    ∀ {name' : String} {value' : Value} {rest' : List Char}, WrittenMember name' value' text rest' →
      name' = name ∧ value' = value ∧ rest' = rest := by
  match member with
  | .mk letters colon blank written =>
      have uniqueValue := @written.unique
      intro name' value' rest' member'
      cases member' with
      | mk letters' colon' blank' written' =>
          obtain ⟨rfl, rfl⟩ := letters_unique letters letters'
          obtain ⟨-, rfl⟩ := List.cons.inj (blank_unique colon colon' rfl rfl)
          obtain rfl := written.blank_unique blank blank' written'
          obtain ⟨rfl, rfl⟩ := uniqueValue written'
          exact ⟨rfl, rfl, rfl⟩
termination_by structural member

theorem WrittenMembers.unique {values : List (String × Value)} {text rest : List Char}
    (members : WrittenMembers values text rest) :
    ∀ {values' : List (String × Value)} {rest' : List Char}, WrittenMembers values' text rest' →
      values' = values ∧ rest' = rest := by
  match members with
  | .close blank =>
      intro values' rest' members'
      cases members' with
      | close blank' => exact ⟨rfl, (List.cons.inj (blank_unique blank blank' rfl rfl)).2⟩
      | next comma' => simpa using blank_unique blank comma' rfl rfl
  | .next comma blank written members =>
      have uniqueFirst := @written.unique
      have uniqueOthers := @members.unique
      intro values' rest' members'
      cases members' with
      | close blank' => simpa using blank_unique comma blank' rfl rfl
      | next comma' blank' written' members' =>
          obtain ⟨-, rfl⟩ := List.cons.inj (blank_unique comma comma' rfl rfl)
          obtain rfl := written.blank_unique blank blank' written'
          obtain ⟨rfl, rfl, rfl⟩ := uniqueFirst written'
          obtain ⟨rfl, rfl⟩ := uniqueOthers members'
          exact ⟨rfl, rfl⟩
termination_by structural members

end

/-- A text is a document of at most one value. -/
theorem IsDocument.unique {value value' : Value} {text : List Char}
    (document : IsDocument value text) (document' : IsDocument value' text) : value' = value := by
  obtain ⟨begin, rest, blank, written, _⟩ := document
  obtain ⟨begin', rest', blank', written', _⟩ := document'
  obtain rfl := written.blank_unique blank blank' written'
  exact (written.unique written').1

end CommandShell.Json
