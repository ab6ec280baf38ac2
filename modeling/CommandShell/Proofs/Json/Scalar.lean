import CommandShell.Json.Scalar
import CommandShell.Proofs.Json.Text

/-!
Reading single values. A reader of a type reads exactly the values of the type, with any white space
in front of them, and stops right behind them.
-/

namespace CommandShell.Json

/-! Readers that succeed. -/

section

variable {ε α β : Type} {result : Except ε α}

theorem map_eq_ok_iff {f : α → β} {b : β} :
    result.map f = .ok b ↔ ∃ a, result = .ok a ∧ f a = b := by
  cases result <;> simp [Except.map]

theorem bind_eq_ok_iff {next : α → Except ε β} {b : β} :
    result >>= next = .ok b ↔ ∃ a, result = .ok a ∧ next a = .ok b := by
  cases result <;> simp [bind, Except.bind]

end

/-! White space. -/

theorem blank_dropWhile (text : List Char) : Blank text (text.dropWhile Cursor.isSpace) := by
  induction text with
  | nil => exact .nothing
  | cons c text inductionHypothesis =>
      by_cases isSpace : Cursor.isSpace c = true
      · rw [List.dropWhile_cons_of_pos isSpace]
        exact .space isSpace inductionHypothesis
      · rw [List.dropWhile_cons_of_neg isSpace]
        exact .nothing

theorem blank_skipSpace (cursor : Cursor) : Blank cursor.rest cursor.skipSpace.rest :=
  blank_dropWhile cursor.rest

theorem Blank.skipSpace {text rest : List Char} {c : Char} (blank : Blank text (c :: rest))
    (solid : Cursor.isSpace c = false) (offset : Nat) :
    ∃ offset', Cursor.skipSpace ⟨text, offset⟩ = ⟨c :: rest, offset'⟩ := by
  have stops : text.dropWhile Cursor.isSpace = c :: rest := by
    generalize begins : c :: rest = begin at blank
    induction blank with
    | nothing =>
        subst begins
        simp [solid]
    | space isSpace blank inductionHypothesis =>
        rw [List.dropWhile_cons_of_pos isSpace]
        exact inductionHypothesis begins
  exact ⟨_, congrArg (Cursor.mk · _) stops⟩

theorem rest_advance {cursor : Cursor} {c : Char} {others : List Char}
    (begins : cursor.rest = c :: others) :
    cursor.advance.rest = others := by
  rw [Cursor.advance, begins]
  rfl

theorem Number.exists_eq_cons {literal : List Char} (number : Number literal) :
    ∃ c others, literal = c :: others ∧ (c = '-' ∨ c.isDigit = true) := by
  obtain ⟨signed, ⟨⟨filled, digits⟩, _⟩, _, _⟩ := number
  simp only [List.mem_cons, List.not_mem_nil, or_false] at signed
  rcases signed with rfl | rfl
  · obtain ⟨c, others, rfl⟩ := List.exists_cons_of_ne_nil filled
    exact ⟨c, _, rfl, Or.inr (digits c List.mem_cons_self)⟩
  · exact ⟨'-', _, rfl, Or.inl rfl⟩

theorem Written.exists_eq_cons {value : Value} {text rest : List Char}
    (written : Written value text rest) :
    ∃ c others, text = c :: others ∧ Cursor.isSpace c = false ∧ c ≠ ']' := by
  cases written with
  | number isNumber complete =>
      obtain ⟨c, others, rfl, starts⟩ := isNumber.exists_eq_cons
      refine ⟨c, others ++ rest, rfl, ?_⟩
      rcases starts with rfl | digit
      · decide
      · have apart (other : Char) (mark : other.isDigit = false) : c ≠ other := by
          rintro rfl
          rw [digit] at mark
          contradiction
        simp [Cursor.isSpace, apart]
  | _ => exact ⟨_, _, rfl, by decide, by decide⟩

/-! Numbers. -/

/-- Whether what is found is kept in full. -/
def Found.kept : Found → Bool
  | .null | .bool _ | .natural _ | .string _ => true
  | .negative _ | .float _ | .list | .object => false

theorem finishFloat_kept {negative : Bool} {significand : Nat} {exponent : Int} {found : Found}
    {cursor cursor' : Cursor}
    (reads : finishFloat negative significand exponent cursor = .ok (found, cursor')) :
    found.kept = false := by
  unfold finishFloat at reads
  split at reads
  · contradiction
  · obtain ⟨rfl, rfl⟩ := Prod.mk.inj (Except.ok.inj reads)
    rfl

theorem readExponent_kept {negative : Bool} {significand : Nat} {exponent : Int} {found : Found}
    {cursor cursor' : Cursor}
    (reads : readExponent negative significand exponent cursor = .ok (found, cursor')) :
    found.kept = false := by
  unfold readExponent at reads
  dsimp only at reads
  generalize (if (decide (cursor.advance.rest.head? = some '+') ||
    decide (cursor.advance.rest.head? = some '-')) = true then _ else _ : Cursor) = behind at reads
  split at reads
  · contradiction
  · split at reads
    · split at reads
      · split at reads
        · contradiction
        · exact finishFloat_kept reads
      · exact finishFloat_kept reads
    · contradiction

theorem readFraction_kept {negative : Bool} {significand : Nat} {exponent : Int} {found : Found}
    {cursor cursor' : Cursor}
    (reads : readFraction negative significand exponent cursor = .ok (found, cursor')) :
    found.kept = false := by
  unfold readFraction at reads
  dsimp only at reads
  split at reads
  · contradiction
  · split at reads
    · exact readExponent_kept reads
    · exact finishFloat_kept reads

theorem le_ofDigitChars (digits : List Char) (start : Nat) :
    start ≤ Nat.ofDigitChars 10 digits start := by
  induction digits generalizing start with
  | nil => simp
  | cons c digits inductionHypothesis =>
      rw [Nat.ofDigitChars_cons]
      exact Nat.le_trans (by omega) (inductionHypothesis _)

theorem ofDigitChars_cons_eq (c : Char) (digits : List Char) (start : Nat) :
    Nat.ofDigitChars 10 (c :: digits) start =
      Nat.ofDigitChars 10 digits (start * 10 + digitValue c) := by
  rw [Nat.ofDigitChars_cons, Nat.mul_comm]
  rfl

theorem appendDigits_eq_iff {digits : List Char} {start n : Nat}
    (within : start ≤ greatestNatural) :
    appendDigits start digits = (n, digits.length) ↔
      Nat.ofDigitChars 10 digits start = n ∧ n ≤ greatestNatural := by
  induction digits generalizing start with
  | nil =>
      simp only [appendDigits, List.length_nil, Prod.mk.injEq, and_true, Nat.ofDigitChars_nil]
      exact ⟨fun same => ⟨same, same ▸ within⟩, And.left⟩
  | cons c digits inductionHypothesis =>
      rw [ofDigitChars_cons_eq, appendDigits]
      dsimp only
      split
      · next exceeds =>
        constructor
        · intro same
          simp at same
        · rintro ⟨rfl, fits⟩
          exact absurd (Nat.lt_of_lt_of_le exceeds (le_ofDigitChars digits _)) (Nat.not_lt.mpr fits)
      · next fits =>
        rw [← inductionHypothesis (Nat.not_lt.mp fits)]
        simp only [List.length_cons, Nat.add_right_cancel_iff, Prod.ext_iff]

theorem Exponent.eq_nil {exponent : List Char} (isExponent : Exponent exponent)
    (digits : ∀ c ∈ exponent, c.isDigit = true) : exponent = [] := by
  refine Or.resolve_right isExponent ?_
  rintro ⟨letter, sign, power, rfl, known, _⟩
  have digit := digits letter List.mem_cons_self
  simp only [List.mem_cons, List.not_mem_nil, or_false] at known
  rcases known with rfl | rfl <;> contradiction

theorem Number.whole {literal : List Char} (number : Number literal)
    (digits : ∀ c ∈ literal, c.isDigit = true) :
    Whole literal := by
  obtain ⟨signed, whole, isFraction, isExponent⟩ := number
  simp only [List.mem_append, List.mem_cons, List.not_mem_nil, or_false] at digits signed
  obtain rfl : _ = [] := signed.resolve_right fun minus => by
    simpa using digits '-' (by simp [minus])
  obtain rfl : _ = [] := Or.resolve_right isFraction fun ⟨_, point, _⟩ => by
    simpa using digits '.' (by simp [point])
  obtain rfl := isExponent.eq_nil fun c member => digits c (Or.inr (Or.inr (Or.inr member)))
  simpa using whole

theorem Complete.head_not_isDigit {rest : List Char} (complete : Complete rest) :
    ∀ c ∈ rest.head?, c.isDigit = false := by
  intro c first
  have stops := complete c first
  simp only [prolongs, Bool.or_eq_false_iff] at stops
  exact stops.1.1.1

theorem takeWhile_append_of_stops {inside : Char → Bool} {front behind : List Char}
    (all : ∀ c ∈ front, inside c = true) (stops : ∀ c ∈ behind.head?, inside c = false) :
    (front ++ behind).takeWhile inside = front := by
  rw [List.takeWhile_append_of_pos all]
  cases behind with
  | nil => simp
  | cons c behind => simp [stops c rfl]

theorem readNumber_whole {digits rest : List Char} {n : Nat} (whole : Whole digits)
    (complete : Complete rest) (value : Nat.ofDigitChars 10 digits 0 = n)
    (fits : n ≤ greatestNatural) (offset : Nat) :
    readNumber false ⟨digits ++ rest, offset⟩ =
      .ok (.natural n, ⟨rest, offset + digits.length⟩) := by
  obtain ⟨⟨filled, all⟩, zero⟩ := whole
  have here : digitsAt ⟨digits ++ rest, offset⟩ = digits :=
    takeWhile_append_of_stops all complete.head_not_isDigit
  have behind : behindDigits ⟨digits ++ rest, offset⟩ digits.length =
      ⟨rest, offset + digits.length⟩ := by
    simp [behindDigits]
  have appended := (appendDigits_eq_iff (Nat.zero_le _)).mpr ⟨value, fits⟩
  have stops (c : Char) (known : prolongs c = true) : rest.head? ≠ some c := by
    intro first
    rw [complete c first] at known
    contradiction
  obtain ⟨c, others, rfl⟩ := List.exists_cons_of_ne_nil filled
  have single : (c = '0' && decide (1 < (c :: others).length)) = false := by
    by_cases isZero : c = '0'
    · simp [isZero, zero others (by rw [isZero])]
    · simp [isZero]
  rw [List.cons_append] at here behind ⊢
  simp only [readNumber, here, behind, appended, single, all c List.mem_cons_self, atExponent,
    stops '.' rfl, stops 'e' rfl, stops 'E' rfl]
  simp [whole]

theorem whole_kept {negative : Bool} {value : Nat}
    (kept : (Json.whole negative value).kept = true) :
    negative = false := by
  cases negative with
  | false => rfl
  | true =>
      simp only [Json.whole, Bool.not_true, Bool.false_eq_true, if_false] at kept
      split at kept <;> contradiction

theorem rest_behindDigits (cursor : Cursor) :
    (behindDigits cursor (digitsAt cursor).length).rest = cursor.rest.dropWhile Char.isDigit := by
  have parts : cursor.rest = digitsAt cursor ++ cursor.rest.dropWhile Char.isDigit :=
    List.takeWhile_append_dropWhile.symm
  exact (congrArg (List.drop (digitsAt cursor).length) parts).trans List.drop_left

theorem complete_dropWhile {text : List Char}
    (point : (text.dropWhile Char.isDigit).head? ≠ some '.')
    (power : (text.dropWhile Char.isDigit).head? ≠ some 'e' ∧
      (text.dropWhile Char.isDigit).head? ≠ some 'E') :
    Complete (text.dropWhile Char.isDigit) := by
  intro c first
  have digit := List.head?_dropWhile_not Char.isDigit text
  rw [Option.mem_def.mp first] at point power digit
  simp only [ne_eq, Option.some.injEq] at point power
  simp [prolongs, digit, point, power]

/-- A number that is kept in full is one of digits alone, without a sign. -/
theorem exists_whole_of_readNumber {negative : Bool} {found : Found} {cursor cursor' : Cursor}
    (reads : readNumber negative cursor = .ok (found, cursor')) (kept : found.kept = true) :
    negative = false ∧ ∃ digits n, found = .natural n ∧ cursor.rest = digits ++ cursor'.rest ∧
      Whole digits ∧
      Complete cursor'.rest ∧ Nat.ofDigitChars 10 digits 0 = n ∧ n ≤ greatestNatural := by
  obtain ⟨text, offset⟩ := cursor
  unfold readNumber at reads
  dsimp only at reads
  split at reads
  · contradiction
  · next c others =>
    split at reads
    · contradiction
    · next digit =>
      split at reads
      · contradiction
      · next single =>
        split at reads
        · simp [readFraction_kept reads] at kept
        · next point =>
          split at reads
          · simp [readExponent_kept reads] at kept
          · next power =>
            split at reads
            · next all =>
              -- Digits alone are left, all of them used: there is neither a point nor an exponent.
              obtain ⟨rfl, rfl⟩ := Prod.mk.inj (Except.ok.inj reads)
              obtain rfl := whole_kept kept
              have parts : c :: others = digitsAt ⟨c :: others, offset⟩ ++
                  (c :: others).dropWhile Char.isDigit :=
                List.takeWhile_append_dropWhile.symm
              have begins : digitsAt ⟨c :: others, offset⟩ = c :: others.takeWhile Char.isDigit :=
                List.takeWhile_cons_of_pos (by simpa using digit)
              rw [rest_behindDigits] at point ⊢
              refine ⟨rfl, digitsAt ⟨c :: others, offset⟩, _, rfl, parts,
                ⟨⟨by simp [begins], ?_⟩, ?_⟩, ?_, ?_⟩
              · exact List.all_eq_true.mp List.all_takeWhile
              · intro rest zero
                rw [begins] at zero single
                obtain ⟨rfl, rfl⟩ := List.cons.inj zero
                simpa using single
              · refine complete_dropWhile point ?_
                simpa [atExponent, rest_behindDigits] using power
              · exact (appendDigits_eq_iff (Nat.zero_le _)).mp (Prod.ext rfl all)
            · simp [finishFloat_kept reads] at kept

theorem Whole.number {digits : List Char} (whole : Whole digits) : Number digits := by
  simpa using Number.mk List.mem_cons_self whole (Or.inl rfl) (Or.inl rfl)

/-! Values at a place. -/

theorem readWord_append (found : Found) (letters rest : List Char) (offset : Nat) :
    ∃ offset', readWord found letters ⟨letters ++ rest, offset⟩ = .ok (found, ⟨rest, offset'⟩) := by
  induction letters generalizing offset with
  | nil => exact ⟨offset, rfl⟩
  | cons letter letters inductionHypothesis =>
      obtain ⟨offset', reads⟩ := inductionHypothesis (offset + 1)
      exact ⟨offset', by simpa [readWord, Cursor.advance] using reads⟩

theorem eq_append_of_readWord {found found' : Found} {letters : List Char} {cursor cursor' : Cursor}
    (reads : readWord found letters cursor = .ok (found', cursor')) :
    found' = found ∧ cursor.rest = letters ++ cursor'.rest := by
  induction letters generalizing cursor with
  | nil =>
      obtain ⟨rfl, rfl⟩ := Prod.mk.inj (Except.ok.inj reads)
      exact ⟨rfl, rfl⟩
  | cons letter letters inductionHypothesis =>
      unfold readWord at reads
      split at reads
      · contradiction
      · next c others begins =>
        split at reads
        · next same =>
          obtain ⟨rfl, behind⟩ := inductionHypothesis reads
          rw [rest_advance begins] at behind
          exact ⟨rfl, by rw [begins, same, behind, List.cons_append]⟩
        · contradiction

/-- The value is written by digits alone, and the number fits. -/
def IsNatural (value : Value) (n : Nat) : Prop :=
  ∃ digits, value = .number digits ∧ (∀ c ∈ digits, c.isDigit = true) ∧
    Nat.ofDigitChars 10 digits 0 = n ∧ n ≤ greatestNatural

/-- What is found where a value stands, of the values that are kept in full. -/
inductive Shows : Value → Found → Prop where
  | null : Shows .null .null
  | bool {value : Bool} : Shows (.bool value) (.bool value)
  | natural {value : Value} {n : Nat} (isNatural : IsNatural value n) : Shows value (.natural n)
  | string {text : String} : Shows (.string text) (.string text)

theorem readScalar_digit {c : Char} (digit : c.isDigit = true) (others : List Char) (offset : Nat) :
    readScalar ⟨c :: others, offset⟩ = readNumber false ⟨c :: others, offset⟩ := by
  unfold readScalar
  split <;> simp_all

theorem Written.readScalar {value : Value} {found : Found} {text rest : List Char}
    (written : Written value text rest) (shown : Shows value found) (offset : Nat) :
    ∃ offset', Json.readScalar ⟨text, offset⟩ = .ok (found, ⟨rest, offset'⟩) := by
  cases shown with
  | null =>
      cases written
      exact readWord_append _ _ _ _
  | @bool value =>
      cases written <;> exact readWord_append _ _ _ _
  | natural isNatural =>
      obtain ⟨digits, rfl, all, value, fits⟩ := isNatural
      cases written with
      | number isNumber complete =>
          have whole := isNumber.whole all
          obtain ⟨c, others, rfl⟩ := List.exists_cons_of_ne_nil whole.1.1
          rw [List.cons_append, readScalar_digit (all c List.mem_cons_self), ← List.cons_append]
          exact ⟨_, readNumber_whole whole complete value fits offset⟩
  | string =>
      cases written with
      | string letters =>
          obtain ⟨offset', reads⟩ := letters.readText (offset + 1)
          refine ⟨offset', ?_⟩
          rw [Json.readScalar]
          simp [Cursor.advance, reads, Except.map]

theorem written_of_readScalar {found : Found} {cursor cursor' : Cursor}
    (reads : readScalar cursor = .ok (found, cursor')) (kept : found.kept = true) :
    ∃ value, Written value cursor.rest cursor'.rest ∧ Shows value found := by
  unfold readScalar at reads
  split at reads
  · next others begins =>
    obtain ⟨rfl, word⟩ := eq_append_of_readWord reads
    rw [begins, ← rest_advance begins, word]
    exact ⟨.null, .nullWord, .null⟩
  · next others begins =>
    obtain ⟨rfl, word⟩ := eq_append_of_readWord reads
    rw [begins, ← rest_advance begins, word]
    exact ⟨.bool true, .trueWord, .bool⟩
  · next others begins =>
    obtain ⟨rfl, word⟩ := eq_append_of_readWord reads
    rw [begins, ← rest_advance begins, word]
    exact ⟨.bool false, .falseWord, .bool⟩
  · exact absurd (exists_whole_of_readNumber reads kept).1 (by decide)
  · next others begins =>
    obtain ⟨⟨text, behind⟩, letters, same⟩ := map_eq_ok_iff.mp reads
    obtain ⟨rfl, rfl⟩ := Prod.mk.inj same
    rw [begins, ← rest_advance begins]
    exact ⟨.string text, .string (letters_of_readText letters), .string⟩
  · obtain ⟨rfl, rfl⟩ := Prod.mk.inj (Except.ok.inj reads)
    contradiction
  · obtain ⟨rfl, rfl⟩ := Prod.mk.inj (Except.ok.inj reads)
    contradiction
  · split at reads
    · obtain ⟨_, digits, n, rfl, begins, whole, complete, value, fits⟩ :=
        exists_whole_of_readNumber reads kept
      rw [begins]
      exact ⟨.number digits, .number whole.number complete,
        .natural ⟨digits, rfl, whole.1.2, value, fits⟩⟩
    · contradiction
  · contradiction

/-- A reader of a type: it reads the values of the type and no others, whatever white space stands
in front of them, and stops right behind them. -/
structure Reads {α : Type} (reader : Reader α) (type : Value → α → Prop) : Prop where
  sound {cursor cursor' : Cursor} {result : α} (reads : reader cursor = .ok (result, cursor')) :
    ∃ value text, Blank cursor.rest text ∧ Written value text cursor'.rest ∧ type value result
  complete {value : Value} {text begin rest : List Char} {result : α} (blank : Blank text begin)
    (written : Written value begin rest) (typed : type value result) (offset : Nat) :
    ∃ offset', reader ⟨text, offset⟩ = .ok (result, ⟨rest, offset'⟩)

theorem Written.skipSpace {value : Value} {text begin rest : List Char}
    (written : Written value begin rest) (blank : Blank text begin) (offset : Nat) :
    ∃ offset', Cursor.skipSpace ⟨text, offset⟩ = ⟨begin, offset'⟩ := by
  obtain ⟨c, others, rfl, solid, _⟩ := written.exists_eq_cons
  exact blank.skipSpace solid offset

theorem readAs_eq_ok_iff {α : Type} {wanted : Found → Option α} {refuse : Found → Cause}
    {result : α} {cursor cursor' : Cursor} :
    readAs wanted refuse cursor = .ok (result, cursor') ↔
      ∃ found, readScalar cursor.skipSpace = .ok (found, cursor') ∧ wanted found = some result := by
  unfold readAs
  by_cases empty : cursor.skipSpace.rest = []
  · have nothing : readScalar cursor.skipSpace = .error (cursor.skipSpace.ahead .noValue) := by
      rw [readScalar, empty]
    simp only [empty, nothing]
    exact ⟨nofun, nofun⟩
  · simp only [List.isEmpty_iff, empty, if_false, bind_eq_ok_iff]
    constructor
    · rintro ⟨⟨found, behind⟩, reads, same⟩
      split at same
      · next value known =>
        obtain ⟨rfl, rfl⟩ := Prod.mk.inj (Except.ok.inj same)
        exact ⟨found, reads, known⟩
      · contradiction
    · rintro ⟨found, reads, known⟩
      refine ⟨(found, cursor'), reads, ?_⟩
      rw [known]
      rfl

/-- A reader that asks for a value that is kept in full. -/
theorem reads_readAs {α : Type} {wanted : Found → Option α} {refuse : Found → Cause}
    (keeps : ∀ found result, wanted found = some result → found.kept = true) :
    Reads (readAs wanted refuse) fun value result => ∃ found, Shows value found ∧
      wanted found = some result where
  sound := by
    intro cursor cursor' result reads
    obtain ⟨found, reads, known⟩ := readAs_eq_ok_iff.mp reads
    obtain ⟨value, written, shown⟩ := written_of_readScalar reads (keeps found result known)
    exact ⟨value, _, blank_skipSpace cursor, written, found, shown, known⟩
  complete := by
    rintro value text begin rest result blank written ⟨found, shown, known⟩ offset
    obtain ⟨here, skips⟩ := written.skipSpace blank offset
    obtain ⟨behind, reads⟩ := written.readScalar shown here
    exact ⟨behind, readAs_eq_ok_iff.mpr ⟨found, by rw [skips, reads], known⟩⟩

theorem Reads.congr {α : Type} {reader : Reader α} {type type' : Value → α → Prop}
    (reads : Reads reader type) (same : ∀ value result, type value result ↔ type' value result) :
    Reads reader type' := by
  obtain rfl : type = type' := funext fun value => funext fun result => propext (same value result)
  exact reads

def IsFlag (value : Value) (flag : Bool) : Prop := value = .bool flag

def IsText (value : Value) (text : String) : Prop := value = .string text

theorem reads_readBool : Reads readBool IsFlag := by
  refine (reads_readAs ?_).congr fun value flag => ⟨?_, ?_⟩
  · rintro (_ | _) flag known <;> first | rfl | contradiction
  · rintro ⟨found, shown, known⟩
    cases shown <;> first | contradiction | exact congrArg Value.bool (Option.some.inj known)
  · rintro rfl
    exact ⟨_, .bool, rfl⟩

theorem reads_readString : Reads readString IsText := by
  refine (reads_readAs ?_).congr fun value text => ⟨?_, ?_⟩
  · rintro (_ | _) text known <;> first | rfl | contradiction
  · rintro ⟨found, shown, known⟩
    cases shown <;> first | contradiction | exact congrArg Value.string (Option.some.inj known)
  · rintro rfl
    exact ⟨_, .string, rfl⟩

theorem reads_readNull : Reads readNull fun value _ => value = .null := by
  refine (reads_readAs ?_).congr fun value _ => ⟨?_, ?_⟩
  · rintro (_ | _) _ known <;> first | rfl | contradiction
  · rintro ⟨found, shown, known⟩
    cases shown <;> first | contradiction | rfl
  · rintro rfl
    exact ⟨_, .null, rfl⟩

theorem reads_readNatural : Reads readNatural IsNatural := by
  refine (reads_readAs ?_).congr fun value n => ⟨?_, ?_⟩
  · rintro (_ | _) n known <;> first | rfl | contradiction
  · rintro ⟨found, shown, known⟩
    cases shown with
    | natural isNatural => exact Option.some.inj known ▸ isNatural
    | _ => contradiction
  · intro isNatural
    exact ⟨_, .natural isNatural, rfl⟩

end CommandShell.Json
