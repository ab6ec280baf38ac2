import CommandShell.Proofs.Peg.Derivation

/-!
Expressions that only move along the text. Inside an atomic rule no nodes are left and no refusals
are noted, so an expression is there no more than a partial function from texts to the texts behind
a match. An expression that calls no rule is that in every mode.
-/

namespace CommandShell.Peg

variable {Rule : Type}

theorem take_of_eq_append {text before rest : List Char} (same : text = before ++ rest) :
    text.take (text.length - rest.length) = before := by
  subst same
  simp

/-- The text behind its first character, if that is accepted. -/
def dropHead? (accepts : Char → Bool) : List Char → Option (List Char)
  | [] => none
  | c :: rest => if accepts c then some rest else none

theorem isSome_dropHead? (accepts : Char → Bool) (text : List Char) :
    (dropHead? accepts text).isSome = text.head?.any accepts := by
  cases text with
  | nil => rfl
  | cons c rest => by_cases accepted : accepts c = true <;> simp [dropHead?, accepted]

theorem length_lt_of_dropHead? {accepts : Char → Bool} {text rest : List Char}
    (dropped : dropHead? accepts text = some rest) : rest.length < text.length := by
  cases text with
  | nil => simp [dropHead?] at dropped
  | cons c text =>
      simp only [dropHead?, Option.ite_none_right_eq_some, Option.some.injEq] at dropped
      simp [dropped.2]

theorem dropWhile_eq (accepts : Char → Bool) (text : List Char) :
    text.dropWhile accepts =
      match dropHead? accepts text with | some rest => rest.dropWhile accepts | none => text := by
  cases text with
  | nil => rfl
  | cons c text => by_cases accepted : accepts c = true <;> simp [dropHead?, accepted]

/-- The text behind the given characters, if it starts with them. -/
def dropLetters? (letters text : List Char) : Option (List Char) :=
  if letters.isPrefixOf text then some (text.drop letters.length) else none

@[simp]
theorem dropLetters?_append (letters rest : List Char) :
    dropLetters? letters (letters ++ rest) = some rest := by
  simp [dropLetters?]

@[simp]
theorem dropLetters?_nil (text : List Char) : dropLetters? [] text = some text := by
  simp [dropLetters?]

@[simp]
theorem dropLetters?_cons_nil (c : Char) (letters : List Char) :
    dropLetters? (c :: letters) [] = none := rfl

@[simp]
theorem dropLetters?_cons_cons (c d : Char) (letters text : List Char) :
    dropLetters? (c :: letters) (d :: text) =
      if c = d then dropLetters? letters text else none := by
  by_cases same : c = d <;> simp [dropLetters?, List.cons_prefix_cons, same]

theorem eq_append_of_dropLetters? {letters text rest : List Char}
    (dropped : dropLetters? letters text = some rest) : text = letters ++ rest := by
  simp only [dropLetters?, Option.ite_none_right_eq_some, Option.some.injEq,
    List.isPrefixOf_iff_prefix] at dropped
  obtain ⟨⟨suffix, rfl⟩, rfl⟩ := dropped
  simp

namespace Grammar

variable (grammar : Grammar Rule) (total : Nat) (mode : Mode)

/-- In the mode the expression moves along the text as the function says. -/
def Scans (expr : Expr Rule) (scan : List Char → Option (List Char)) : Prop :=
  ∀ look text, grammar.Derives total expr mode look text ((scan text).map fun rest => ([], rest)) []

namespace Scans

variable {grammar total mode} {first second body : Expr Rule}
  {scan scan' : List Char → Option (List Char)}

theorem congr (scans : grammar.Scans total mode body scan) (same : ∀ text, scan text = scan' text) :
    grammar.Scans total mode body scan' := by
  intro look text
  rw [← same text]
  exact scans look text

theorem letters (letters : List Char) :
    grammar.Scans total mode (.text letters) (dropLetters? letters) := by
  intro look text
  cases dropped : dropLetters? letters text with
  | none =>
      apply Derives.textRefused
      intro starts
      obtain ⟨rest, rfl⟩ := starts
      simp at dropped
  | some rest =>
      rw [eq_append_of_dropLetters? dropped]
      exact .text

theorem char (accepts : Char → Bool) :
    grammar.Scans total mode (.char accepts) (dropHead? accepts) := by
  intro look text
  cases text with
  | nil => exact .charRefused (by simp)
  | cons c rest =>
      by_cases accepted : accepts c = true
      · simpa [dropHead?, accepted] using Derives.char accepted
      · simpa [dropHead?, accepted] using Derives.charRefused (by simpa using accepted)

theorem done : grammar.Scans total mode .done fun text => if text.isEmpty then some text
    else none := by
  intro look text
  cases text with
  | nil => exact .done
  | cons c rest => exact .doneRefused (by simp)

theorem join (scans : grammar.Scans total mode first scan)
    (scans' : grammar.Scans total mode second scan') :
    grammar.Scans total mode (.join first second) fun text => (scan text).bind scan' := by
  intro look text
  have derived := scans look text
  cases scanned : scan text with
  | none =>
      simp only [scanned, Option.map_none] at derived ⊢
      exact .joinRefused derived
  | some rest =>
      simp only [scanned, Option.map_some] at derived ⊢
      have whole := Derives.join derived (scans' look rest)
      simpa using whole

theorem alt (scans : grammar.Scans total mode first scan)
    (scans' : grammar.Scans total mode second scan') :
    grammar.Scans total mode (.alt first second) fun text => (scan text).or (scan' text) := by
  intro look text
  have derived := scans look text
  cases scanned : scan text with
  | none =>
      simp only [scanned, Option.map_none] at derived ⊢
      exact .altSecond derived (scans' look text)
  | some rest =>
      simp only [scanned, Option.map_some] at derived ⊢
      exact .altFirst derived

theorem opt (scans : grammar.Scans total mode body scan) :
    grammar.Scans total mode (.opt body) fun text => some ((scan text).getD text) := by
  intro look text
  have derived := scans look text
  cases scanned : scan text with
  | none =>
      simp only [scanned, Option.map_some, Option.map_none] at derived ⊢
      exact .optNone derived
  | some rest =>
      simp only [scanned, Option.map_some] at derived ⊢
      exact .opt derived

theorem avoid (scans : grammar.Scans total mode body scan) :
    grammar.Scans total mode (.avoid body) fun text =>
      if (scan text).isSome then none else some text := by
  intro look text
  have derived := scans look.avoid text
  cases scanned : scan text with
  | none =>
      simp only [scanned, Option.map_none] at derived ⊢
      exact .avoid derived
  | some rest =>
      simp only [scanned, Option.map_some] at derived ⊢
      exact .avoidRefused derived

theorem ahead (scans : grammar.Scans total mode body scan) :
    grammar.Scans total mode (.ahead body) fun text =>
      if (scan text).isSome then some text else none := by
  intro look text
  have derived := scans look.ahead text
  cases scanned : scan text with
  | none =>
      simp only [scanned, Option.map_none] at derived ⊢
      exact .aheadRefused derived
  | some rest =>
      simp only [scanned, Option.map_some] at derived ⊢
      exact .ahead derived

/-! Where filler is skipped between parts, sequences and repetitions read more than their parts. -/

theorem seq (strict : mode ≠ .loose) (scans : grammar.Scans total mode first scan)
    (scans' : grammar.Scans total mode second scan') :
    grammar.Scans total mode (.seq first second) fun text => (scan text).bind scan' :=
  fun look text => .seq strict (scans.join scans' look text)

/-- Repetition follows a function that goes on where the single step stops. -/
theorem more {drain : List Char → List Char} (strict : mode ≠ .loose)
    (scans : grammar.Scans total mode body scan)
    (shorter : ∀ {text rest}, scan text = some rest → rest.length < text.length)
    (drained : ∀ text, drain text = match scan text with | some rest => drain rest | none => text) :
    grammar.Scans total mode (.more body) fun text => some (drain text) := by
  intro look text
  induction size : text.length using Nat.strongRecOn generalizing text with
  | _ _ inductionHypothesis =>
      have derived := scans look text
      simp only [drained text]
      cases scanned : scan text with
      | none =>
          simp only [scanned, Option.map_some, Option.map_none] at derived ⊢
          exact .moreStop strict derived
      | some rest =>
          simp only [scanned, Option.map_some] at derived ⊢
          have later := inductionHypothesis rest.length (size ▸ shorter scanned) rest rfl
          exact .more strict derived later

theorem star {drain : List Char → List Char} (strict : mode ≠ .loose)
    (scans : grammar.Scans total mode body scan)
    (shorter : ∀ {text rest}, scan text = some rest → rest.length < text.length)
    (drained : ∀ text, drain text = match scan text with | some rest => drain rest | none => text) :
    grammar.Scans total mode body.star fun text => some (drain text) := by
  refine (scans.join (scans.more strict shorter drained)).opt.congr fun text => ?_
  rw [drained text]
  cases scan text <;> rfl

theorem starChars {accepts : Char → Bool} (strict : mode ≠ .loose)
    (scans : grammar.Scans total mode body (dropHead? accepts)) :
    grammar.Scans total mode body.star fun text => some (text.dropWhile accepts) :=
  scans.star strict length_lt_of_dropHead? (dropWhile_eq accepts)

theorem plusChars {accepts : Char → Bool} (strict : mode ≠ .loose)
    (scans : grammar.Scans total mode body (dropHead? accepts)) :
    grammar.Scans total mode body.plus fun text =>
      (dropHead? accepts text).map (List.dropWhile accepts) := by
  refine (scans.seq strict (scans.starChars strict)).congr fun text => ?_
  cases dropHead? accepts text <;> rfl

theorem call {rule : Rule} (plain : grammar.kind rule = .plain)
    (scans : grammar.Scans total .atomic (grammar.body rule) scan) :
    grammar.Scans total .atomic (.call rule) scan := by
  intro look text
  have inside :
      grammar.Derives total (grammar.body rule) (innerMode (grammar.kind rule) .atomic) look
      text ((scan text).map fun rest => ([], rest)) [] := by
    rw [plain]
    exact scans look text
  simpa [plain, entryMode, noted, enclose, Function.comp_def] using inside.call

theorem derives_call {rule : Rule} (atomic : grammar.kind rule = .atomic) (outside : mode ≠ .atomic)
    (scans : grammar.Scans total .atomic (grammar.body rule) scan) (look : Look)
    (text : List Char) :
    grammar.Derives total (.call rule) mode look text
      ((scan text).map fun rest => ([.node rule (text.take (text.length - rest.length)) []], rest))
      (if (look == .negative) == (scan text).isSome then [text.length] else []) := by
  have inside : grammar.Derives total (grammar.body rule) (innerMode (grammar.kind rule) mode) look
      text ((scan text).map fun rest => ([], rest)) [] := by
    rw [atomic]
    exact scans look text
  have derived := inside.call
  cases scanned : scan text <;> cases look <;>
    simpa [scanned, atomic, outside, entryMode, noted, enclose] using derived

/-- An atomic rule that is matched for good leaves the text it read in its node. -/
theorem derives_token {rule : Rule} (read : List Char → Option (List Char × List Char))
    (atomic : grammar.kind rule = .atomic) (outside : mode ≠ .atomic)
    (scans : grammar.Scans total .atomic (grammar.body rule) fun text => (read text).map Prod.snd)
    (splits : ∀ {text inside rest}, read text = some (inside, rest) → text = inside ++ rest)
    (text : List Char) :
    grammar.Derives total (.call rule) mode .straight text
      ((read text).map fun found => ([.node rule found.1 []], found.2))
      (if (read text).isSome then [] else [text.length]) := by
  have derived := scans.derives_call atomic outside .straight text
  cases found : read text with
  | none => simpa [found] using derived
  | some pair => simpa [found, take_of_eq_append (splits found)] using derived

end Scans

end Grammar

end CommandShell.Peg
