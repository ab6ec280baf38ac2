import CommandShell.Proofs.Reader.Word

/-!
The grammar matches words as the reader reads them. What is refused on the way never lies behind the
end of the word, and where a word ends, the next piece is refused.
-/

namespace CommandShell.Rule

open Peg Reader

variable {total : Nat} {mode : Mode}

/-! A compound rule is the same wherever it is called. -/

section Compound

variable {rule : Rule} {text rest : List Char} {trees : List (Peg.Tree Rule)} {refusals : List Nat}

theorem compound_some (compound : grammar.kind rule = .compound)
    (inside : grammar.Derives total (grammar.body rule) .compound .straight text
      (some (trees, rest))
      refusals) :
    grammar.Derives total (.call rule) mode .straight text
      (some ([.node rule (text.take (text.length - rest.length)) trees], rest)) refusals := by
  refine Grammar.Derives.call_some ?_ ?_
  · simp [compound, Grammar.entryMode]
  · rw [compound]
    exact inside

theorem compound_none (compound : grammar.kind rule = .compound)
    (inside : grammar.Derives total (grammar.body rule) .compound .straight text none refusals) :
    grammar.Derives total (.call rule) mode .straight text none (refusals ++ [text.length]) := by
  refine Grammar.Derives.call_none ?_ ?_
  · simp [compound, Grammar.entryMode]
  · rw [compound]
    exact inside

end Compound

/-! The rules of the smallest parts. -/

theorem derives_only (c : Char) (look : Look) (rest : List Char) :
    grammar.Derives total (.only c) mode look (c :: rest) (some ([], rest)) [] :=
  .char (by simp)

theorem only_refused {c : Char} {text : List Char} (other : text.head? ≠ some c) (look : Look) :
    grammar.Derives total (.only c) mode look text none [] := by
  refine .charRefused fun d membership => ?_
  simp only [beq_eq_false_iff_ne, ne_eq]
  rintro rfl
  exact other membership

theorem derives_name (outside : mode ≠ .atomic) (text : List Char) :
    grammar.Derives total (.call .name) mode .straight text
      ((readName? text).map fun found => ([.node .name found.1 []], found.2))
      (if (readName? text).isSome then [] else [text.length]) := by
  refine Grammar.Scans.derives_token readName? rfl outside ?_ eq_append_of_readName? text
  refine ((Grammar.Scans.char _).seq (by decide)
    ((Grammar.Scans.char _).starChars (by decide))).congr
    fun text => ?_
  cases text with
  | nil => rfl
  | cons c rest => by_cases starts : isNameStart c = true <;> simp [dropHead?, readName?, starts]

theorem derives_mark {rule : Rule} {character : Char} (atomic : grammar.kind rule = .atomic)
    (body : grammar.body rule = .only character) (outside : mode ≠ .atomic) (text : List Char) :
    grammar.Derives total (.call rule) mode .straight text
      (if text.head? = some character then some ([.node rule [character] []], text.tail) else none)
      (if text.head? = some character then [] else [text.length]) := by
  have derived : grammar.Derives total (.call rule) mode .straight text _ _ :=
    Grammar.Scans.derives_token
      (fun text => if text.head? = some character then some ([character], text.tail) else none)
      atomic outside ?_ ?_ text
  · by_cases starts : text.head? = some character <;> simpa [starts] using derived
  · rw [body]
    refine (scans_only character).congr fun text => ?_
    cases text with
    | nil => rfl
    | cons c rest => by_cases same : c = character <;> simp [dropHead?, same]
  · intro text inside rest found
    simp only [Option.ite_none_right_eq_some, Option.some.injEq, Prod.mk.injEq] at found
    obtain ⟨starts, rfl, rfl⟩ := found
    obtain ⟨tail, rfl⟩ := List.head?_eq_some_iff.mp starts
    rfl

theorem derives_quotedText {rule : Rule} {quote : Char} (atomic : grammar.kind rule = .atomic)
    (body : grammar.body rule = .upTo (.only quote)) (outside : mode ≠ .atomic) (text : List Char) :
    grammar.Derives total (.call rule) mode .straight text
      (some ([.node rule (text.takeWhile (· != quote)) []], text.dropWhile (· != quote))) [] := by
  have derived : grammar.Derives total (.call rule) mode .straight text _ _ :=
    Grammar.Scans.derives_token
      (fun text => some (text.takeWhile (· != quote), text.dropWhile (· != quote)))
      atomic outside ?_ ?_ text
  · simpa using derived
  · have scans : grammar.Scans total .atomic (.seq (.avoid (.only quote)) .any)
        (dropHead? (· != quote)) := by
      refine ((scans_only quote).avoid.seq (by decide) (Grammar.Scans.char _)).congr fun text => ?_
      cases text with
      | nil => rfl
      | cons c rest => by_cases same : c = quote <;> simp [dropHead?, same]
    rw [body]
    exact scans.starChars (by decide)
  · intro text inside rest found
    obtain ⟨rfl, rfl⟩ := Prod.mk.inj (Option.some.inj found)
    exact List.takeWhile_append_dropWhile.symm

theorem scans_plainChar :
    grammar.Scans total .atomic (.seq (.avoid delimiter) .any)
      (dropHead? fun c => !isDelimiter c) := by
  have scansDelimiter : grammar.Scans total .atomic delimiter _ :=
    (scans_only ' ').alt ((scans_only '\t').alt (scans_lineBreak.alt ((scans_only ';').alt
      ((scans_only '|').alt ((scans_only '&').alt ((scans_only '$').alt ((scans_only '\x27').alt
        (scans_only '\x22'))))))))
  refine (scansDelimiter.avoid.seq (by decide) (Grammar.Scans.char _)).congr fun text => ?_
  simp only [Option.isSome_or, isSome_dropBreak?, isSome_dropHead?]
  cases text with
  | nil => rfl
  | cons c rest =>
      have same : (c == ' ' || (c == '\t' || (isBreak c || (c == ';' || (c == '|' || (c == '&' ||
          (c == '$' || (c == '\x27' || c == '\x22')))))))) = isDelimiter c := by
        simp only [isDelimiter, isEnd]
        ac_rfl
      simp only [List.head?_cons, Option.any_some, same]
      by_cases ends : isDelimiter c = true <;> simp [ends, dropHead?]

theorem derives_literal (outside : mode ≠ .atomic) (text : List Char) :
    grammar.Derives total (.call .literal) mode .straight text
      ((readPlain? text).map fun found => ([.node .literal found.1 []], found.2))
      (if (readPlain? text).isSome then [] else [text.length]) := by
  refine Grammar.Scans.derives_token readPlain? rfl outside ?_ eq_append_of_readPlain? text
  refine (scans_plainChar.plusChars (by decide)).congr fun text => ?_
  cases text with
  | nil => rfl
  | cons c rest => by_cases plain : isDelimiter c = true <;> simp [dropHead?, readPlain?, plain]

/-! Quoted texts. -/

/-- The rules of the two kinds of quotes. -/
structure Quoting (rule inside : Rule) (quote : Char) : Prop where
  kind_rule : grammar.kind rule = .compound
  kind_inside : grammar.kind inside = .atomic
  body_rule : grammar.body rule = .inOrder (.only quote) [.call inside, .only quote]
  body_inside : grammar.body inside = .upTo (.only quote)

theorem quoting_single : Quoting .singleQuoted .singleQuotedText '\x27' := ⟨rfl, rfl, rfl, rfl⟩

theorem quoting_double : Quoting .doubleQuoted .doubleQuotedText '\x22' := ⟨rfl, rfl, rfl, rfl⟩

namespace Quoting

variable {rule inside : Rule} {quote : Char}

theorem derives_inside (quoting : Quoting rule inside quote) (text : List Char) :
    grammar.Derives total (.call inside) .compound .straight text
      (some ([.node inside (text.takeWhile (· != quote)) []], text.dropWhile (· != quote))) [] :=
  derives_quotedText quoting.kind_inside quoting.body_inside (by decide) text

theorem derives_some (quoting : Quoting rule inside quote) {text contents rest : List Char}
    (found : readQuoted? quote text = some (contents, rest)) :
    ∃ tree, grammar.Derives total (.call rule) mode .straight (quote :: text) (some ([tree], rest))
      [] ∧ tree.rule = rule ∧ firstText? tree.children = some (.ofList contents) := by
  have body : grammar.Derives total (grammar.body rule) .compound .straight (quote :: text)
      (some ([.node inside contents []], rest)) [] := by
    have derived : grammar.Derives total (.call inside) .compound .straight text _ _ :=
      quoting.derives_inside text
    unfold readQuoted? at found
    split at found
    · simp at found
    · next c tail dropped =>
        obtain ⟨rfl, rfl⟩ := Prod.mk.inj (Option.some.inj found)
        have closing := List.head?_dropWhile_not (· != quote) text
        obtain rfl : c = quote := by simpa [dropped] using closing
        rw [dropped] at derived
        rw [quoting.body_rule]
        exact .seq (by decide) (.join (derives_only c _ text) (.seq (by decide)
          (.join derived (derives_only c _ tail))))
  exact ⟨_, compound_some quoting.kind_rule body, rfl, rfl⟩

theorem derives_none (quoting : Quoting rule inside quote) {text : List Char}
    (unread : ∀ tail, text = quote :: tail → readQuoted? quote tail = none) :
    grammar.Derives total (.call rule) mode .straight text none [text.length] := by
  have body : grammar.Derives total (grammar.body rule) .compound .straight text none [] := by
    rw [quoting.body_rule]
    by_cases starts : text.head? = some quote
    · obtain ⟨tail, rfl⟩ := List.head?_eq_some_iff.mp starts
      have derived : grammar.Derives total (.call inside) .compound .straight tail _ _ :=
        quoting.derives_inside tail
      have unclosed := unread tail rfl
      unfold readQuoted? at unclosed
      split at unclosed
      · next dropped =>
          rw [dropped] at derived
          exact .seq (by decide) (.join (derives_only quote _ tail) (.seq (by decide)
            (.join derived (only_refused (by simp) _))))
      · simp at unclosed
    · exact .seq (by decide) (.joinRefused (only_refused starts _))
  exact compound_none quoting.kind_rule body

end Quoting

/-! Variables. -/

theorem referred_some (total : Nat) {text name rest : List Char}
    (found : readReferred? text = some (name, rest)) :
    ∃ tree refusals, grammar.Derives total referred .compound .straight text (some ([tree], rest))
      refusals ∧ tree.text = name ∧ ∀ refusal ∈ refusals, text.length ≤ refusal := by
  unfold readReferred? at found
  split at found
  · next tail =>
      obtain ⟨rfl, rfl⟩ := Prod.mk.inj (Option.some.inj found)
      have nameRefused :
          grammar.Derives total (.call .name) .compound .straight ('?' :: tail) _ _ :=
        derives_name (by decide) ('?' :: tail)
      have status :
          grammar.Derives total (.call .statusName) .compound .straight ('?' :: tail) _ _ :=
        derives_mark rfl rfl (by decide) ('?' :: tail)
      exact ⟨_, _, .altSecond nameRefused status, rfl, by simp [readName?, isNameStart]⟩
  · have derived : grammar.Derives total (.call .name) .compound .straight text _ _ :=
      derives_name (by decide) text
    rw [found] at derived
    exact ⟨_, _, .altFirst derived, rfl, by simp⟩

theorem referred_none (total : Nat) {text : List Char} (unread : readReferred? text = none) :
    ∃ refusals, grammar.Derives total referred .compound .straight text none refusals ∧
      ∀ refusal ∈ refusals, text.length ≤ refusal := by
  unfold readReferred? at unread
  split at unread
  · simp at unread
  · next noStatus =>
      have nameRefused : grammar.Derives total (.call .name) .compound .straight text _ _ :=
        derives_name (by decide) text
      have status : grammar.Derives total (.call .statusName) .compound .straight text _ _ :=
        derives_mark rfl rfl (by decide) text
      have other : text.head? ≠ some '?' := by
        intro starts
        obtain ⟨tail, rfl⟩ := List.head?_eq_some_iff.mp starts
        exact noStatus tail rfl
      simp only [unread, Option.map_none] at nameRefused
      simp only [other, if_false] at status
      exact ⟨_, .altSecond nameRefused status, by simp⟩

theorem reference_some (total : Nat) {text name rest : List Char}
    (found : readReference? text = some (name, rest)) :
    ∃ tree refusals, grammar.Derives total (.call .reference) mode .straight ('$' :: text)
        (some ([tree], rest)) refusals ∧
      tree.rule = .reference ∧ firstText? tree.children = some (.ofList name) ∧
      ∀ refusal ∈ refusals, rest.length ≤ refusal := by
  have suffix := suffix_of_readReference? found
  unfold readReference? at found
  split at found
  · next tail =>
      split at found
      · next name' rest' referred =>
          obtain ⟨rfl, rfl⟩ := Prod.mk.inj (Option.some.inj found)
          obtain ⟨tree, refusals, derived, rfl, least⟩ := referred_some total referred
          refine ⟨_, _, compound_some rfl (.seq (by decide) (.join (derives_only '$' _ _)
            (.altFirst (.seq (by decide) (.join (derives_only '\x7b' _ _) (.seq (by decide)
              (.join derived (derives_only '\x7d' _ _)))))))), rfl, rfl, ?_⟩
          intro refusal membership
          have shorter := congrArg List.length (eq_append_of_readReferred? referred)
          have lower := least refusal (by simpa using membership)
          simp only [List.length_append, List.length_cons] at shorter
          omega
      · simp at found
  · next noBrace =>
      obtain ⟨tree, refusals, derived, rfl, least⟩ := referred_some total found
      have other : text.head? ≠ some '\x7b' := by
        intro starts
        obtain ⟨tail, rfl⟩ := List.head?_eq_some_iff.mp starts
        exact noBrace tail rfl
      refine ⟨_, _, compound_some rfl (.seq (by decide) (.join (derives_only '$' _ _)
        (.altSecond (.seq (by decide) (.joinRefused (only_refused other _))) derived))), rfl, rfl,
          ?_⟩
      intro refusal membership
      exact Nat.le_trans suffix.length_le (least refusal (by simpa using membership))

/-- Where no variable is meant the dollar sign stands for itself, and the word goes on behind it. -/
theorem reference_none (total : Nat) {text : List Char} (unread : readReference? text = none) :
    ∃ refusals,
      grammar.Derives total (.call .reference) mode .straight ('$' :: text) none refusals ∧
      ∀ refusal ∈ refusals, (readPieces text).2.length ≤ refusal := by
  unfold readReference? at unread
  split at unread
  · next tail =>
      -- The name is looked for behind the brace, where the word has not ended yet.
      have shorter : (readPieces ('\x7b' :: tail)).2.length ≤ tail.length := by
        have piece : readPiece? ('\x7b' :: tail) = some _ := rfl
        obtain ⟨c, tail', same, suffix⟩ := suffix_of_readPiece? piece
        obtain ⟨rfl, rfl⟩ := List.cons.inj same
        rw [readPieces_of_some piece]
        exact Nat.le_trans (suffix_readPieces _).length_le suffix.length_le
      have braced : ∃ refusals, grammar.Derives total
          (.inOrder (.only '\x7b') [referred, .only '\x7d']) .compound .straight ('\x7b' :: tail)
            none refusals ∧ ∀ refusal ∈ refusals, tail.length ≤ refusal := by
        cases found : readReferred? tail with
        | none =>
            obtain ⟨refusals, derived, least⟩ := referred_none total found
            exact ⟨_, .seq (by decide) (.join (derives_only '\x7b' _ _) (.seq (by decide)
              (.joinRefused derived))), by simpa using least⟩
        | some pair =>
            obtain ⟨name, rest⟩ := pair
            obtain ⟨tree, refusals, derived, _, least⟩ := referred_some total found
            have other : rest.head? ≠ some '\x7d' := by
              intro starts
              obtain ⟨behind, rfl⟩ := List.head?_eq_some_iff.mp starts
              simp [found] at unread
            exact ⟨_, .seq (by decide) (.join (derives_only '\x7b' _ _) (.seq (by decide)
              (.join derived (only_refused other _)))), by simpa using least⟩
      obtain ⟨refusals, derived, least⟩ := braced
      have plain : readReferred? ('\x7b' :: tail) = none := rfl
      obtain ⟨refusals', derived', least'⟩ := referred_none total plain
      refine ⟨_, compound_none rfl (.seq (by decide) (.join (derives_only '$' _ _)
        (.altSecond derived derived'))), ?_⟩
      grind
  · next noBrace =>
      obtain ⟨refusals, derived, least⟩ := referred_none total unread
      have other : text.head? ≠ some '\x7b' := by
        intro starts
        obtain ⟨tail, rfl⟩ := List.head?_eq_some_iff.mp starts
        exact noBrace tail rfl
      have shorter := (suffix_readPieces text).length_le
      refine ⟨_, compound_none rfl (.seq (by decide) (.join (derives_only '$' _ _)
        (.altSecond (.seq (by decide) (.joinRefused (only_refused other _))) derived))), ?_⟩
      grind

theorem reference_refused {text : List Char} (other : text.head? ≠ some '$') :
    grammar.Derives total (.call .reference) mode .straight text none [text.length] := by
  have inside : grammar.Derives total (grammar.body .reference) .compound .straight text none [] :=
    .seq (by decide) (.joinRefused (only_refused other _))
  exact compound_none rfl inside

/-! Pieces. -/

/-- What a word is made of. -/
def piece : Expr Rule :=
  .oneOf (.call .singleQuoted)
    [.call .doubleQuoted, .call .reference, .call .literal, .call .dollar]

theorem Quoting.derives_none_of_ne {rule inside : Rule} {quote : Char}
    (quoting : Quoting rule inside quote) {text : List Char} (other : text.head? ≠ some quote) :
    grammar.Derives total (.call rule) mode .straight text none [text.length] := by
  refine quoting.derives_none fun tail same => ?_
  simp [same] at other

theorem literal_refused {text : List Char} (unread : readPlain? text = none) :
    grammar.Derives total (.call .literal) .compound .straight text none [text.length] := by
  have derived : grammar.Derives total (.call .literal) .compound .straight text _ _ :=
    derives_literal (by decide) text
  simpa [unread] using derived

theorem dollar_refused {text : List Char} (other : text.head? ≠ some '$') :
    grammar.Derives total (.call .dollar) .compound .straight text none [text.length] := by
  have derived : grammar.Derives total (.call .dollar) .compound .straight text _ _ :=
    derives_mark rfl rfl (by decide) text
  simpa [other] using derived

theorem piece_none (total : Nat) {text : List Char} (unread : readPiece? text = none) :
    ∃ refusals, grammar.Derives total piece .compound .straight text none refusals ∧
      Furthest text.length refusals := by
  have single : ∀ tail, text = '\x27' :: tail → readQuoted? '\x27' tail = none := by
    rintro tail rfl
    simpa [readPiece?] using unread
  have double : ∀ tail, text = '\x22' :: tail → readQuoted? '\x22' tail = none := by
    rintro tail rfl
    simpa [readPiece?] using unread
  have noDollar : text.head? ≠ some '$' := by
    intro starts
    obtain ⟨tail, rfl⟩ := List.head?_eq_some_iff.mp starts
    simp only [readPiece?] at unread
    split at unread <;> simp at unread
  have plain : readPlain? text = none := by
    unfold readPiece? at unread
    split at unread
    · rfl
    · rfl
    · rfl
    · simpa using unread
  refine ⟨_, .altSecond (quoting_single.derives_none single)
    (.altSecond (quoting_double.derives_none double) (.altSecond (reference_refused noDollar)
      (.altSecond (literal_refused plain) (dollar_refused noDollar)))), ?_, ?_⟩ <;> simp

theorem piece_some (total : Nat) {text rest : List Char} {word : Word}
    (found : readPiece? text = some (word, rest)) :
    ∃ tree refusals, grammar.Derives total piece .compound .straight text (some ([tree], rest))
      refusals ∧ Word.ofTree? tree = some word ∧ ∀ refusal ∈ refusals, (readPieces rest).2.length ≤
        refusal := by
  have shorter : (readPieces rest).2.length ≤ text.length :=
    Nat.le_trans (suffix_readPieces rest).length_le (Nat.le_of_lt (length_lt_of_readPiece? found))
  unfold readPiece? at found
  split at found
  · next tail =>
      obtain ⟨⟨contents, behind⟩, quoted, same⟩ := Option.map_eq_some_iff.mp found
      obtain ⟨rfl, rfl⟩ := Prod.mk.inj same
      obtain ⟨tree, derived, ruleIs, textIs⟩ := quoting_single.derives_some quoted
      exact ⟨tree, _, .altFirst derived, by simp [Word.ofTree?, ruleIs, textIs], by simp⟩
  · next tail =>
      obtain ⟨⟨contents, behind⟩, quoted, same⟩ := Option.map_eq_some_iff.mp found
      obtain ⟨rfl, rfl⟩ := Prod.mk.inj same
      obtain ⟨tree, derived, ruleIs, textIs⟩ := quoting_double.derives_some quoted
      refine ⟨tree, _, .altSecond (quoting_single.derives_none_of_ne (by simp)) (.altFirst derived),
        by simp [Word.ofTree?, ruleIs, textIs], ?_⟩
      simpa using shorter
  · next tail =>
      have single : grammar.Derives total _ .compound .straight ('$' :: tail) _ _ :=
        quoting_single.derives_none_of_ne (by simp)
      have double : grammar.Derives total _ .compound .straight ('$' :: tail) _ _ :=
        quoting_double.derives_none_of_ne (by simp)
      split at found
      · next name behind referred =>
          obtain ⟨rfl, rfl⟩ := Prod.mk.inj (Option.some.inj found)
          obtain ⟨tree, refusals, derived, ruleIs, textIs, least⟩ := reference_some total referred
          refine ⟨tree, _, .altSecond single (.altSecond double (.altFirst derived)),
            by simp [Word.ofTree?, ruleIs, textIs], ?_⟩
          have behindWord := (suffix_readPieces behind).length_le
          grind
      · next unread =>
          obtain ⟨rfl, rfl⟩ := Prod.mk.inj (Option.some.inj found)
          obtain ⟨refusals, derived, least⟩ := reference_none total unread
          have dollar :
              grammar.Derives total (.call .dollar) .compound .straight ('$' :: tail) _ _ :=
            derives_mark rfl rfl (by decide) ('$' :: tail)
          refine ⟨_, _, .altSecond single (.altSecond double (.altSecond derived
            (.altSecond (literal_refused rfl) dollar))), rfl, ?_⟩
          grind
  · next noSingle noDouble noDollar =>
      obtain ⟨⟨contents, behind⟩, plain, same⟩ := Option.map_eq_some_iff.mp found
      obtain ⟨rfl, rfl⟩ := Prod.mk.inj same
      have ne_of_not {c : Char} (other : ∀ tail, text = c :: tail → False) :
          text.head? ≠ some c := by
        intro starts
        obtain ⟨tail, rfl⟩ := List.head?_eq_some_iff.mp starts
        exact other tail rfl
      have literal : grammar.Derives total (.call .literal) .compound .straight text _ _ :=
        derives_literal (by decide) text
      simp only [plain, Option.map_some, Option.isSome_some, if_true] at literal
      refine ⟨_, _, .altSecond (quoting_single.derives_none_of_ne (ne_of_not noSingle))
        (.altSecond (quoting_double.derives_none_of_ne (ne_of_not noDouble))
          (.altSecond (reference_refused (ne_of_not noDollar)) (.altFirst literal))), rfl, ?_⟩
      simpa using shorter

/-! Words. -/

theorem pieces_more (total : Nat) (text : List Char) :
    ∃ trees refusals, grammar.Derives total (.more piece) .compound .straight text
        (some (trees, (readPieces text).2)) refusals ∧
      trees.mapM Word.ofTree? = some (readPieces text).1 ∧
      Furthest (readPieces text).2.length refusals := by
  fun_induction readPieces text with
  | case1 text unread =>
      obtain ⟨refusals, derived, furthest⟩ := piece_none total unread
      exact ⟨_, _, .moreStop (by decide) derived, rfl, furthest⟩
  | case2 text word rest found inductionHypothesis =>
      obtain ⟨tree, refusals, derived, means, least⟩ := piece_some total found
      obtain ⟨trees, refusals', derivedMore, meansMore, furthest⟩ := inductionHypothesis
      refine ⟨_, _, .more (by decide) derived derivedMore, ?_, furthest.append_right least⟩
      simp [means, meansMore]

theorem pieces_star (total : Nat) (text : List Char) :
    ∃ trees refusals, grammar.Derives total piece.star .compound .straight text
        (some (trees, (readPieces text).2)) refusals ∧
      trees.mapM Word.ofTree? = some (readPieces text).1 ∧
      Furthest (readPieces text).2.length refusals := by
  cases found : readPiece? text with
  | none =>
      obtain ⟨refusals, derived, furthest⟩ := piece_none total found
      rw [readPieces_of_none found]
      exact ⟨_, _, .optNone (.joinRefused derived), rfl, furthest⟩
  | some pair =>
      obtain ⟨word, rest⟩ := pair
      obtain ⟨tree, refusals, derived, means, least⟩ := piece_some total found
      obtain ⟨trees, refusals', derivedMore, meansMore, furthest⟩ := pieces_more total rest
      rw [readPieces_of_some found]
      refine ⟨_, _, .opt (.join derived derivedMore), ?_, furthest.append_right least⟩
      simp [means, meansMore]

theorem word_some (total : Nat) {text : List Char} (found : readPiece? text ≠ none) :
    ∃ tree refusals, grammar.Derives total (.call .word) mode .straight text
        (some ([tree], (readPieces text).2)) refusals ∧
      tree.rule = .word ∧ tree.children.mapM Word.ofTree? = some (readPieces text).1 ∧
      Furthest (readPieces text).2.length refusals := by
  obtain ⟨⟨word, rest⟩, first⟩ := Option.ne_none_iff_exists'.mp found
  obtain ⟨tree, refusals, derived, means, least⟩ := piece_some total first
  obtain ⟨trees, refusals', derivedStar, meansStar, furthest⟩ := pieces_star total rest
  rw [readPieces_of_some first]
  refine ⟨_, _, compound_some rfl (.seq (by decide) (.join derived derivedStar)), rfl, ?_,
    furthest.append_right least⟩
  simp [Peg.Tree.children, means, meansStar]

theorem word_none (total : Nat) {text : List Char} (unread : readPiece? text = none) :
    ∃ refusals, grammar.Derives total (.call .word) mode .straight text none refusals ∧
      Furthest text.length refusals := by
  obtain ⟨refusals, derived, furthest⟩ := piece_none total unread
  exact ⟨_, compound_none rfl (.seq (by decide) (.joinRefused derived)),
    furthest.append_left (by simp)⟩

/-- Trees of words that together spell the given pieces. -/
structure Spells (trees : List (Peg.Tree Rule)) (words : List Word) : Prop where
  rule_eq : ∀ tree ∈ trees, tree.rule = .word
  means : Word.allOfTrees? trees = some words

theorem Spells.nil : Spells [] [] := ⟨by simp, rfl⟩

theorem Spells.cons {tree : Peg.Tree Rule} {trees : List (Peg.Tree Rule)} {words words' : List Word}
    (isWord : tree.rule = .word) (means : tree.children.mapM Word.ofTree? = some words)
    (spells : Spells trees words') : Spells (tree :: trees) (words ++ words') := by
  refine ⟨by simpa [isWord] using spells.rule_eq, ?_⟩
  have rest := spells.means
  simp only [Word.allOfTrees?] at rest ⊢
  simp [nodesOf, isWord, List.mapM_append, means] at rest ⊢
  simp [rest]

theorem words_repeat (total : Nat) (text : List Char) :
    ∃ trees rest refusals, Repeats total (.call .word) text (some (trees, rest)) refusals ∧
      skipFiller rest = (readWords (skipFiller text)).2 ∧
      Spells trees (readWords (skipFiller text)).1 ∧
      Furthest (readWords (skipFiller text)).2.length refusals := by
  induction size : text.length using Nat.strongRecOn generalizing text with
  | _ _ inductionHypothesis =>
      by_cases unread : readPiece? (skipFiller text) = none
      · obtain ⟨refusals, derived, furthest⟩ := word_none total unread
        rw [readWords_of_none unread]
        exact ⟨_, _, _, .stop rfl derived, rfl, .nil, furthest⟩
      · obtain ⟨tree, refusals, derived, isWord, means, furthest⟩ := word_some total unread
        have shorter : (readPieces (skipFiller text)).2.length < text.length :=
          Nat.lt_of_lt_of_le (length_readPieces_lt unread) (length_skipFiller_le text)
        obtain ⟨trees, rest, refusals', later, reached, spells, furthestLater⟩ :=
          inductionHypothesis _ (size ▸ shorter) _ rfl
        rw [readWords_of_some unread]
        exact ⟨_, rest, _, .step rfl derived later, reached, .cons isWord means spells,
          furthestLater.append_right (furthest.below (length_readWords_skipFiller_le _))⟩

theorem words_star (total : Nat) {text : List Char} (trimmed : skipFiller text = text) :
    ∃ trees rest refusals, grammar.Derives total (.star (.call .word)) .loose .straight text
        (some (trees, rest)) refusals ∧
      skipFiller rest = (readWords text).2 ∧ Spells trees (readWords text).1 ∧
      Furthest (readWords text).2.length refusals := by
  obtain ⟨trees, rest, refusals, repeated, reached, spells, furthest⟩ := words_repeat total text
  rw [trimmed] at reached spells furthest
  exact ⟨trees, rest, refusals, repeated.star trimmed, reached, spells, furthest⟩

theorem words_plus (total : Nat) {text : List Char} (found : readPiece? text ≠ none) :
    ∃ trees rest refusals, grammar.Derives total (.plus (.call .word)) .loose .straight text
        (some (trees, rest)) refusals ∧
      skipFiller rest = (readWords text).2 ∧ Spells trees (readWords text).1 ∧
      Furthest (readWords text).2.length refusals := by
  obtain ⟨tree, refusals, derived, isWord, means, furthest⟩ := word_some total found
  obtain ⟨trees, rest, refusals', derivedStar, reached, spells, furthestStar⟩ :=
    words_star total (skipFiller_skipFiller (readPieces text).2)
  rw [readWords_of_some found]
  refine ⟨_, rest, _, derives_seq derived rfl derivedStar, reached, .cons isWord means spells,
    furthestStar.append_right (furthest.below (length_readWords_skipFiller_le _))⟩

end CommandShell.Rule
