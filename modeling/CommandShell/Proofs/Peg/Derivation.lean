import CommandShell.Peg.Run

/-!
Derivations of a grammar.

`Grammar.Derives` says what comes of following an expression from a text, with no bound on the
depth. A result is a refusal, or the nodes of the matched rules with the text behind them. Beside it
stand the refusals that were noted on the way, each by the number of characters that were left where
it happened.
-/

namespace CommandShell.Peg

variable {Rule : Type}

@[simp]
theorem Tree.rule_node (rule : Rule) (text : List Char) (children : List (Tree Rule)) :
    (Tree.node rule text children).rule = rule := rfl

@[simp]
theorem Tree.children_node (rule : Rule) (text : List Char) (children : List (Tree Rule)) :
    (Tree.node rule text children).children = children := rfl

/-- What a match gives: the nodes in order, and the text behind it. -/
abbrev Found (Rule : Type) := List (Tree Rule) × List Char

/-- A match that follows nodes matched before it. -/
def Found.after (trees : List (Tree Rule)) (found : Found Rule) : Found Rule :=
  (trees ++ found.1, found.2)

@[simp]
theorem Found.after_nil : (Found.after [] : Found Rule → Found Rule) = id := rfl

@[simp]
theorem Found.map_after_map_after (trees more : List (Tree Rule)) (result : Option (Found Rule)) :
    (result.map (Found.after more)).map (Found.after trees) =
      result.map (Found.after (trees ++ more)) := by
  cases result <;> simp [Found.after]

namespace Grammar

/-- The match of a rule: its node around the nodes inside, unless the rules around leave none. -/
def enclose (rule : Rule) (mode : Mode) (text : List Char) (found : Found Rule) : Found Rule :=
  (if mode = .atomic then []
    else [.node rule (text.take (text.length - found.2.length)) found.1], found.2)

/-- What is noted when a rule is left. -/
def noted (mode : Mode) (look : Look) (text : List Char) (result : Option (Found Rule)) :
    List Nat :=
  if (if look = .negative then result.isSome else result.isNone) && mode ≠ .atomic then
    [text.length]
  else []

/-- What comes of following an expression from a text, in an input of `total` characters. -/
inductive Derives (grammar : Grammar Rule) (total : Nat) :
    Expr Rule → Mode → Look → List Char → Option (Found Rule) → List Nat → Prop where
  | char {accepts mode look c rest} : accepts c = true →
      Derives grammar total (.char accepts) mode look (c :: rest) (some ([], rest)) []
  | charRefused {accepts mode look text} : (∀ c ∈ text.head?, accepts c = false) →
      Derives grammar total (.char accepts) mode look text none []
  | text {characters mode look rest} :
      Derives grammar total (.text characters) mode look (characters ++ rest) (some ([], rest)) []
  | textRefused {characters mode look text} : ¬ characters <+: text →
      Derives grammar total (.text characters) mode look text none []
  | start {mode look text} : text.length = total →
      Derives grammar total .start mode look text (some ([], text)) []
  | startRefused {mode look text} : text.length ≠ total →
      Derives grammar total .start mode look text none []
  | done {mode look} : Derives grammar total .done mode look [] (some ([], [])) []
  | doneRefused {mode look text} : text ≠ [] →
      Derives grammar total .done mode look text none []
  | joinRefused {first second mode look text refusals} :
      Derives grammar total first mode look text none refusals →
      Derives grammar total (.join first second) mode look text none refusals
  | join {first second mode look text trees rest result refusals refusals'} :
      Derives grammar total first mode look text (some (trees, rest)) refusals →
      Derives grammar total second mode look rest result refusals' →
      Derives grammar total (.join first second) mode look text (result.map (Found.after trees))
        (refusals ++ refusals')
  | seq {first second mode look text result refusals} : mode ≠ .loose →
      Derives grammar total (.join first second) mode look text result refusals →
      Derives grammar total (.seq first second) mode look text result refusals
  | seqRefused {first second look text refusals} :
      Derives grammar total first .loose look text none refusals →
      Derives grammar total (.seq first second) .loose look text none refusals
  | seqBlocked {first second look text trees rest refusals refusals'} :
      Derives grammar total first .loose look text (some (trees, rest)) refusals →
      Derives grammar total grammar.filler .atomic look rest none refusals' →
      Derives grammar total (.seq first second) .loose look text none (refusals ++ refusals')
  | seqLoose {first second look text trees rest trees' rest' result refusals refusals' refusals''} :
      Derives grammar total first .loose look text (some (trees, rest)) refusals →
      Derives grammar total grammar.filler .atomic look rest (some (trees', rest')) refusals' →
      Derives grammar total second .loose look rest' result refusals'' →
      Derives grammar total (.seq first second) .loose look text
        (result.map (Found.after (trees ++ trees'))) (refusals ++ refusals' ++ refusals'')
  | altFirst {first second mode look text found refusals} :
      Derives grammar total first mode look text (some found) refusals →
      Derives grammar total (.alt first second) mode look text (some found) refusals
  | altSecond {first second mode look text result refusals refusals'} :
      Derives grammar total first mode look text none refusals →
      Derives grammar total second mode look text result refusals' →
      Derives grammar total (.alt first second) mode look text result (refusals ++ refusals')
  | opt {body mode look text found refusals} :
      Derives grammar total body mode look text (some found) refusals →
      Derives grammar total (.opt body) mode look text (some found) refusals
  | optNone {body mode look text refusals} :
      Derives grammar total body mode look text none refusals →
      Derives grammar total (.opt body) mode look text (some ([], text)) refusals
  | moreStop {body mode look text refusals} : mode ≠ .loose →
      Derives grammar total body mode look text none refusals →
      Derives grammar total (.more body) mode look text (some ([], text)) refusals
  | moreBlocked {body look text refusals} :
      Derives grammar total grammar.filler .atomic look text none refusals →
      Derives grammar total (.more body) .loose look text (some ([], text)) refusals
  | moreStopLoose {body look text trees rest refusals refusals'} :
      Derives grammar total grammar.filler .atomic look text (some (trees, rest)) refusals →
      Derives grammar total body .loose look rest none refusals' →
      Derives grammar total (.more body) .loose look text (some ([], text)) (refusals ++ refusals')
  | more {body mode look text trees rest result refusals refusals'} : mode ≠ .loose →
      Derives grammar total body mode look text (some (trees, rest)) refusals →
      Derives grammar total (.more body) mode look rest result refusals' →
      Derives grammar total (.more body) mode look text (result.map (Found.after trees))
        (refusals ++ refusals')
  | moreLoose {body look text trees rest trees' rest' result refusals refusals' refusals''} :
      Derives grammar total grammar.filler .atomic look text (some (trees, rest)) refusals →
      Derives grammar total body .loose look rest (some (trees', rest')) refusals' →
      Derives grammar total (.more body) .loose look rest' result refusals'' →
      Derives grammar total (.more body) .loose look text
        (result.map (Found.after (trees ++ trees'))) (refusals ++ refusals' ++ refusals'')
  | ahead {body mode look text found refusals} :
      Derives grammar total body mode look.ahead text (some found) refusals →
      Derives grammar total (.ahead body) mode look text (some ([], text)) refusals
  | aheadRefused {body mode look text refusals} :
      Derives grammar total body mode look.ahead text none refusals →
      Derives grammar total (.ahead body) mode look text none refusals
  | avoid {body mode look text refusals} :
      Derives grammar total body mode look.avoid text none refusals →
      Derives grammar total (.avoid body) mode look text (some ([], text)) refusals
  | avoidRefused {body mode look text found refusals} :
      Derives grammar total body mode look.avoid text (some found) refusals →
      Derives grammar total (.avoid body) mode look text none refusals
  | call {rule mode look text result refusals} :
      Derives grammar total (grammar.body rule) (innerMode (grammar.kind rule) mode) look text
        result refusals →
      Derives grammar total (.call rule) mode look text
        (result.map (enclose rule (entryMode (grammar.kind rule) mode) text))
        (refusals ++ noted (entryMode (grammar.kind rule) mode) look text result)

variable {grammar : Grammar Rule} {total : Nat} {expr : Expr Rule} {mode : Mode} {look : Look}
  {text : List Char} {result : Option (Found Rule)} {refusals : List Nat}

theorem Derives.suffix (derived : grammar.Derives total expr mode look text result refusals) :
    ∀ found ∈ result, found.2 <:+ text := by
  induction derived with
  | char | text => simp
  | done | charRefused | textRefused | startRefused | doneRefused | start => simp
  | joinRefused | seqRefused | seqBlocked | aheadRefused | avoidRefused => simp
  | optNone | moreStop | moreBlocked | moreStopLoose | ahead | avoid => simp
  | seq _ _ inductionHypothesis => exact inductionHypothesis
  | altFirst _ inductionHypothesis | opt _ inductionHypothesis => exact inductionHypothesis
  | altSecond _ _ _ inductionHypothesis => exact inductionHypothesis
  | join _ _ first second | more _ _ _ first second =>
      intro found membership
      obtain ⟨inner, innerMembership, rfl⟩ := Option.map_eq_some_iff.mp membership
      exact (second inner innerMembership).trans (first _ rfl)
  | seqLoose _ _ _ first filler second | moreLoose _ _ _ first filler second =>
      intro found membership
      obtain ⟨inner, innerMembership, rfl⟩ := Option.map_eq_some_iff.mp membership
      exact (second inner innerMembership).trans ((filler _ rfl).trans (first _ rfl))
  | call _ inductionHypothesis =>
      intro found membership
      obtain ⟨inner, innerMembership, rfl⟩ := Option.map_eq_some_iff.mp membership
      exact inductionHypothesis inner innerMembership

theorem Derives.length_le (derived : grammar.Derives total expr mode look text result refusals) :
    ∀ found ∈ result, found.2.length ≤ text.length :=
  fun found membership => (derived.suffix found membership).length_le

theorem Derives.call_some {rule : Rule} {trees : List (Tree Rule)} {rest : List Char}
    (outside : entryMode (grammar.kind rule) mode ≠ .atomic)
    (inside : grammar.Derives total (grammar.body rule) (innerMode (grammar.kind rule) mode)
      .straight text (some (trees, rest)) refusals) :
    grammar.Derives total (.call rule) mode .straight text
      (some ([.node rule (text.take (text.length - rest.length)) trees], rest)) refusals := by
  simpa [noted, enclose, outside] using inside.call

theorem Derives.call_none {rule : Rule} (outside : entryMode (grammar.kind rule) mode ≠ .atomic)
    (inside : grammar.Derives total (grammar.body rule) (innerMode (grammar.kind rule) mode)
      .straight text none refusals) :
    grammar.Derives total (.call rule) mode .straight text none (refusals ++ [text.length]) := by
  simpa [noted, outside] using inside.call

end Grammar

/-- The refusal that happened where the fewest characters were left. -/
structure Furthest (left : Nat) (refusals : List Nat) : Prop where
  noted : left ∈ refusals
  least : ∀ refusal ∈ refusals, left ≤ refusal

namespace Furthest

variable {left : Nat} {first second : List Nat}

theorem single : Furthest left [left] := ⟨by simp, by simp⟩

theorem append_left (furthest : Furthest left first) (least : ∀ refusal ∈ second, left ≤ refusal) :
    Furthest left (first ++ second) :=
  ⟨List.mem_append_left _ furthest.noted, List.forall_mem_append.mpr ⟨furthest.least, least⟩⟩

theorem append_right (furthest : Furthest left second) (least : ∀ refusal ∈ first, left ≤ refusal) :
    Furthest left (first ++ second) :=
  ⟨List.mem_append_right _ furthest.noted, List.forall_mem_append.mpr ⟨least, furthest.least⟩⟩

theorem below (furthest : Furthest left first) {lower : Nat} (lower_le : lower ≤ left) :
    ∀ refusal ∈ first, lower ≤ refusal :=
  fun refusal membership => Nat.le_trans lower_le (furthest.least refusal membership)

end Furthest

end CommandShell.Peg
