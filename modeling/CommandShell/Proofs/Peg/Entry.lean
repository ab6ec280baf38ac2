import CommandShell.Proofs.Peg.Derivation

/-!
What is entered on the way through a text.

An `Entry` is an expression about to be followed from a text. `Grammar.Enters` relates an entry to
those that are followed for it, each where the text has been read to by then. Nothing else is
needed: an entry comes to an end if all those it enters do.
-/

namespace CommandShell.Peg

variable {Rule : Type}

/-- An expression that is followed from a text. -/
structure Entry (Rule : Type) where
  expr : Expr Rule
  mode : Mode
  look : Look
  text : List Char

/-- The expressions right inside an expression. -/
def Expr.parts : Expr Rule → List (Expr Rule)
  | .seq first second | .join first second | .alt first second => [first, second]
  | .opt body | .more body | .ahead body | .avoid body => [body]
  | .char _ | .text _ | .start | .done | .call _ => []

namespace Grammar

/-- The expressions of which a grammar is made up. -/
inductive Has (grammar : Grammar Rule) : Expr Rule → Prop where
  | filler : Has grammar grammar.filler
  | call (rule : Rule) : Has grammar (.call rule)
  | body (rule : Rule) : Has grammar (grammar.body rule)
  | part {outer inner : Expr Rule} : Has grammar outer → inner ∈ outer.parts → Has grammar inner

/-- An entry comes to an end, with a match or a refusal. -/
def Ends (grammar : Grammar Rule) (total : Nat) (entry : Entry Rule) : Prop :=
  ∃ result refusals, grammar.Derives total entry.expr entry.mode entry.look entry.text result
    refusals

/-- An entry ends with a match, and `rest` is the text behind it. -/
def Passes (grammar : Grammar Rule) (total : Nat) (entry : Entry Rule) (rest : List Char) : Prop :=
  ∃ trees refusals,
    grammar.Derives total entry.expr entry.mode entry.look entry.text (some (trees, rest)) refusals

/-- An entry ends with a refusal. -/
def Refuses (grammar : Grammar Rule) (total : Nat) (entry : Entry Rule) : Prop :=
  ∃ refusals, grammar.Derives total entry.expr entry.mode entry.look entry.text none refusals

/-- What stands between two parts is skipped: filler, if the mode allows it. -/
def Skips (grammar : Grammar Rule) (total : Nat) (mode : Mode) (look : Look)
    (text rest : List Char) : Prop :=
  if mode = .loose then grammar.Passes total ⟨grammar.filler, .atomic, look, text⟩ rest
  else rest = text

/-- The entries that are followed for an entry. -/
inductive Enters (grammar : Grammar Rule) (total : Nat) : Entry Rule → Entry Rule → Prop where
  | seqFirst {first second mode look text} :
      Enters grammar total ⟨.seq first second, mode, look, text⟩ ⟨first, mode, look, text⟩
  | seqFiller {first second look text rest} :
      grammar.Passes total ⟨first, .loose, look, text⟩ rest →
      Enters grammar total ⟨.seq first second, .loose, look, text⟩ ⟨grammar.filler, .atomic, look,
        rest⟩
  | seqSecond {first second mode look text rest rest'} :
      grammar.Passes total ⟨first, mode, look, text⟩ rest →
      grammar.Skips total mode look rest rest' →
      Enters grammar total ⟨.seq first second, mode, look, text⟩ ⟨second, mode, look, rest'⟩
  | joinFirst {first second mode look text} :
      Enters grammar total ⟨.join first second, mode, look, text⟩ ⟨first, mode, look, text⟩
  | joinSecond {first second mode look text rest} :
      grammar.Passes total ⟨first, mode, look, text⟩ rest →
      Enters grammar total ⟨.join first second, mode, look, text⟩ ⟨second, mode, look, rest⟩
  | altFirst {first second mode look text} :
      Enters grammar total ⟨.alt first second, mode, look, text⟩ ⟨first, mode, look, text⟩
  | altSecond {first second mode look text} : grammar.Refuses total ⟨first, mode, look, text⟩ →
      Enters grammar total ⟨.alt first second, mode, look, text⟩ ⟨second, mode, look, text⟩
  | opt {body mode look text} :
      Enters grammar total ⟨.opt body, mode, look, text⟩ ⟨body, mode, look, text⟩
  | moreFiller {body look text} :
      Enters grammar total ⟨.more body, .loose, look, text⟩ ⟨grammar.filler, .atomic, look, text⟩
  | moreBody {body mode look text rest} : grammar.Skips total mode look text rest →
      Enters grammar total ⟨.more body, mode, look, text⟩ ⟨body, mode, look, rest⟩
  | moreAgain {body mode look text rest rest'} : grammar.Skips total mode look text rest →
      grammar.Passes total ⟨body, mode, look, rest⟩ rest' →
      Enters grammar total ⟨.more body, mode, look, text⟩ ⟨.more body, mode, look, rest'⟩
  | ahead {body mode look text} :
      Enters grammar total ⟨.ahead body, mode, look, text⟩ ⟨body, mode, look.ahead, text⟩
  | avoid {body mode look text} :
      Enters grammar total ⟨.avoid body, mode, look, text⟩ ⟨body, mode, look.avoid, text⟩
  | call {rule mode look text} :
      Enters grammar total ⟨.call rule, mode, look, text⟩
        ⟨grammar.body rule, innerMode (grammar.kind rule) mode, look, text⟩

variable {grammar : Grammar Rule} {total : Nat} {outer inner entry : Entry Rule} {mode : Mode}
  {look : Look} {text rest : List Char}

theorem Enters.has (enters : grammar.Enters total outer inner) (has : grammar.Has outer.expr) :
    grammar.Has inner.expr := by
  cases enters with
  | seqFirst | joinFirst | altFirst => exact has.part (.head _)
  | seqSecond | joinSecond | altSecond => exact has.part (.tail _ (.head _))
  | opt | moreBody | ahead | avoid => exact has.part (.head _)
  | seqFiller | moreFiller => exact .filler
  | moreAgain => exact has
  | call => exact .body _

theorem skips_strict (strict : mode ≠ .loose) : grammar.Skips total mode look text text := by
  simp [Skips, strict]

theorem skips_loose (passes : grammar.Passes total ⟨grammar.filler, .atomic, look, text⟩ rest) :
    grammar.Skips total .loose look text rest := by
  simpa [Skips] using passes

theorem ends_of_enters
    (ends : ∀ inner, grammar.Enters total entry inner → grammar.Ends total inner) :
    grammar.Ends total entry := by
  obtain ⟨expr, mode, look, text⟩ := entry
  cases expr with
  | char accepts =>
      cases text with
      | nil => exact ⟨_, _, .charRefused (by simp)⟩
      | cons c rest =>
          cases accepted : accepts c with
          | true => exact ⟨_, _, .char accepted⟩
          | false => exact ⟨_, _, .charRefused (by simpa using accepted)⟩
  | text characters =>
      by_cases starts : characters <+: text
      · obtain ⟨rest, rfl⟩ := starts
        exact ⟨_, _, .text⟩
      · exact ⟨_, _, .textRefused starts⟩
  | start =>
      by_cases whole : text.length = total
      · exact ⟨_, _, .start whole⟩
      · exact ⟨_, _, .startRefused whole⟩
  | done =>
      cases text with
      | nil => exact ⟨_, _, .done⟩
      | cons c rest => exact ⟨_, _, .doneRefused (by simp)⟩
  | join first second =>
      obtain ⟨_ | ⟨trees, rest⟩, _, derived⟩ := ends _ .joinFirst
      · exact ⟨_, _, .joinRefused derived⟩
      · obtain ⟨_, _, derivedSecond⟩ := ends _ (.joinSecond ⟨_, _, derived⟩)
        exact ⟨_, _, .join derived derivedSecond⟩
  | seq first second =>
      obtain ⟨_ | ⟨trees, rest⟩, _, derived⟩ := ends _ .seqFirst
      · by_cases loose : mode = .loose
        · subst loose
          exact ⟨_, _, .seqRefused derived⟩
        · exact ⟨_, _, .seq loose (.joinRefused derived)⟩
      · have passes : grammar.Passes total ⟨first, mode, look, text⟩ rest := ⟨_, _, derived⟩
        by_cases loose : mode = .loose
        · subst loose
          obtain ⟨_ | ⟨trees', rest'⟩, _, derivedFiller⟩ := ends _ (.seqFiller passes)
          · exact ⟨_, _, .seqBlocked derived derivedFiller⟩
          · obtain ⟨_, _, derivedSecond⟩ :=
              ends _ (.seqSecond passes (skips_loose ⟨_, _, derivedFiller⟩))
            exact ⟨_, _, .seqLoose derived derivedFiller derivedSecond⟩
        · obtain ⟨_, _, derivedSecond⟩ := ends _ (.seqSecond passes (skips_strict loose))
          exact ⟨_, _, .seq loose (.join derived derivedSecond)⟩
  | alt first second =>
      obtain ⟨_ | found, _, derived⟩ := ends _ .altFirst
      · obtain ⟨_, _, derivedSecond⟩ := ends _ (.altSecond ⟨_, derived⟩)
        exact ⟨_, _, .altSecond derived derivedSecond⟩
      · exact ⟨_, _, .altFirst derived⟩
  | opt body =>
      obtain ⟨_ | found, _, derived⟩ := ends _ .opt
      · exact ⟨_, _, .optNone derived⟩
      · exact ⟨_, _, .opt derived⟩
  | more body =>
      by_cases loose : mode = .loose
      · subst loose
        obtain ⟨_ | ⟨trees, rest⟩, _, derivedFiller⟩ := ends _ .moreFiller
        · exact ⟨_, _, .moreBlocked derivedFiller⟩
        · have skips : grammar.Skips total .loose look text rest :=
            skips_loose ⟨_, _, derivedFiller⟩
          obtain ⟨_ | ⟨trees', rest'⟩, _, derived⟩ := ends _ (.moreBody skips)
          · exact ⟨_, _, .moreStopLoose derivedFiller derived⟩
          · obtain ⟨_, _, later⟩ := ends _ (.moreAgain skips ⟨_, _, derived⟩)
            exact ⟨_, _, .moreLoose derivedFiller derived later⟩
      · have skips : grammar.Skips total mode look text text := skips_strict loose
        obtain ⟨_ | ⟨trees, rest⟩, _, derived⟩ := ends _ (.moreBody skips)
        · exact ⟨_, _, .moreStop loose derived⟩
        · obtain ⟨_, _, later⟩ := ends _ (.moreAgain skips ⟨_, _, derived⟩)
          exact ⟨_, _, .more loose derived later⟩
  | ahead body =>
      obtain ⟨_ | found, _, derived⟩ := ends _ .ahead
      · exact ⟨_, _, .aheadRefused derived⟩
      · exact ⟨_, _, .ahead derived⟩
  | avoid body =>
      obtain ⟨_ | found, _, derived⟩ := ends _ .avoid
      · exact ⟨_, _, .avoid derived⟩
      · exact ⟨_, _, .avoidRefused derived⟩
  | call rule =>
      obtain ⟨_, _, derived⟩ := ends _ .call
      exact ⟨_, _, .call derived⟩

end Grammar

end CommandShell.Peg
