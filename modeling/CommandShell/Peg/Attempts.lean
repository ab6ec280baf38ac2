/-!
The furthest attempts of a run: the rules that were tried and refused at the furthest position at
which any rule was. They become the message of a failed parse.
-/

namespace CommandShell.Peg

/-- Whether the text is matched for good, or only looked at. -/
inductive Look where
  | straight
  | positive
  | negative
  deriving DecidableEq, Repr

namespace Look

def ahead : Look → Look
  | .negative => .negative
  | _ => .positive

/-- Inside a test that the expression does not match. -/
def avoid : Look → Look
  | .negative => .positive
  | _ => .negative

end Look

/-- The rules tried at the furthest position so far, the latest first: those that were wanted and
did not match, and those that were not wanted and did. -/
structure Attempts (Rule : Type) where
  position : Nat
  wanted : List Rule
  unwanted : List Rule
  deriving DecidableEq, Repr

namespace Attempts

variable {Rule : Type}

def none : Attempts Rule := ⟨0, [], []⟩

def count (attempts : Attempts Rule) (position : Nat) : Nat :=
  if attempts.position = position then attempts.wanted.length + attempts.unwanted.length else 0

def oldest (kept : Nat) (rules : List Rule) : List Rule :=
  rules.drop (rules.length - kept)

/-- Record that a rule was refused at a position, where `before` are the attempts from before the
rule was tried. If exactly one attempt at this position was made inside the rule, that one says more
and stays; otherwise the attempts made inside at this position are replaced by the rule itself. -/
def record (rule : Rule) (look : Look) (position : Nat) (before now : Attempts Rule) :
    Attempts Rule :=
  if now.count position - before.count position = 1 then now
  else if position < now.position then now
  else
    let base : Attempts Rule :=
      if now.position < position then ⟨position, [], []⟩
      else if before.position = position then
        ⟨position, oldest before.wanted.length now.wanted,
          oldest before.unwanted.length now.unwanted⟩
      else ⟨position, [], []⟩
    match look with
    | .negative => { base with unwanted := rule :: base.unwanted }
    | _ => { base with wanted := rule :: base.wanted }

end Attempts

end CommandShell.Peg
