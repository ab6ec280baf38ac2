/-!
Grammars by ordered choice, as data.

An `Expr` describes how to match the text at a position. A `Grammar` gives every rule its body and
its kind, and says what filler may stand between the parts of a sequence. Whether filler is skipped
depends on the rules around: inside an atomic or a compound rule nothing is.
-/

namespace CommandShell.Peg

/-- How to match the text at a position. Choice is ordered, and repetition takes as much as it
can. -/
inductive Expr (Rule : Type) where
  /-- One character that is accepted. -/
  | char (accepts : Char → Bool)
  /-- Exactly these characters. -/
  | text (characters : List Char)
  /-- The empty text at the start of the input. -/
  | start
  /-- The empty text at the end of the input. -/
  | done
  /-- One after the other, with filler between. -/
  | seq (first second : Expr Rule)
  /-- One after the other, with nothing between. -/
  | join (first second : Expr Rule)
  /-- The first, and only if it fails the second. -/
  | alt (first second : Expr Rule)
  /-- The expression, or the empty text. -/
  | opt (body : Expr Rule)
  /-- Any number of further repetitions, filler before each. -/
  | more (body : Expr Rule)
  /-- The empty text where the expression matches. -/
  | ahead (body : Expr Rule)
  /-- The empty text where the expression does not match. -/
  | avoid (body : Expr Rule)
  /-- A rule of the grammar. -/
  | call (rule : Rule)

namespace Expr

variable {Rule : Type}

/-- Any number of repetitions, filler between them. -/
def star (body : Expr Rule) : Expr Rule := .opt (.join body (.more body))

/-- At least one repetition, filler between them and after the first. -/
def plus (body : Expr Rule) : Expr Rule := .seq body body.star

def any : Expr Rule := .char fun _ => true

def only (character : Char) : Expr Rule := .char fun c => c == character

/-- All the characters before the first place where the expression matches. -/
def upTo (stop : Expr Rule) : Expr Rule := .star (.seq (.avoid stop) .any)

/-- The first of the expressions that matches. -/
def oneOf (first : Expr Rule) : List (Expr Rule) → Expr Rule
  | [] => first
  | second :: rest => .alt first (oneOf second rest)

/-- All the expressions in order, with filler between. -/
def inOrder (first : Expr Rule) : List (Expr Rule) → Expr Rule
  | [] => first
  | second :: rest => .seq first (inOrder second rest)

end Expr

/-- How a rule treats filler, and whether it leaves a node in the tree. -/
inductive Kind where
  /-- Filler is skipped unless a rule around forbids it. -/
  | plain
  /-- No filler is skipped inside, and the rules inside leave no nodes. -/
  | atomic
  /-- No filler is skipped inside, but the rules inside leave their nodes. -/
  | compound
  deriving DecidableEq, Repr

structure Grammar (Rule : Type) where
  kind : Rule → Kind
  body : Rule → Expr Rule
  /-- What may stand between the parts of a sequence. It must match everywhere, if only the empty
  text. -/
  filler : Expr Rule

end CommandShell.Peg
