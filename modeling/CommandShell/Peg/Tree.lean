/-!
The tree of a successful run: one node for every rule that was matched, with the text it matched and
the nodes of the rules inside.
-/

namespace CommandShell.Peg

inductive Tree (Rule : Type) where
  | node (rule : Rule) (text : List Char) (children : List (Tree Rule))

namespace Tree

variable {Rule : Type}

def rule : Tree Rule → Rule
  | .node rule _ _ => rule

def text : Tree Rule → List Char
  | .node _ text _ => text

def children : Tree Rule → List (Tree Rule)
  | .node _ _ children => children

end Tree

end CommandShell.Peg
