import CommandShell.Peg.Tree
import CommandShell.Script.Basic
import CommandShell.Script.Rule

/-!
The script that a tree of matched rules stands for. The words that only mark the structure are left
out; a word is flattened into the pieces it is made of.
-/

namespace CommandShell

def nodesOf (rule : Rule) (trees : List (Peg.Tree Rule)) : List (Peg.Tree Rule) :=
  trees.filter fun tree => tree.rule = rule

def hasNode (rule : Rule) (trees : List (Peg.Tree Rule)) : Bool :=
  trees.any fun tree => tree.rule = rule

def firstText? (trees : List (Peg.Tree Rule)) : Option String :=
  trees.head?.map fun tree => String.ofList tree.text

namespace Word

/-- A piece of a word: a literal, a quoted text or a variable. -/
def ofTree? (tree : Peg.Tree Rule) : Option Word :=
  match tree.rule with
  | .literal | .dollar => some (.literal (String.ofList tree.text))
  | .singleQuoted | .doubleQuoted => (firstText? tree.children).map .literal
  | .reference => (firstText? tree.children).map .reference
  | _ => none

/-- The pieces of all the words among the trees, in order. -/
def allOfTrees? (trees : List (Peg.Tree Rule)) : Option (List Word) :=
  ((nodesOf .word trees).flatMap Peg.Tree.children).mapM ofTree?

end Word

/-- The programs of a pipeline; there is at least one. -/
def Pipeline.ofTree? (tree : Peg.Tree Rule) : Option Pipeline :=
  match nodesOf .program tree.children with
  | [] => none
  | programs => programs.mapM fun program => Word.allOfTrees? program.children

def Pipeline.firstOf? (trees : List (Peg.Tree Rule)) : Option Pipeline :=
  (nodesOf .pipeline trees).head?.bind Pipeline.ofTree?

def Command.assignmentOf? (children : List (Peg.Tree Rule)) : Option Command := do
  let name ← firstText? (nodesOf .name children)
  let value ← Word.allOfTrees? children
  return .assignment name value

def Command.loopOf? (children : List (Peg.Tree Rule)) (body : List Statement) : Option Command := do
  let name ← firstText? (nodesOf .name children)
  let values ← Word.allOfTrees? children
  return .loop (hasNode .parallelWord children) (.literal name) values body

/-- The conditional with the given branches; there is at least one. -/
def Command.conditionalOf? (fallback : Option (List Statement)) : List Branch → Option Command
  | [] => none
  | branches => some (.conditional branches fallback)

mutual

def branchesOfTrees? : List (Peg.Tree Rule) → Option (List Branch)
  | [] => some []
  | .node .branch _ children :: trees => do
    let test ← Pipeline.firstOf? children
    let body ← bodyOfTrees? children
    let branches ← branchesOfTrees? trees
    return .mk test body :: branches
  | _ :: trees => branchesOfTrees? trees

def bodyOfTrees? : List (Peg.Tree Rule) → Option (List Statement)
  | [] => none
  | .node .body _ children :: _ => statementsOfTrees? children
  | _ :: trees => bodyOfTrees? trees

/-- The only body that stands directly below a conditional is its fallback. -/
def fallbackOfTrees? : List (Peg.Tree Rule) → Option (Option (List Statement))
  | [] => some none
  | .node .body _ children :: _ => (statementsOfTrees? children).map some
  | _ :: trees => fallbackOfTrees? trees

def statementsOfTrees? : List (Peg.Tree Rule) → Option (List Statement)
  | [] => some []
  | .node .statement _ [] :: _ => none
  | .node .statement _ (.node rule text parts :: marks) :: trees => do
    let command ← match rule with
      | .conditional =>
        (branchesOfTrees? parts).bind fun branches =>
          (fallbackOfTrees? parts).bind fun fallback => Command.conditionalOf? fallback branches
      | .loop => (bodyOfTrees? parts).bind (Command.loopOf? parts)
      | .assignment => Command.assignmentOf? parts
      | .pipeline => (Pipeline.ofTree? (.node rule text parts)).map .pipeline
      | _ => none
    let statements ← statementsOfTrees? trees
    return .mk command (hasNode .background marks) :: statements
  | _ :: trees => statementsOfTrees? trees

end

/-- The script that the tree of a whole input stands for. -/
def Script.ofTree? (tree : Peg.Tree Rule) : Option Script := statementsOfTrees? tree.children

end CommandShell
