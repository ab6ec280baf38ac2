import CommandShell.Tool.Interpreter.Expand

/-!
Other places for what commands read and write.
-/

namespace CommandShell.Interpreter

def Plan.descriptor : Plan → Descriptor
  | .file _ descriptor _ => descriptor
  | .copy descriptor _ => descriptor
  | .document descriptor _ => descriptor

/-- Where copies are of descriptors that were replaced; nothing stands for one that was not in
use. -/
abbrev Replaced := List (Descriptor × Option Descriptor)

namespace Running

def sourceOf (descriptor : Descriptor) (word : Word) : Running Plan := do
  match ← fieldsOf word with
  | ['-'] :: _ => return .copy descriptor none
  | [c] :: _ => if c.isDigit then return .copy descriptor (some (c.toNat - 48)) else bad
  | _ => bad
where
  bad : Running Plan := do
    modify fun state => { state with line := state.readLine }
    fail "Syntax error: Bad fd number".toList

def plan : List Redirection → Running (List Plan)
  | [] => return []
  | redirection :: rest => do
    let first ←
      match redirection with
      | .file direction descriptor path => do
        pure (Plan.file direction descriptor (← textOf path))
      | .copy descriptor source => pure (.copy descriptor source)
      | .copyOf descriptor source => sourceOf descriptor source
      | .document descriptor number => pure (.document descriptor number)
    let others ← plan rest
    return first :: others

def openFile (use : Use) (path : List Char) (opening : Opening) : Running Descriptor := do
  match ← ask (.open (Bytes.ofChars path) opening) with
  | .ok descriptor => return descriptor
  | .error errno =>
    let action := if use = .creating then "cannot create " else "cannot open "
    fail (action.toList ++ path ++ [':', ' '] ++ use.text errno)

/-- Open a file to write it, but not one that has content if that is protected. -/
def openProtected (path : List Char) : Running Descriptor := do
  match ← ask (.stat (Bytes.ofChars path) true) with
  | .error _ => openFile .creating path { writable := true, create := true, exclusive := true }
  | .ok status =>
    if status.kind = .regular then
      fail ("cannot create ".toList ++ path ++ [':', ' '] ++ Use.text .creating .alreadyExists)
    else openFile .creating path { writable := true }

/-- The most of a document that a pipe takes at once. -/
def pipeAmount : Nat := 4096

def openText (text : List Char) : Running Descriptor := do
  match ← ask .openPipe with
  | .error _ => fail "Pipe call failed".toList
  | .ok pipe =>
    if text.length ≤ pipeAmount then
      let _ ← ask (.write pipe.writeEnd (Bytes.ofChars text))
    else fork none false [.close pipe.readEnd] (.text pipe.writeEnd text)
    let _ ← ask (.close pipe.writeEnd)
    return pipe.readEnd

/-- Open what a redirection leads to. Nothing says that there is nothing to do. -/
def openPlan : Plan → Running (Option (Option Descriptor))
  | .file direction _ path => do
    let descriptor ←
      match direction with
      | .reading => openFile .opening path { readable := true }
      | .updating => openFile .creating path { readable := true, writable := true, create := true }
      | .appending => openFile .creating path { writable := true, create := true, append := true }
      | .overwriting =>
          openFile .creating path { writable := true, create := true, truncate := true }
      | .writing => do
        if (← get).has 'C' then openProtected path
        else openFile .creating path { writable := true, create := true, truncate := true }
    return some (some descriptor)
  | .copy descriptor source => return if source = some descriptor then none else some source
  | .document _ number => do return some (some (← openText (← documentOf number)))

def setAside (descriptor : Descriptor) : Running (Option Descriptor) := do
  match ← ask (.setAside descriptor 10) with
  | .ok copy =>
    let _ ← ask (.close descriptor)
    return some copy
  | .error _ => return none

def connect (plan : Plan) (source : Option Descriptor) : Running Unit := do
  let target := plan.descriptor
  match plan, source with
  | .copy _ _, some source =>
    match ← ask (.duplicate source target) with
    | .ok () => return ()
    | .error errno => fail (digitsOf source ++ [':', ' '] ++ errno.systemText.toList)
  | .copy _ _, none =>
    let _ ← ask (.close target)
  | _, some source =>
    let _ ← ask (.duplicate source target)
    let _ ← ask (.close source)
  | _, none => return ()

def carryOut (keep : Bool) (replaced : Replaced) (plan : Plan) :
    Running (Replaced × Except Raise Unit) := do
  match ← attempt (openPlan plan) with
  | .error raise => return (replaced, .error raise)
  | .ok none => return (replaced, .ok ())
  | .ok (some source) =>
    let target := plan.descriptor
    let replaced ←
      if !keep || replaced.any (fun entry => entry.1 = target) then pure replaced
      else if source = some target then pure ((target, none) :: replaced)
      else do pure ((target, ← setAside target) :: replaced)
    if source = some target then return (replaced, .ok ())
    return (replaced, ← attempt (connect plan source))

def undo (forget : Bool) (replaced : Replaced) : Running Unit :=
  each (fun entry => do
    match entry.2 with
    | some copy =>
      if !forget then
        let _ ← ask (.duplicate copy entry.1)
      let _ ← ask (.close copy)
    | none =>
      if !forget then
        let _ ← ask (.close entry.1)) replaced

/-- Carry out redirections one after the other. If one fails, those before it are undone. -/
def carryOutAll (keep : Bool) (replaced : Replaced) : List Plan → Running Replaced
  | [] => return replaced
  | plan :: rest => do
    match ← carryOut keep replaced plan with
    | (replaced, .ok ()) => carryOutAll keep replaced rest
    | (replaced, .error raise) =>
      undo false replaced
      throw raise

/-- Carry out redirections for a command. Nothing is the answer if one fails. -/
def redirectSafely (plans : List Plan) : Running (Option Replaced) := do
  match ← attempt (carryOutAll true [] plans) with
  | .ok replaced => return some replaced
  | .error .failure => return none
  | .error raise => throw raise

end Running

end CommandShell.Interpreter
