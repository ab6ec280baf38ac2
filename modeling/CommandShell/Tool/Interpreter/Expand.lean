import CommandShell.Tool.Interpreter.Arithmetic
import CommandShell.Tool.Interpreter.Fields
import CommandShell.Tool.Interpreter.Jobs

/-!
Filling in what words stand for: homes, parameters, the output of commands, arithmetic and file
names.
-/

namespace CommandShell.Interpreter

/-! Homes -/

def homeOf (state : State) (name : List Char) : Option (List Char) :=
  if name.isEmpty then state.lookup "HOME".toList
  else if name = "root".toList then some "/root".toList
  else none

def quotedText (chars : List Char) : List Part := if chars.isEmpty then [] else [.text chars true]

def plainText (chars : List Char) : List Part := if chars.isEmpty then [] else [.text chars false]

/-- The tilde at the start of a text, which ends its word or not, filled in; the end of the name is
at a slash, or at a colon too. -/
def fillTilde (state : State) (atColon last : Bool) (chars : List Char) :
    Option (List Char × List Char) :=
  match chars with
  | '~' :: rest =>
    let name := rest.takeWhile fun c => c ≠ '/' && !(atColon && c = ':')
    let behind := rest.drop name.length
    if behind.isEmpty && !last then none
    else (homeOf state name).map fun home => (home, behind)
  | _ => none

/-- The tildes behind colons in a text filled in, in so many steps; `ready` says whether one may
come next, and `read` is the text before, the latest first. -/
def fillTildesFrom (state : State) (last ready : Bool) (read : List Char) :
    Nat → List Char → List Part
  | 0, _ => plainText read.reverse
  | _, [] => plainText read.reverse
  | steps + 1, c :: rest =>
    match if ready then fillTilde state true last (c :: rest) else none with
    | some (home, behind) =>
      plainText read.reverse ++ quotedText home ++ fillTildesFrom state last false [] steps behind
    | none => fillTildesFrom state last (c = ':') (c :: read) steps rest

def fillHome (state : State) (word : Word) : Word :=
  match word with
  | .text chars false :: rest =>
    match fillTilde state false rest.isEmpty chars with
    | some (home, behind) => quotedText home ++ plainText behind ++ rest
    | none => word
  | _ => word

def fillHomes (state : State) (word : Word) : Word :=
  match word with
  | .text chars false :: rest =>
    fillTildesFrom state rest.isEmpty true [] (chars.length + 1) chars ++ later rest
  | _ => later word
where
  later : Word → Word
    | [] => []
    | .text chars false :: rest =>
      fillTildesFrom state rest.isEmpty false [] (chars.length + 1) chars ++ later rest
    | part :: rest => part :: later rest

def splitAssignment (word : Word) : List Char × Word :=
  match word with
  | .text chars false :: rest =>
    let name := chars.takeWhile (· ≠ '=')
    (name, plainText (chars.drop (name.length + 1)) ++ rest)
  | _ => ([], word)

/-! Parameters -/

inductive Value where
  | none
  | text (chars : List Char)
  /-- The arguments; with a star they are joined where the others are kept apart. -/
  | arguments (star : Bool) (all : List (List Char))

def State.parameter (state : State) (name : List Char) : Value :=
  let optional (value : Option (List Char)) : Value :=
    match value with
    | some chars => .text chars
    | none => .none
  match name with
  | ['$'] => .text (digitsOf state.pid)
  | ['?'] => .text (digitsOf state.status)
  | ['#'] => .text (digitsOf state.arguments.length)
  | ['!'] => optional (state.lastBackground.map fun pid => digitsOf pid)
  | ['-'] => .text state.shownSettings
  | ['@'] => .arguments false state.arguments
  | ['*'] => .arguments true state.arguments
  | c :: _ =>
    if c.isDigit then
      let number := Tool.valueOf 10 name
      if number = 0 then .text state.name else optional state.arguments[number - 1]?
    else optional (state.lookup name)
  | [] => .none

def State.join (state : State) (arguments : List (List Char)) : List Char :=
  let separator :=
    match state.lookup "IFS".toList with
    | some separators => separators.take 1
    | none => [' ']
  List.intercalate separator arguments

def Value.text? (state : State) : Value → Option (List Char)
  | .none => Option.none
  | .text chars => some chars
  | .arguments _ all => some (state.join all)

def Value.isSet (colon : Bool) : Value → Bool
  | .none => false
  | .text chars => !(colon && chars.isEmpty)
  | .arguments _ all => !(colon && (all.isEmpty || all = [[]]))

def filled (quoted : Bool) (chars : List Char) : List Glyph :=
  if quoted then Glyph.quoted chars else Glyph.splitting chars

def Value.glyphs (state : State) (split quoted : Bool) : Value → List Glyph
  | .none => []
  | .text chars => filled quoted chars
  | .arguments star all =>
    if split && quoted && !star then
      if all.isEmpty then []
      else .region true :: List.intercalate [.break] (all.map Glyph.quoted)
    else if split && !quoted then
      .region false ::
        List.intercalate [.break] (all.map fun chars => chars.map fun c => Glyph.char c false true)
    else filled quoted (state.join all)

def withoutBreaks (chars : List Char) : List Char :=
  (chars.reverse.dropWhile (· = '\n')).reverse

namespace Running

def readPipe (descriptor : Descriptor) (read : List Bytes) : Nat → Running Bytes
  | 0 => return read.reverse.flatten
  | steps + 1 => do
    match ← ask (.read descriptor 4096) with
    | .ok bytes =>
      if bytes.isEmpty then return read.reverse.flatten
      readPipe descriptor (bytes :: read) steps
    | .error .interrupted =>
      collectSignals
      readPipe descriptor read steps
    | .error _ => return read.reverse.flatten

def outputOf (tree : Option Tree) : Running (List Char) := do
  if tree.isNone then return []
  match ← ask .openPipe with
  | .error _ => fail "Pipe call failed".toList
  | .ok pipe =>
    let job ← newJob
    let wires :=
      .close pipe.readEnd :: (if pipe.writeEnd = 1 then [] else [.move pipe.writeEnd 1])
    fork (some job) false wires (.tree tree [] false)
    let _ ← ask (.close pipe.writeEnd)
    let bytes ← readPipe pipe.readEnd [] patience
    let _ ← ask (.close pipe.readEnd)
    let outputStatus ← waitForJob job
    modify fun state => { state with outputStatus }
    return withoutBreaks (bytes.toChars.filter (· ≠ '\x00'))

def missing {α : Type} (name : List Char) (message : List Char) : Running α :=
  fail (name ++ [':', ' '] ++ message)

def arithmetic (expression : List Char) : Running (List Char) := do
  let (value, state) ← orFail (calculate (← get) expression)
  set state
  return digitsOf value

/-- A value that has to be there if the script wants all values to be. -/
def present (name : List Char) (value : Value) : Running Value := do
  match value with
  | .none =>
    if (← get).has 'u' then missing name "parameter not set".toList else return .none
  | _ => return value

mutual

/-- Fill in a part of a word; `split` says whether words are split, and `inner` whether this is the
word of a parameter. -/
def fillPart (split inner : Bool) : Part → Running (List Glyph)
  | .text [] _ => return [.mark]
  | .text chars true => return Glyph.quoted chars
  | .text chars false =>
    return if inner then Glyph.splitting chars else chars.map fun c => .char c false false
  | .output tree quoted => do return filled quoted (← outputOf tree)
  | .arithmetic expression quoted => do
    let text := Glyph.text (← fillParts false false expression)
    return filled quoted (← arithmetic text)
  | .parameter name operator colon word quoted => do
    if operator = .bad then fail "Bad substitution".toList
    let value := (← get).parameter name
    let isSet := value.isSet colon
    let shown (value : Value) : Running (List Glyph) := do return value.glyphs (← get) split quoted
    let cut (f : List Wild → List Char → List Char) (word : Running (List Glyph)) :
        Running (List Glyph) := do
      let value ← present name value
      let pattern := Wild.ofGlyphs (← word)
      match value.text? (← get) with
      | some chars => return filled quoted (f pattern chars)
      | none => return []
    match operator with
    | .value => do shown (← present name value)
    | .length => do
      let value ← present name value
      return filled quoted (digitsOf ((value.text? (← get)).getD []).length)
    | .fallback => if isSet then shown value else fillWord split (!quoted) word
    | .alternative => if isSet then fillWord split (!quoted) word else return []
    | .assignment =>
      if isSet then shown value
      else
        assignNamed name (Glyph.text (← fillWord false false word))
        shown ((← get).parameter name)
    | .complaint =>
      if isSet then shown value
      else
        let message := Glyph.text (← fillWord false false word)
        if word.isEmpty then
          missing name (if colon then "parameter not set or null" else "parameter not set").toList
        else missing name message
    | .cutStart longest =>
      cut (fun pattern chars => Wild.cutStart pattern longest chars) (fillWord false false word)
    | .cutEnd longest =>
      cut (fun pattern chars => Wild.cutEnd pattern longest chars) (fillWord false false word)
    | .bad => return []

def fillParts (split inner : Bool) : List Part → Running (List Glyph)
  | [] => return []
  | part :: rest => do
    let glyphs ← fillPart split inner part
    let others ← fillParts split inner rest
    return glyphs ++ others

def fillWord (split inner : Bool) : List Part → Running (List Glyph)
  | .text chars false :: rest => do
    let start ←
      match fillTilde (← get) false rest.isEmpty chars with
      | some (home, behind) =>
        let behind ← if behind.isEmpty then pure [] else pure (plain behind)
        pure (Glyph.quoted home ++ behind)
      | none => pure (plain chars)
    let others ← fillParts split inner rest
    return start ++ others
  | word => fillParts split inner word
where
  plain (chars : List Char) : List Glyph :=
    if inner then Glyph.splitting chars else chars.map fun c => .char c false false

end

/-- The arguments in quotes of their own are as many fields as there are arguments, and no field if
there are none. -/
def withoutEmptyMark : Word → Word
  | .text [] true :: .parameter ['@'] .value false [] true :: rest =>
    let alone : Bool :=
      match rest with
      | .parameter _ _ _ _ true :: _ => false
      | .output _ true :: _ => false
      | .arithmetic _ true :: _ => false
      | _ => true
    let start : Word := if alone then [] else [.text [] true]
    start ++ .parameter ['@'] .value false [] true :: withoutEmptyMark rest
  | part :: rest => part :: withoutEmptyMark rest
  | [] => []

/-! File names -/

/-- Whether a part of a path is a pattern; a bracket has to be closed. -/
def isPattern : List Wild → Bool
  | [] => false
  | wild :: rest =>
    wild.isSign '*' || wild.isSign '?' || (wild.isSign '[' && closes rest) || isPattern rest
where
  closes (rest : List Wild) : Bool :=
    let set := match rest with
      | sign :: others => if sign.isSign '!' then others else rest
      | [] => []
    (set.drop 1).any fun wild => wild.isSign ']'

def pathParts (part : List Wild) : List Wild → List (List Wild)
  | [] => [part.reverse]
  | wild :: rest =>
    if wild.char = '/' then part.reverse :: pathParts [] rest else pathParts (wild :: part) rest

def plainChars (pattern : List Wild) : List Char := pattern.map Wild.char

def pathsFrom (directory : List Char) : List (List Wild) → Running (List (List Char))
  | [] => return []
  | [part] => do
    if isPattern part then
      let names ← namesIn directory part
      return names.map (directory ++ ·)
    else
      let path := directory ++ plainChars part
      match ← ask (.stat (Bytes.ofChars path) false) with
      | .ok _ => return [path]
      | .error _ => return []
  | part :: rest => do
    if isPattern part then
      let mut found := []
      for name in ← namesIn directory part do
        found := found ++ (← pathsFrom (directory ++ name ++ ['/']) rest)
      return found
    else pathsFrom (directory ++ plainChars part ++ ['/']) rest
where
  namesIn (directory : List Char) (part : List Wild) : Running (List (List Char)) := do
    let path := if directory.isEmpty then ['.'] else directory
    match ← ask (.list (Bytes.ofChars path)) with
    | .error _ => return []
    | .ok names =>
      let dotted := part.head?.any fun wild => wild.char = '.'
      let names := ['.'] :: ['.', '.'] :: names.map Bytes.toChars
      return names.filter fun name =>
        (dotted || name.head? ≠ some '.') && Wild.isMatch part name

def fileNames (field : List Glyph) : Running (List (List Char)) := do
  let pattern := Wild.ofGlyphs field
  let plain := [Glyph.text field]
  if (← get).has 'f' then return plain
  if !Wild.isActive pattern then return plain
  let parts := pathParts [] pattern
  if !parts.any isPattern then return plain
  let paths ← pathsFrom [] parts
  if paths.isEmpty then return plain
  return paths.mergeSort fun a b => !decide (b < a)

def allFileNames : List (List Glyph) → Running (List (List Char))
  | [] => return []
  | field :: rest => do
    let names ← fileNames field
    let others ← allFileNames rest
    return names ++ others

def fieldsOf (word : Word) : Running (List (List Char)) := do
  let word := withoutEmptyMark (fillHome (← get) word)
  let glyphs ← fillParts true false word
  allFileNames (splitFields (← get).separators none glyphs)

def fieldsOfAll : List Word → Running (List (List Char))
  | [] => return []
  | word :: rest => do
    let fields ← fieldsOf word
    let others ← fieldsOfAll rest
    return fields ++ others

def textOf (word : Word) : Running (List Char) := do
  return Glyph.text (← fillParts false false (fillHome (← get) word))

def patternOf (word : Word) : Running (List Wild) := do
  return Wild.ofGlyphs (← fillParts false false (fillHome (← get) word))

def assignmentOf (word : Word) : Running (List Char × List Char) := do
  let (name, value) := splitAssignment word
  return (name, Glyph.text (← fillParts false false (fillHomes (← get) value)))

def documentOf (number : Nat) : Running (List Char) := do
  match (← get).documents.find? fun document => document.number = number with
  | some document => return Glyph.text (← fillParts false false document.content)
  | none => return []

end Running

end CommandShell.Interpreter
