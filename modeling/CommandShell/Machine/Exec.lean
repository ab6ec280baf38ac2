import CommandShell.Machine.Files

/-!
Finding the program that a command runs. A command without a slash is looked for in the directories
of `PATH`. A file that starts with `#!` names the program that runs it, and any other file is run by
the interpreter.
-/

namespace CommandShell.Files

abbrev Image := String × List Bytes

def interpreterPath : Bytes := Bytes.ofText "/bin/sh"

def isBlankByte (b : UInt8) : Bool := b = Bytes.byte ' ' || b = Bytes.byte '\t'

/-- How many bytes of a file are looked at for the name of its interpreter. -/
def headSize : Nat := 256

def headOf (content : Bytes) : Bytes :=
  content.take headSize ++ List.replicate (headSize - content.length) 0

def endsInterpreter (b : UInt8) : Bool := isBlankByte b || b = 0

/-- The line of a file that names its interpreter, without the blanks at its end. If no line break
is in sight, the name must have an end before the last byte, and what follows is cut there. -/
def interpreterLine? (content : Bytes) : Option Bytes :=
  let line := (headOf content).drop 2
  let first := line.takeWhile (· ≠ Bytes.byte '\n')
  let trim (bytes : Bytes) := (bytes.reverse.dropWhile isBlankByte).reverse
  if first.length < line.length then some (trim first)
  else
    let name := line.dropWhile isBlankByte
    if name.isEmpty then none
    else if name.any endsInterpreter then some (trim line.dropLast)
    else none

/-- The program that a file names in its first line, and an argument for it. -/
def namedInterpreter? (content : Bytes) : Option (Bytes × List Bytes) :=
  match content.toChars with
  | '#' :: '!' :: _ =>
    match interpreterLine? content with
    | none => none
    | some line =>
      let line := line.dropWhile isBlankByte
      if line.isEmpty then none
      else
        let path := line.takeWhile fun b => !endsInterpreter b
        let rest := line.drop path.length
        if rest.head? = some 0 then some (path, [])
        else
          let argument := (rest.dropWhile isBlankByte).takeWhile (· ≠ 0)
          some (path, if argument.isEmpty then [] else [argument])
  | _ => none

/-- A file that can be run. A path of nothing leads to the directory itself, which cannot. -/
def runnable (files : Files) (here : Inode) (path : Bytes) : Except Errno Node :=
  if path.isEmpty then .error .accessDenied
  else
    match files.nodeAt here path with
    | .error errno => .error errno
    | .ok (.tool name) => .ok (.tool name)
    | .ok (.file content true) => .ok (.file content true)
    | .ok _ => .error .accessDenied

/-- The program in a file, behind at most so many files that name others. -/
def imageOf (files : Files) (here : Inode) : Nat → Bytes → List Bytes → Except Errno Image
  | 0, path, _ => do
    let _ ← files.runnable here path
    .error .tooManyLinks
  | depth + 1, path, arguments => do
    match ← files.runnable here path with
    | .tool name => .ok (name, arguments)
    | .file content _ =>
      match namedInterpreter? content with
      | some (program, extra) =>
        files.imageOf here depth program ([program] ++ extra ++ [path] ++ arguments.drop 1)
      | none => .error .badFormat
    | _ => .error .accessDenied

def namingDepth : Nat := 6

/-- The size that a single argument must not have, with the byte behind it. -/
def tooLongArgument : Nat := 131072

def execute (files : Files) (here : Inode) (path : Bytes) (arguments environment : List Bytes) :
    Except Errno Image :=
  if path.isEmpty then .error .noEntry
  else
    match files.runnable here path with
    | .error errno => .error errno
    | .ok _ =>
      if (arguments ++ environment).any fun argument => tooLongArgument ≤ argument.length then
        .error .tooManyArguments
      else files.imageOf here namingDepth path arguments

/-- The program at a path, or the interpreter for a file that is no program. -/
def load (files : Files) (here : Inode) (path : Bytes) (arguments environment : List Bytes) :
    Except Errno Image :=
  match files.execute here path arguments environment with
  | .error .badFormat =>
    files.execute here interpreterPath ([interpreterPath, path] ++ arguments.drop 1) environment
  | result => result

def searchGoesOn : Errno → Bool
  | .noEntry => true
  | .notDirectory => true
  | .accessDenied => true
  | _ => false

/-- The most bytes of a directory of `PATH` that are looked at, unless `PATH` is shorter. -/
def longestDirectory : Nat := 4095

/-- The paths to try for a name, one for each directory of `PATH`. In place of one that is too long
and not the last, the name itself is tried. -/
def candidates (search name : Bytes) : List Bytes :=
  let directories := Bytes.split ':' search
  let bound := min search.length longestDirectory + 1
  let last := directories.length - 1
  (directories.zipIdx.filterMap fun (directory, index) =>
    if bound ≤ directory.length then if index = last then none else some name
    else if directory.isEmpty then some name
    else some (directory ++ [Bytes.byte '/'] ++ name))

/-- Try paths in turn. A refusal on the way is remembered; else the last error counts. -/
def search (files : Files) (here : Inode) (arguments environment : List Bytes) (denied : Bool)
    (last : Errno) : List Bytes → Except Errno Image
  | [] => .error (if denied then .accessDenied else last)
  | path :: paths =>
    match files.load here path arguments environment with
    | .ok image => .ok image
    | .error errno =>
      if searchGoesOn errno then
        files.search here arguments environment (denied || errno = .accessDenied) errno paths
      else .error errno

def defaultPath : Bytes := Bytes.ofText "/bin:/usr/bin"

def locate (files : Files) (here : Inode) (path : Option Bytes)
    (arguments environment : List Bytes) :
    Except Errno Image :=
  let name := arguments.headD []
  if name.isEmpty then .error .noEntry
  else if name.contains (Bytes.byte '/') then files.load here name arguments environment
  else
    files.search here arguments environment false .noEntry (candidates (path.getD defaultPath) name)

end CommandShell.Files
