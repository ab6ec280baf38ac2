import CommandShell.Errno
import CommandShell.Machine.Bytes

/-!
The files of the machine: nodes with numbers, and directories that give names to them. A directory
keeps its node when its name is removed, so that a process may still be in it.
-/

namespace CommandShell

abbrev Inode := Nat

inductive Device where
  /-- It has no content and takes everything. -/
  | null
  | zero
  /-- It takes nothing. -/
  | full
  /-- What a process has open under a number. -/
  | open (descriptor : Nat)
  deriving DecidableEq, Repr

inductive Node where
  | file (content : Bytes) (executable : Bool)
  /-- A program that the machine has. -/
  | tool (name : String)
  | directory (parent : Inode) (entries : List (Bytes × Inode))
  | link (target : Bytes)
  | device (device : Device)
  deriving DecidableEq, Repr

inductive FileKind where
  | regular
  | directory
  | link
  | device
  | pipe
  deriving DecidableEq, Repr

structure FileStatus where
  inode : Inode
  kind : FileKind
  size : Nat
  executable : Bool
  deriving DecidableEq, Repr

namespace Node

def status (inode : Inode) : Node → FileStatus
  | .file content executable => ⟨inode, .regular, content.length, executable⟩
  | .tool _ => ⟨inode, .regular, 1, true⟩
  | .directory _ _ => ⟨inode, .directory, 4096, true⟩
  | .link target => ⟨inode, .link, target.length, true⟩
  | .device _ => ⟨inode, .device, 0, false⟩

end Node

structure Opening where
  readable : Bool := false
  writable : Bool := false
  /-- A file that is missing is made. -/
  create : Bool := false
  /-- The file must be a new one. -/
  exclusive : Bool := false
  /-- The content it had is dropped. -/
  truncate : Bool := false
  /-- All that is written goes to its end. -/
  append : Bool := false
  deriving DecidableEq, Repr

structure Files where
  nodes : Array Node

namespace Files

def root : Inode := 0

def empty : Files := ⟨#[.directory root []]⟩

def node? (files : Files) (inode : Inode) : Option Node := files.nodes[inode]?

def setNode (files : Files) (inode : Inode) (node : Node) : Files :=
  ⟨files.nodes.setIfInBounds inode node⟩

def longestName : Nat := 255

/-- The least number of bytes that a path may not have. -/
def tooLongPath : Nat := 4096

/-- The most links that are followed on the way to a file. -/
def mostLinks : Nat := 40

/-- The names in a path. After a slash at the end comes the directory itself. -/
def names (path : Bytes) : List Bytes :=
  let parts := (Bytes.split '/' path).filter fun name => !name.isEmpty
  if path.getLast? = some (Bytes.byte '/') then parts ++ [[Bytes.byte '.']] else parts

def startOf (here : Inode) (path : Bytes) : Inode :=
  if path.head? = some (Bytes.byte '/') then root else here

def dot : Bytes := Bytes.ofChars ['.']

def dotDot : Bytes := Bytes.ofChars ['.', '.']

/-- Go through names from a node. A link in the last place is followed only if asked for. -/
def walk (files : Files) (follow : Bool) (links : Nat) (here : Inode) (path : List Bytes) :
    Except Errno Inode :=
  match path with
  | [] => .ok here
  | name :: rest =>
    match files.node? here with
    | some (.directory parent entries) =>
      if name = dot then files.walk follow links here rest
      else if name = dotDot then files.walk follow links parent rest
      else if longestName < name.length then .error .nameTooLong
      else
        match entries.lookup name with
        | none => .error .noEntry
        | some inode =>
          match files.node? inode with
          | some (.link target) =>
            if rest.isEmpty && !follow then .ok inode
            else
              match links with
              | 0 => .error .tooManyLinks
              | left + 1 => files.walk follow left (startOf here target) (names target ++ rest)
          | _ => files.walk follow links inode rest
    | _ => .error .notDirectory
termination_by (links, path.length)

def find (files : Files) (follow : Bool) (here : Inode) (path : Bytes) : Except Errno Inode :=
  if path.isEmpty then .error .noEntry
  else if tooLongPath ≤ path.length then .error .nameTooLong
  else files.walk follow mostLinks (startOf here path) (names path)

def resolve (files : Files) (here : Inode) (path : Bytes) : Except Errno Inode :=
  files.find true here path

def nodeAt (files : Files) (here : Inode) (path : Bytes) : Except Errno Node := do
  let inode ← files.resolve here path
  match files.node? inode with
  | some node => .ok node
  | none => .error .noEntry

/-- What is known of the file at a path. A link in the last place is followed only if asked for. -/
def stat (files : Files) (follow : Bool) (here : Inode) (path : Bytes) :
    Except Errno FileStatus := do
  let inode ← files.find follow here path
  match files.node? inode with
  | some node => .ok (node.status inode)
  | none => .error .noEntry

/-- The directory and the name of a path that need not exist. -/
def place (files : Files) (here : Inode) (path : Bytes) : Except Errno (Inode × Bytes) :=
  if path.isEmpty then .error .noEntry
  else if tooLongPath ≤ path.length then .error .nameTooLong
  else
    let parts := (Bytes.split '/' path).filter fun name => !name.isEmpty
    match parts.getLast? with
    | none => .ok (root, dot)
    | some name => do
      let directory ← files.walk true mostLinks (startOf here path) parts.dropLast
      match files.node? directory with
      | some (.directory _ _) =>
        if longestName < name.length then .error .nameTooLong else .ok (directory, name)
      | _ => .error .notDirectory

def isLinked (files : Files) (inode : Inode) : Bool :=
  inode = root ||
    match files.node? inode with
    | some (.directory parent _) =>
      match files.node? parent with
      | some (.directory _ entries) => entries.any fun entry => entry.2 = inode
      | _ => false
    | _ => true

def insert (files : Files) (directory : Inode) (name : Bytes) (node : Node) : Files :=
  match files.node? directory with
  | some (.directory parent entries) =>
    let inode := files.nodes.size
    let files : Files := ⟨files.nodes.push node⟩
    files.setNode directory (.directory parent ((name, inode) :: entries))
  | _ => files

def create (files : Files) (here : Inode) (path : Bytes) (node : Inode → Node) :
    Except Errno Files := do
  let (directory, name) ← files.place here path
  match files.node? directory with
  | some (.directory _ entries) =>
    if name = dot || name = dotDot || (entries.lookup name).isSome then .error .alreadyExists
    else if !files.isLinked directory then .error .noEntry
    else .ok (files.insert directory name (node directory))
  | _ => .error .notDirectory

def makeDirectory (files : Files) (here : Inode) (path : Bytes) : Except Errno Files :=
  files.create here path fun parent => .directory parent []

def makeLink (files : Files) (here : Inode) (target path : Bytes) : Except Errno Files :=
  if target.isEmpty then .error .noEntry else files.create here path fun _ => .link target

def endsInSlash (path : Bytes) : Bool := path.getLast? = some (Bytes.byte '/')

def opened (files : Files) (inode : Inode) (opening : Opening) : Except Errno (Inode × Files) :=
  match files.node? inode with
  | some (.directory _ _) =>
      if opening.writable || opening.create then .error .isDirectory else .ok (inode, files)
  | some (.file _ executable) =>
    .ok (inode, if opening.truncate then files.setNode inode (.file [] executable) else files)
  | some (.link _) => .error .tooManyLinks
  | some _ => .ok (inode, files)
  | none => .error .noEntry

/-- Open the file at a path and make it if it is missing, behind so many links at most. -/
def openNew (files : Files) (opening : Opening) : Nat → Inode → Bytes → Except Errno (Inode × Files)
  | links, here, path => do
    let (directory, name) ← files.place here path
    if endsInSlash path then .error .isDirectory
    else if name = dot || name = dotDot then .error .isDirectory
    else
      match files.node? directory with
      | some (.directory _ entries) =>
        match entries.lookup name with
        | none =>
          if !files.isLinked directory then .error .noEntry
          else .ok (files.nodes.size, files.insert directory name (.file [] false))
        | some inode =>
          if opening.exclusive then .error .alreadyExists
          else
            match files.node? inode, links with
            | some (.link _), 0 => .error .tooManyLinks
            | some (.link target), left + 1 => files.openNew opening left directory target
            | _, _ => files.opened inode opening
      | _ => .error .notDirectory

def openAt (files : Files) (here : Inode) (path : Bytes) (opening : Opening) :
    Except Errno (Inode × Files) :=
  if opening.create then files.openNew opening mostLinks here path
  else do
    let inode ← files.resolve here path
    files.opened inode opening

def content (files : Files) (here : Inode) (path : Bytes) : Except Errno Bytes := do
  match ← files.nodeAt here path with
  | .file content _ => .ok content
  | .directory _ _ => .error .isDirectory
  | _ => .ok []

def listing (files : Files) (here : Inode) (path : Bytes) : Except Errno (List Bytes) := do
  match ← files.nodeAt here path with
  | .directory _ entries => .ok (entries.map Prod.fst)
  | _ => .error .notDirectory

def removeDirectory (files : Files) (here : Inode) (path : Bytes) : Except Errno Files := do
  let (directory, name) ← files.place here path
  if !path.isEmpty && path.all (· = Bytes.byte '/') then .error .busy
  else if name = dot then .error .invalidArgument
  else if name = dotDot then .error .notEmpty
  else
    match files.node? directory with
    | some (.directory parent entries) =>
      match entries.lookup name with
      | none => .error .noEntry
      | some inode =>
        match files.node? inode with
        | some (.directory _ []) =>
          .ok (files.setNode directory
            (.directory parent (entries.filter fun entry => entry.2 ≠ inode)))
        | some (.directory _ _) => .error .notEmpty
        | _ => .error .notDirectory
    | _ => .error .notDirectory

/-- The names from the root to a directory, the last one first, in so many steps at most. -/
def namesUp (files : Files) : Nat → Inode → Option (List Bytes)
  | 0, _ => none
  | steps + 1, inode =>
    if inode = root then some []
    else
      match files.node? inode with
      | some (.directory parent _) =>
        match files.node? parent with
        | some (.directory _ entries) =>
          match entries.find? fun entry => entry.2 = inode with
          | some entry => (files.namesUp steps parent).map (entry.1 :: ·)
          | none => none
        | _ => none
      | _ => none

def pathOf (files : Files) (inode : Inode) : Except Errno Bytes :=
  match files.namesUp (files.nodes.size + 1) inode with
  | none => .error .noEntry
  | some [] => .ok [Bytes.byte '/']
  | some names => .ok (names.reverse.flatMap fun name => Bytes.byte '/' :: name)

end Files

end CommandShell
