import CommandShell.Machine.Exec
import CommandShell.Machine.Process

/-!
The machine that the shell runs on: files, processes, pipes between them, and a clock that goes on
when all processes wait.
-/

namespace CommandShell

structure Buffer where
  pipe : Nat
  /-- What is read next. -/
  front : Bytes := []
  /-- What comes behind it, the latest first. -/
  chunks : List Bytes := []
  size : Nat := 0

namespace Buffer

def capacity : Nat := 65536

def put (buffer : Buffer) (bytes : Bytes) : Buffer :=
  { buffer with chunks := bytes :: buffer.chunks, size := buffer.size + bytes.length }

def take (buffer : Buffer) (count : Nat) : Bytes × Buffer :=
  let (front, chunks) :=
    if buffer.front.isEmpty then (buffer.chunks.reverse.flatten, [])
    else (buffer.front, buffer.chunks)
  let bytes := front.take count
  (bytes, { buffer with front := front.drop count, chunks, size := buffer.size - bytes.length })

end Buffer

/-- A file that was opened, with the place where reading and writing go on. Descriptors that are
copies of each other share it. -/
structure OpenFile where
  inode : Inode
  position : Nat
  opening : Opening

structure Machine where
  files : Files
  processes : List Process
  buffers : List Buffer
  openFiles : Array OpenFile
  /-- What was written to the standard output, the latest first. -/
  output : List Bytes
  errors : List Bytes
  clock : Nat
  nextPid : Nat
  nextPipe : Nat

namespace Machine

/-- The process that is told from outside what to do. -/
def mainPid : Pid := 100

inductive Supply where
  | file (content : Bytes)
  | pipe (content : Bytes)

def start (files : Files) (directory : Inode) (environment : List (String × String))
    (supply : Supply) : Machine :=
  let channel : Channel := match supply with | .file _ => .file 0 | .pipe _ => .readEnd 0
  let content := match supply with | .file content => content | .pipe _ => []
  let waiting := match supply with | .file _ => [] | .pipe content => content
  { files := ⟨files.nodes.push (.file content false)⟩
    processes :=
      [{ pid := mainPid
         parent := 0
         group := mainPid
         slots := [⟨0, channel, false⟩, ⟨1, .output, false⟩, ⟨2, .errors, false⟩]
         directory := directory
         records := environment.map fun pair => Bytes.ofText (pair.1 ++ "=" ++ pair.2)
         ignored := [Signal.brokenPipe]
         forgiven := [Signal.busError, Signal.badAccess]
         activity := .outside }]
    buffers := [{ pipe := 0, front := waiting, size := waiting.length }]
    openFiles := #[⟨files.nodes.size, 0, { readable := true }⟩]
    output := []
    errors := []
    clock := 0
    nextPid := 101
    nextPipe := 1 }

def process? (machine : Machine) (pid : Pid) : Option Process :=
  machine.processes.find? fun process => process.pid = pid

def setProcess (machine : Machine) (process : Process) : Machine :=
  { machine with processes := machine.processes.map fun other =>
      if other.pid = process.pid then process else other }

def setBuffer (machine : Machine) (buffer : Buffer) : Machine :=
  { machine with buffers := machine.buffers.map fun other =>
      if other.pipe = buffer.pipe then buffer else other }

def hasOpen (machine : Machine) (channel : Channel) : Bool :=
  machine.processes.any fun process => process.slots.any fun slot => slot.channel = channel

/-- Whether anybody is left who may want to know how a process ended. -/
def isAwaited (machine : Machine) (process : Process) : Bool :=
  process.pid = mainPid || (machine.process? process.parent).any fun parent => !parent.hasEnded

/-- End a process. Nobody waits for its children any more. -/
def finish (machine : Machine) (process : Process) (ending : Ending) : Machine :=
  let machine := machine.setProcess (process.finished ending)
  let machine : Machine :=
    { machine with processes := machine.processes.map fun other =>
        if other.parent = process.pid then { other with parent := 0 } else other }
  { machine with processes := machine.processes.filter fun other =>
      !other.hasEnded || machine.isAwaited other }

/-- Set the limits for the calls that are made from outside. -/
def arm (machine : Machine) (limits : Limits) : Machine :=
  { machine with processes := machine.processes.map fun process =>
      if process.pid = mainPid then { process with limits } else process }

def deliver (machine : Machine) (process : Process) (signal : Signal) : Machine :=
  let process := if signal = Signal.resume then { process with stopped := false } else process
  let machine := machine.setProcess process
  if process.hasEnded then machine
  else if signal.isFlexible && process.ignored.contains signal then machine
  else if signal.isFlexible && process.keeping.contains signal then
    if process.kept.contains signal then machine
    else machine.setProcess { process with kept := signal :: process.kept }
  else if process.forgiven.contains signal then
    let pause := if process.pause = .none then .none else .interrupted
    machine.setProcess { process with forgiven := process.forgiven.erase signal, pause }
  else
    match signal.effect with
    | .nothing => machine
    | .resuming => machine
    | .stopping => machine.setProcess { process with stopped := true }
    | .ending => machine.finish process (.signaled signal)

/-- Whether a signal that was sent by a process comes to another one. -/
def isAddressed (sender : Process) (pid : Pid) (process : Process) : Bool :=
  if 0 < pid then process.pid = pid
  else if pid = 0 then process.group = sender.group
  else if pid = -1 then process.pid ≠ sender.pid
  else process.group = -pid

def signal (machine : Machine) (sender : Process) (pid : Pid) (signal : Signal) :
    Except Errno Machine :=
  if Signal.limit ≤ signal then .error .invalidArgument
  else
    match (machine.processes.filter (isAddressed sender pid)).map Process.pid with
    | [] => .error .noProcess
    | pids =>
      .ok (pids.foldl (fun machine pid =>
        match machine.process? pid with
        | some process => machine.deliver process signal
        | none => machine) machine)

/-- What comes of a call: a reply, nothing yet, or the end of the work that made it. -/
inductive Progress (ρ : Type) where
  | reply (value : ρ) (machine : Machine)
  | wait (machine : Machine)
  | gone (machine : Machine)

inductive Written where
  | done (machine : Machine)
  | full
  | failed (errno : Errno)

/-- Content with bytes from a position on, and zeros before them if it is shorter. -/
def overwritten (content : Bytes) (position : Nat) (bytes : Bytes) : Bytes :=
  content.take position ++ List.replicate (position - content.length) 0 ++ bytes ++
    content.drop (position + bytes.length)

def writeFile (machine : Machine) (number : Nat) (bytes : Bytes) : Written :=
  match machine.openFiles[number]? with
  | none => .failed .badDescriptor
  | some file =>
    if !file.opening.writable then .failed .badDescriptor
    else
      match machine.files.node? file.inode with
      | some (.file content executable) =>
        let position := if file.opening.append then content.length else file.position
        .done { machine with
          files := machine.files.setNode file.inode
            (.file (overwritten content position bytes) executable)
          openFiles := machine.openFiles.setIfInBounds number
            { file with position := position + bytes.length } }
      | some (.device .full) => if bytes.isEmpty then .done machine else .failed .noSpace
      | _ => .done machine

def write (machine : Machine) (process : Process) (descriptor : Descriptor) (bytes : Bytes) :
    Written :=
  match process.channel? descriptor with
  | some .output => .done { machine with output := bytes :: machine.output }
  | some .errors => .done { machine with errors := bytes :: machine.errors }
  | some (.writeEnd pipe) =>
    if !machine.hasOpen (.readEnd pipe) then .failed .brokenPipe
    else
      match machine.buffers.find? fun buffer => buffer.pipe = pipe with
      | none => .failed .brokenPipe
      | some buffer =>
        if Buffer.capacity ≤ buffer.size then .full
        else .done (machine.setBuffer (buffer.put bytes))
  | some (.file number) => machine.writeFile number bytes
  | some (.readEnd _) => .failed .badDescriptor
  | none => .failed .badDescriptor

def readFile (machine : Machine) (number count : Nat) : Except Errno (Bytes × Machine) :=
  match machine.openFiles[number]? with
  | none => .error .badDescriptor
  | some file =>
    if !file.opening.readable then .error .badDescriptor
    else
      match machine.files.node? file.inode with
      | some (.file content _) =>
        let bytes := (content.drop file.position).take count
        .ok (bytes, { machine with openFiles := machine.openFiles.setIfInBounds number
                                     { file with position := file.position + bytes.length } })
      | some (.directory _ _) => .error .isDirectory
      | some (.device .zero) => .ok (List.replicate count 0, machine)
      | some (.device .full) => .ok (List.replicate count 0, machine)
      | _ => .ok ([], machine)

def read (machine : Machine) (process : Process) (descriptor : Descriptor) (count : Nat) :
    Progress (Except Errno Bytes) :=
  match process.channel? descriptor with
  | some (.readEnd pipe) =>
    match machine.buffers.find? fun buffer => buffer.pipe = pipe with
    | none => .reply (.ok []) machine
    | some buffer =>
      if buffer.size = 0 then
        if !machine.hasOpen (.writeEnd pipe) then .reply (.ok []) machine
        else if process.kept.isEmpty then .wait machine
        else .reply (.error .interrupted) machine
      else
        let (bytes, buffer) := buffer.take count
        .reply (.ok bytes) (machine.setBuffer buffer)
  | some (.file number) =>
    match machine.readFile number count with
    | .ok (bytes, machine) => .reply (.ok bytes) machine
    | .error errno => .reply (.error errno) machine
  | _ => .reply (.error .badDescriptor) machine

def directoryOf (machine : Machine) (process : Process) : Except Errno Bytes :=
  machine.files.pathOf process.directory

def enter (machine : Machine) (process : Process) (path : Bytes) : Except Errno Machine := do
  let inode ← machine.files.resolve process.directory path
  match machine.files.node? inode with
  | some (.directory _ _) => .ok (machine.setProcess { process with directory := inode })
  | _ => .error .notDirectory

end Machine

end CommandShell
