import CommandShell.Machine.Basic

/-!
What processes have open: files, copies of descriptors and pipes.
-/

namespace CommandShell.Machine

def addPipe (machine : Machine) (process : Process) : Pipe × Machine :=
  let number := machine.nextPipe
  let readEnd := process.freeDescriptor 0
  let process := process.openChannel readEnd (.readEnd number)
  let writeEnd := process.freeDescriptor 0
  let process := process.openChannel writeEnd (.writeEnd number)
  (⟨readEnd, writeEnd⟩,
    { machine.setProcess process with
      buffers := { pipe := number } :: machine.buffers
      nextPipe := number + 1 })

def describe (machine : Machine) (process : Process) (descriptor : Descriptor) :
    Except Errno FileStatus :=
  match process.channel? descriptor with
  | some (.file number) =>
    match machine.openFiles[number]? with
    | some file =>
      match machine.files.node? file.inode with
      | some node => .ok (node.status file.inode)
      | none => .error .badDescriptor
    | none => .error .badDescriptor
  | some _ => .ok ⟨0, .pipe, 0, false⟩
  | none => .error .badDescriptor

def statPath (machine : Machine) (process : Process) (path : Bytes) (follow : Bool) :
    Except Errno FileStatus :=
  match machine.files.find follow process.directory path with
  | .error errno => .error errno
  | .ok inode =>
    match machine.files.node? inode with
    | some (.device (.open descriptor)) =>
      match machine.describe process descriptor with
      | .ok status => .ok status
      | .error _ => .error .noEntry
    | some node => .ok (node.status inode)
    | none => .error .noEntry

/-- Open a file under the least number that is free. -/
def openInode (machine : Machine) (process : Process) (inode : Inode) (opening : Opening) :
    Descriptor × Machine :=
  let number := machine.openFiles.size
  let descriptor := process.freeDescriptor 0
  let machine := machine.setProcess (process.openChannel descriptor (.file number))
  (descriptor, { machine with openFiles := machine.openFiles.push ⟨inode, 0, opening⟩ })

def reopen (machine : Machine) (process : Process) (descriptor : Descriptor) (opening : Opening) :
    Except Errno (Descriptor × Machine) :=
  match process.channel? descriptor with
  | none => .error .noEntry
  | some (.file number) =>
    match machine.openFiles[number]? with
    | none => .error .noEntry
    | some file =>
      match machine.files.opened file.inode { opening with create := false } with
      | .error errno => .error errno
      | .ok (inode, files) => .ok ({ machine with files }.openInode process inode opening)
  | some channel =>
    let copy := process.freeDescriptor 0
    .ok (copy, machine.setProcess (process.openChannel copy channel))

def openPath (machine : Machine) (process : Process) (path : Bytes) (opening : Opening) :
    Except Errno (Descriptor × Machine) :=
  match machine.files.openAt process.directory path opening with
  | .error errno => .error errno
  | .ok (inode, files) =>
    match files.node? inode with
    | some (.device (.open descriptor)) => machine.reopen process descriptor opening
    | _ => .ok ({ machine with files }.openInode process inode opening)

def position (machine : Machine) (process : Process) (descriptor : Descriptor) : Except Errno Nat :=
  match process.channel? descriptor with
  | some (.file number) =>
    match machine.openFiles[number]? with
    | some file => .ok file.position
    | none => .error .badDescriptor
  | some _ => .error .notSeekable
  | none => .error .badDescriptor

def seek (machine : Machine) (process : Process) (descriptor : Descriptor) (position : Nat) :
    Except Errno Machine :=
  match process.channel? descriptor with
  | some (.file number) =>
    match machine.openFiles[number]? with
    | some file =>
      let openFiles := machine.openFiles.setIfInBounds number { file with position }
      .ok { machine with openFiles }
    | none => .error .badDescriptor
  | some _ => .error .notSeekable
  | none => .error .badDescriptor

/-- Copy a descriptor to the least free number from some number on. -/
def setAside (machine : Machine) (process : Process) (source least : Descriptor) :
    Except Errno (Descriptor × Machine) :=
  match process.channel? source with
  | none => .error .badDescriptor
  | some channel =>
    let descriptor := process.freeDescriptor least
    .ok (descriptor, machine.setProcess (process.openSlot ⟨descriptor, channel, true⟩))

end CommandShell.Machine
