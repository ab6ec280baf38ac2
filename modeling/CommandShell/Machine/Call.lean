import CommandShell.Machine.Open

/-!
What the machine does for the calls of the shell.
-/

namespace CommandShell.Machine

/-- Reply to a call that is made once for each of a limited number. -/
def limited {ρ : Type} (machine : Machine) (left : Option Nat) (errno : Errno)
    (act : Option Nat → Progress (Except Errno ρ)) : Progress (Except Errno ρ) :=
  match Limits.spend left with
  | none => .reply (.error errno) machine
  | some left => act left

def add (machine : Machine) (process : Process) : Machine :=
  { machine with processes := machine.processes ++ [process], nextPid := machine.nextPid + 1 }

def fork (machine : Machine) (process : Process) (child : Child) : Progress (Except Errno Pid) :=
  limited machine process.limits.fork .tryAgain fun left =>
    let process := { process with limits := { process.limits with fork := left } }
    let pid : Pid := machine.nextPid
    let started := process.child pid (.shell child.work)
    let started := { started with ignored := started.ignored.filter (· ≠ Signal.brokenPipe) }
    .reply (.ok pid) ((machine.setProcess process).add started)

def openPipe (machine : Machine) (process : Process) : Progress (Except Errno Pipe) :=
  limited machine process.limits.openPipe .tooManyFiles fun left =>
    let process := { process with limits := { process.limits with openPipe := left } }
    let (pipe, machine) := machine.addPipe process
    .reply (.ok pipe) machine

def duplicate (machine : Machine) (process : Process) (source target : Descriptor) :
    Progress (Except Errno Unit) :=
  limited machine process.limits.duplicate .badDescriptor fun left =>
    let process := { process with limits := { process.limits with duplicate := left } }
    match process.channel? source with
    | some channel => .reply (.ok ()) (machine.setProcess (process.openChannel target channel))
    | none => .reply (.error .badDescriptor) (machine.setProcess process)

def startSession (machine : Machine) (process : Process) : Progress (Except Errno Unit) :=
  limited machine process.limits.startSession .notPermitted fun left =>
    .reply (.ok ())
      (machine.setProcess
        { process with
          group := process.pid, limits := { process.limits with startSession := left } })

def waitStatus (pid : Pid) : Ending → Except Errno WaitStatus
  | .exited code => .ok (.exited pid code)
  | .signaled signal =>
    if signal ≤ Signal.greatestReported then .ok (.signaled pid signal false)
    else .error .invalidArgument

/-- Wait for a child. A signal that comes meanwhile may interrupt this, if the child has not ended
as well. -/
def wait (machine : Machine) (process : Process) (pid : Pid) : Progress (Except Errno WaitStatus) :=
  let pausing (pause : Pause) : Machine := machine.setProcess { process with pause }
  match machine.processes.find? fun child => child.pid = pid && child.parent = process.pid with
  | none => .reply (.error .noChild) machine
  | some child =>
    match child.activity, process.pause with
    | .ended ending, _ =>
      let machine := pausing .none
      .reply (waitStatus pid ending)
        { machine with processes := machine.processes.filter fun other => other.pid ≠ pid }
    | _, .interrupted => .reply (.error .interrupted) (pausing .none)
    | _, _ => .wait (pausing .waiting)

/-- Whether a path leads to the shell: to what runs in a process that runs it. -/
def isShell (machine : Machine) (process : Process) (path : Bytes) : Bool :=
  machine.processes.any fun owner =>
    owner.runsShell &&
      (path = Bytes.ofText ("/proc/" ++ toString owner.pid ++ "/exe") ||
        owner.pid = process.pid && path = Bytes.ofText "/proc/self/exe")

def replace (machine : Machine) (process : Process) (arguments : List String) : Progress Errno :=
  let arguments := arguments.map Bytes.ofText
  let records := process.records
  if machine.isShell process (arguments.headD []) then
    .gone (machine.setProcess (process.becomeShell arguments records))
  else
    let search := Bytes.ofText "PATH="
    let path := (records.find? search.isPrefixOf).map (List.drop search.length)
    match machine.files.locate process.directory path arguments records with
    | .error errno => .reply errno machine
    | .ok (name, arguments) =>
      .gone (machine.setProcess (process.becomeTool name arguments records))

def descriptorOf : Stream → Descriptor
  | .output => 1
  | .errors => 2

/-- Write bytes. A process that does not ignore it ends by writing to a pipe that nobody reads. -/
def writeBytes (machine : Machine) (process : Process) (descriptor : Descriptor) (bytes : Bytes) :
    Progress (Except Errno Unit) :=
  match machine.write process descriptor bytes with
  | .done machine => .reply (.ok ()) machine
  | .full => .wait machine
  | .failed .brokenPipe =>
    if process.ignored.contains Signal.brokenPipe then .reply (.error .brokenPipe) machine
    else if process.keeping.contains Signal.brokenPipe then
      .reply (.error .brokenPipe) (machine.deliver process Signal.brokenPipe)
    else .gone (machine.finish process (.signaled Signal.brokenPipe))
  | .failed errno => .reply (.error errno) machine

/-- Write a text of the shell. One for a closed stream is lost without a word. -/
def writeText (machine : Machine) (process : Process) (stream : Stream) (text : String) :
    Progress (Except StreamFailure Unit) :=
  match machine.writeBytes process (descriptorOf stream) (Bytes.ofText text) with
  | .reply (.ok ()) machine => .reply (.ok ()) machine
  | .reply (.error .badDescriptor) machine => .reply (.ok ()) machine
  | .reply (.error errno) machine => .reply (.error (.system errno)) machine
  | .wait machine => .wait machine
  | .gone machine => .gone machine

def abortCode : Int := 101

/-- End a process that gives up, with a word about the reason if that can be written. -/
def abort (machine : Machine) (process : Process) (reason : String) : Progress Empty :=
  match machine.writeText process .errors (reason ++ "\n") with
  | .reply _ machine =>
    match machine.process? process.pid with
    | some process => .gone (machine.finish process (.exited abortCode))
    | none => .gone machine
  | .wait machine => .wait machine
  | .gone machine => .gone machine

/-- Whether a text can be handed over as a path: a NUL would end it. -/
def isPath (text : String) : Bool := !text.toList.contains '\x00'

def changeDirectory (machine : Machine) (process : Process) (path : String) :
    Progress (Except Errno Unit) :=
  if !isPath path then .reply (.error .invalidArgument) machine
  else
    match machine.enter process (Bytes.ofText path) with
    | .ok machine => .reply (.ok ()) machine
    | .error errno => .reply (.error errno) machine

def isFile (machine : Machine) (process : Process) (path : String) : Bool :=
  isPath path &&
    match machine.statPath process (Bytes.ofText path) true with
    | .ok status => status.kind = .regular
    | .error _ => false

def plenty : Nat := Nat.pow 10 12

def readInput (machine : Machine) (process : Process) : Progress (Except StreamFailure String) :=
  match machine.read process Descriptor.input plenty with
  | .reply (.ok bytes) machine =>
    match bytes.toText? with
    | some text => .reply (.ok text) machine
    | none => .reply (.error .notText) machine
  | .reply (.error _) machine => .reply (.ok "") machine
  | .wait machine => .wait machine
  | .gone machine => .gone machine

def readText (machine : Machine) (process : Process) (path : String) :
    Progress (Except StreamFailure String) :=
  if !isPath path then .reply (.error .notPath) machine
  else
    match machine.openPath process (Bytes.ofText path) { readable := true } with
    | .error errno => .reply (.error (.system errno)) machine
    | .ok (descriptor, opened) =>
      match opened.process? process.pid with
      | none => .gone machine
      | some reader =>
        let close (machine : Machine) : Machine :=
          match machine.process? process.pid with
          | some process => machine.setProcess (process.closeChannel descriptor)
          | none => machine
        match opened.read reader descriptor plenty with
        | .reply (.ok bytes) machine =>
          match bytes.toText? with
          | some text => .reply (.ok text) (close machine)
          | none => .reply (.error .notText) (close machine)
        | .reply (.error errno) machine => .reply (.error (.system errno)) (close machine)
        | .wait _ => .wait machine
        | .gone machine => .gone machine

def perform (machine : Machine) (process : Process) : (call : Call) → Progress call.Reply
  | .fork child => machine.fork process child
  | .openPipe => machine.openPipe process
  | .close descriptor => .reply () (machine.setProcess (process.closeChannel descriptor))
  | .duplicate source target => machine.duplicate process source target
  | .startSession => machine.startSession process
  | .wait pid => machine.wait process pid
  | .replace arguments => machine.replace process arguments
  | .exit code => .gone (machine.finish process (.exited (code % 256)))
  | .abort reason => machine.abort process reason
  | .write stream text => machine.writeText process stream text
  | .changeDirectory path => machine.changeDirectory process path
  | .currentDirectory =>
    match machine.directoryOf process with
    | .ok path => .reply (.ok path.toText?) machine
    | .error errno => .reply (.error (.system errno)) machine
  | .readFile path => machine.readText process path
  | .isFile path => .reply (machine.isFile process path) machine
  | .readInput => machine.readInput process

end CommandShell.Machine
