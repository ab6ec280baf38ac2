import CommandShell.Machine.Call

/-!
What the machine does for the requests of programs.
-/

namespace CommandShell.Machine

def changeFiles (machine : Machine) (result : Except Errno Files) : Progress (Except Errno Unit) :=
  match result with
  | .ok files => .reply (.ok ()) { machine with files }
  | .error errno => .reply (.error errno) machine

def sleep (machine : Machine) (process : Process) (nanoseconds : Nat) : Progress Unit :=
  match process.wake with
  | none => .wait (machine.setProcess { process with wake := some (machine.clock + nanoseconds) })
  | some time =>
    if time ≤ machine.clock then .reply () (machine.setProcess { process with wake := none })
    else .wait machine

def arrange (process : Process) (signal : Signal) (arrangement : Arrangement) : Process :=
  let process :=
    { process with
      ignored := process.ignored.filter (· ≠ signal)
      keeping := process.keeping.filter (· ≠ signal) }
  match arrangement with
  | .standard => process
  | .ignore => { process with ignored := signal :: process.ignored }
  | .keep => { process with keeping := signal :: process.keeping }

/-- How a child ended, if one has. -/
def waitAny (machine : Machine) (process : Process) (block : Bool) :
    Progress (Except Errno (Option (Pid × Ending))) :=
  let children := machine.processes.filter fun child => child.parent = process.pid
  let ended := children.findSome? fun child =>
    match child.activity with
    | .ended ending => some (child.pid, ending)
    | _ => none
  match ended with
  | some (pid, ending) =>
    .reply (.ok (some (pid, ending)))
      { machine with processes := machine.processes.filter fun other => other.pid ≠ pid }
  | none =>
    if children.isEmpty then .reply (.error .noChild) machine
    else if !block then .reply (.ok none) machine
    else if process.kept.isEmpty then .wait machine
    else .reply (.error .interrupted) machine

def changed {ρ : Type} (machine : Machine) (result : Except Errno (ρ × Machine)) :
    Progress (Except Errno ρ) :=
  match result with
  | .ok (value, machine) => .reply (.ok value) machine
  | .error errno => .reply (.error errno) machine

def performTool (machine : Machine) (process : Process) :
    (call : ToolCall) → Progress call.Reply
  | .read descriptor count => machine.read process descriptor count
  | .write descriptor bytes => machine.writeBytes process descriptor bytes
  | .open path opening => machine.changed (machine.openPath process path opening)
  | .close descriptor =>
    match process.channel? descriptor with
    | some _ => .reply (.ok ()) (machine.setProcess (process.closeChannel descriptor))
    | none => .reply (.error .badDescriptor) machine
  | .duplicate source target =>
    match process.channel? source with
    | some channel =>
      .reply (.ok ())
        (if source = target then machine
          else machine.setProcess (process.openChannel target channel))
    | none => .reply (.error .badDescriptor) machine
  | .setAside source least => machine.changed (machine.setAside process source least)
  | .openPipe =>
    let (pipe, machine) := machine.addPipe process
    .reply (.ok pipe) machine
  | .position descriptor => .reply (machine.position process descriptor) machine
  | .seek descriptor position =>
    machine.changed ((machine.seek process descriptor position).map fun machine => ((), machine))
  | .describe descriptor => .reply (machine.describe process descriptor) machine
  | .stat path follow => .reply (machine.statPath process path follow) machine
  | .list path => .reply (machine.files.listing process.directory path) machine
  | .makeDirectory path => machine.changeFiles (machine.files.makeDirectory process.directory path)
  | .removeDirectory path =>
    machine.changeFiles (machine.files.removeDirectory process.directory path)
  | .makeLink target path =>
      machine.changeFiles (machine.files.makeLink process.directory target path)
  | .currentDirectory => .reply (machine.directoryOf process) machine
  | .changeDirectory path =>
    match machine.enter process path with
    | .ok machine => .reply (.ok ()) machine
    | .error errno => .reply (.error errno) machine
  | .sleep nanoseconds => machine.sleep process nanoseconds
  | .kill pid signal =>
    match machine.signal process pid signal with
    | .error errno => .reply (.error errno) machine
    | .ok machine =>
      match machine.process? process.pid with
      | some process => if process.hasEnded then .gone machine else .reply (.ok ()) machine
      | none => .gone machine
  | .arrange signal arrangement =>
    .reply () (machine.setProcess (arrange process signal arrangement))
  | .ignored => .reply process.ignored machine
  | .kept => .reply process.kept.reverse (machine.setProcess { process with kept := [] })
  | .identity => .reply (process.pid, process.parent) machine
  | .fork fork =>
    let pid : Pid := machine.nextPid
    .reply (.ok pid) (machine.add (process.child pid (.tool fork.steps)))
  | .wait block => machine.waitAny process block
  | .replace path arguments environment =>
    if machine.isShell process path then
      .gone (machine.setProcess (process.becomeShell arguments environment))
    else
      match machine.files.execute process.directory path arguments environment with
      | .error errno => .reply errno machine
      | .ok (name, arguments) =>
        .gone (machine.setProcess (process.becomeTool name arguments environment))
  | .exit code => .gone (machine.finish process (.exited (code % 256)))

end CommandShell.Machine
