/-!
The job table: the process numbers of the background jobs that were started and not yet waited for,
in ascending order and each only once.
-/

namespace CommandShell

abbrev Pid := Int

structure Jobs where
  pids : List Pid
  deriving DecidableEq, Repr

namespace Jobs

def empty : Jobs := ⟨[]⟩

/-- Put a number in its place. -/
def insertPid (pid : Pid) : List Pid → List Pid
  | [] => [pid]
  | other :: pids =>
    if pid < other then pid :: other :: pids
    else if pid = other then other :: pids
    else other :: insertPid pid pids

def contains (jobs : Jobs) (pid : Pid) : Bool := jobs.pids.contains pid

/-- Track a job, and say whether it is new. -/
def insert (jobs : Jobs) (pid : Pid) : Bool × Jobs :=
  (!jobs.contains pid, ⟨insertPid pid jobs.pids⟩)

/-- Take out the lowest number and hand it to `visit`, until there is none. -/
def drainPids {State : Type} (visit : State → Pid → State) (state : State) :
    List Pid → State × List Pid
  | [] => (state, [])
  | pid :: pids => drainPids visit (visit state pid) pids

/-- Hand each job to `visit` and keep none. -/
def drainWith {State : Type} (visit : State → Pid → State) (state : State) (jobs : Jobs) :
    State × Jobs :=
  let (state, pids) := drainPids visit state jobs.pids
  (state, ⟨pids⟩)

/-- Hand out all the jobs in order, and keep none. -/
def drain (jobs : Jobs) : List Pid × Jobs := jobs.drainWith (fun handed pid => handed ++ [pid]) []

def size (jobs : Jobs) : Nat := jobs.pids.length

def isEmpty (jobs : Jobs) : Bool := jobs.pids.isEmpty

theorem drainPids_eq {State : Type} (visit : State → Pid → State) (state : State)
    (pids : List Pid) :
    drainPids visit state pids = (pids.foldl visit state, []) := by
  induction pids generalizing state with
  | nil => rfl
  | cons pid pids inductionHypothesis => exact inductionHypothesis (visit state pid)

theorem drainWith_eq {State : Type} (visit : State → Pid → State) (state : State) (jobs : Jobs) :
    jobs.drainWith visit state = (jobs.pids.foldl visit state, empty) := by
  rw [drainWith, drainPids_eq]
  rfl

theorem drain_eq (jobs : Jobs) : jobs.drain = (jobs.pids, empty) := by
  rw [drain, drainWith_eq, List.foldl_append_eq_append, List.nil_append, ← List.flatMap_def,
    List.flatMap_singleton']

end Jobs

end CommandShell
