import Mathlib.Data.List.Nodup
import CommandShell.Jobs

/-!
The job table. Its numbers ascend, whatever is done to it, and no job is lost or counted twice: each
number that was new when it was put in is handed out once or still there.
-/

namespace CommandShell

namespace Jobs

/-- The numbers ascend, so that none is there twice. -/
def Ordered (jobs : Jobs) : Prop := jobs.pids.Pairwise (· < ·)

theorem mem_insertPid {pid other : Pid} {pids : List Pid} :
    other ∈ insertPid pid pids ↔ other = pid ∨ other ∈ pids := by
  induction pids with
  | nil => simp [insertPid]
  | cons first pids inductionHypothesis =>
      unfold insertPid
      split
      · simp
      · split
        · next same => simp [same]
        · simp only [List.mem_cons, inductionHypothesis, or_left_comm]

theorem Ordered.insert {jobs : Jobs} (ordered : jobs.Ordered) (pid : Pid) :
    (jobs.insert pid).2.Ordered := by
  obtain ⟨pids⟩ := jobs
  unfold Ordered at ordered ⊢
  simp only [Jobs.insert] at ordered ⊢
  induction pids with
  | nil => simp [insertPid]
  | cons first pids inductionHypothesis =>
      obtain ⟨least, rest⟩ := List.pairwise_cons.mp ordered
      unfold insertPid
      split
      · next before =>
        refine List.pairwise_cons.mpr ⟨fun other membership => ?_, ordered⟩
        rcases List.mem_cons.mp membership with rfl | later
        · exact before
        · exact Int.lt_trans before (least other later)
      · next notBefore =>
        split
        · exact ordered
        · next different =>
          refine List.pairwise_cons.mpr ⟨fun other membership => ?_, inductionHypothesis rest⟩
          rcases mem_insertPid.mp membership with rfl | later
          · exact Int.lt_iff_le_and_ne.mpr ⟨Int.not_lt.mp notBefore, Ne.symm different⟩
          · exact least other later

theorem Ordered.nodup {jobs : Jobs} (ordered : jobs.Ordered) : jobs.pids.Nodup :=
  ordered.imp Int.ne_of_lt

theorem perm_insertPid {pid : Pid} {pids : List Pid} (fresh : pid ∉ pids) :
    (insertPid pid pids).Perm (pid :: pids) := by
  induction pids with
  | nil => exact .refl _
  | cons first pids inductionHypothesis =>
      obtain ⟨different, later⟩ := not_or.mp (List.mem_cons.not.mp fresh)
      unfold insertPid
      rw [if_neg different]
      split
      · exact .refl _
      · exact ((inductionHypothesis later).cons first).trans (.swap pid first pids)

/-- How often a number is in a table. -/
def tracked (jobs : Jobs) (pid : Pid) : Nat := if jobs.contains pid then 1 else 0

theorem contains_iff {jobs : Jobs} {pid : Pid} : jobs.contains pid = true ↔ pid ∈ jobs.pids := by
  rw [contains, List.contains_iff_mem]

theorem contains_insert {jobs : Jobs} {pid other : Pid} :
    (jobs.insert pid).2.contains other = true ↔ other = pid ∨ jobs.contains other = true := by
  rw [contains_iff, contains_iff]
  exact mem_insertPid

theorem fst_insert (jobs : Jobs) (pid : Pid) : (jobs.insert pid).1 = !jobs.contains pid := rfl

theorem Ordered.count_pids {jobs : Jobs} (ordered : jobs.Ordered) (pid : Pid) :
    jobs.pids.count pid = jobs.tracked pid := by
  unfold tracked
  split
  · next inside => exact List.count_eq_one_of_mem ordered.nodup (contains_iff.mp inside)
  · next outside =>
    exact List.count_eq_zero_of_not_mem fun member => outside (contains_iff.mpr member)

theorem ordered_empty : empty.Ordered := List.Pairwise.nil

/-- What can be done to a table. -/
inductive Operation where
  | insert (pid : Pid)
  | drain
  deriving DecidableEq, Repr

/-- What was done to a table and what came of it. -/
inductive Deed where
  | inserted (pid : Pid) (new : Bool)
  | drained (handed : List Pid)
  deriving DecidableEq, Repr

/-- The numbers that were handed out. -/
def Deed.handed : Deed → List Pid
  | .inserted _ _ => []
  | .drained handed => handed

def perform (jobs : Jobs) : Operation → Deed × Jobs
  | .insert pid =>
    let (new, jobs) := jobs.insert pid
    (.inserted pid new, jobs)
  | .drain =>
    let (handed, jobs) := jobs.drain
    (.drained handed, jobs)

/-- Do one operation after the other. -/
def performAll (jobs : Jobs) : List Operation → List Deed × Jobs
  | [] => ([], jobs)
  | operation :: operations =>
    let (deed, jobs) := jobs.perform operation
    let (deeds, jobs) := jobs.performAll operations
    (deed :: deeds, jobs)

theorem tracked_insert (jobs : Jobs) (pid other : Pid) :
    (jobs.insert pid).2.tracked other =
      jobs.tracked other + [Deed.inserted pid (jobs.insert pid).1].count
        (.inserted other true) := by
  by_cases same : other = pid
  · subst same
    have inside : (jobs.insert other).2.contains other = true := contains_insert.mpr (Or.inl rfl)
    by_cases old : jobs.contains other = true
    · simp [tracked, inside, fst_insert, old]
    · simp [tracked, inside, fst_insert, old]
  · simp [tracked, contains_insert, same, Ne.symm same]

theorem Ordered.perform {jobs : Jobs} (ordered : jobs.Ordered) (operation : Operation) :
    (jobs.perform operation).2.Ordered := by
  cases operation with
  | insert pid => exact ordered.insert pid
  | drain =>
      rw [Jobs.perform, drain_eq]
      exact ordered_empty

/-- One operation keeps count: what was there and what is new is handed out or still there. -/
theorem Ordered.tracked_perform {jobs : Jobs} (ordered : jobs.Ordered) (operation : Operation)
    (pid : Pid) :
    jobs.tracked pid + [(jobs.perform operation).1].count (.inserted pid true) =
      (jobs.perform operation).1.handed.count pid + (jobs.perform operation).2.tracked pid := by
  cases operation with
  | insert other =>
      simp only [Jobs.perform, Deed.handed, List.count_nil, Nat.zero_add]
      exact (jobs.tracked_insert other pid).symm
  | drain =>
      simp only [Jobs.perform, drain_eq, Deed.handed]
      rw [ordered.count_pids]
      rfl

theorem Ordered.performAll {jobs : Jobs} (ordered : jobs.Ordered) (operations : List Operation) :
    (jobs.performAll operations).2.Ordered := by
  induction operations generalizing jobs with
  | nil => exact ordered
  | cons operation operations inductionHypothesis =>
      exact inductionHypothesis (ordered.perform operation)

theorem Ordered.tracked_performAll {jobs : Jobs} (ordered : jobs.Ordered)
    (operations : List Operation) (pid : Pid) :
    jobs.tracked pid + (jobs.performAll operations).1.count (.inserted pid true) =
      ((jobs.performAll operations).1.flatMap Deed.handed).count pid +
        (jobs.performAll operations).2.tracked pid := by
  induction operations generalizing jobs with
  | nil => simp [Jobs.performAll]
  | cons operation operations inductionHypothesis =>
      have step := ordered.tracked_perform operation pid
      have later := inductionHypothesis (ordered.perform operation)
      simp only [Jobs.performAll, List.flatMap_cons, List.count_append]
      rw [← List.singleton_append, List.count_append]
      omega

/-- Whatever is done to an empty table, each number is handed out or still there as often as it was
new when it was put in. A drain that comes next hands out just the numbers that are there, each once
and in ascending order, whatever is done with them, and leaves none. -/
theorem conserved (operations : List Operation) :
    (∀ pid, (empty.performAll operations).1.count (.inserted pid true) =
      ((empty.performAll operations).1.flatMap Deed.handed).count pid +
        if (empty.performAll operations).2.contains pid then 1 else 0) ∧
    ∃ handed, (empty.performAll operations).2.perform .drain = (.drained handed, empty) ∧
      handed.Pairwise (· < ·) ∧
      (∀ pid, pid ∈ handed ↔ (empty.performAll operations).2.contains pid = true) ∧
      ∀ (State : Type) (visit : State → Pid → State) (state : State),
        (empty.performAll operations).2.drainWith visit state =
          (handed.foldl visit state, empty) := by
  have ordered := ordered_empty.performAll operations
  refine ⟨fun pid => ?_, _, ?_, ordered, ?_, ?_⟩
  · have counted := ordered_empty.tracked_performAll operations pid
    have none : empty.tracked pid = 0 := rfl
    rwa [none, Nat.zero_add] at counted
  · rw [perform, drain_eq]
  · intro pid
    exact contains_iff.symm
  · intro State visit state
    exact drainWith_eq visit state _

end Jobs

end CommandShell
