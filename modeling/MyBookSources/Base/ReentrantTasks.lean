import MyBookSources.Base.StopCalls

/-! # Tasks that add tasks

`TaskPool::threadFunc` locks `m_mutexList` for the whole round of its loop, so the lock is
still held where the round calls `doIt`. A task whose `doIt` calls `addTask` on its own pool
comes to the lock there.
-/

namespace MyBookSources.Base.TaskPool

/-- Where a thread of the pool is in a call of `addTask` that the task it runs has made. -/
inductive NestedCall (Task : Type)
  | none
  | locking (task : Option Task)
  | pushing (task : Option Task)
  | notifying
  deriving DecidableEq

/-- The pool and, for each of its threads, the call of `addTask` made by its task. -/
structure NestedPool (Task : Type) where
  pool : WaitLoop.WorkerSystem (Option Task)
  nested : Nat → NestedCall Task

/-- The steps of `poolMachine`, and those of the tasks that add a task. -/
inductive NestedLabel (Task : Type)
  | pool (label : WaitLoop.Label (Option Task))
  | addTask (worker : Nat) (task : Option Task)
  | lock (worker : Nat)
  | push (worker : Nat)
  | notify (worker : Nat) (woken : Option Nat)
  deriving DecidableEq

namespace NestedPool

variable {Task : Type}

def create (threadNum : Int) : NestedPool Task where
  pool := .create (threadCount threadNum)
  nested _ := .none

variable (system : NestedPool Task)

def moveNested (worker : Nat) (call : NestedCall Task) : NestedPool Task :=
  { system with nested := Function.update system.nested worker call }

def setPool (pool : WaitLoop.WorkerSystem (Option Task)) : NestedPool Task :=
  { system with pool := pool }

/-- The thread is in the `doIt` of a task; a null pointer has none. -/
def runsTask (worker : Nat) : Bool :=
  match system.pool.workers worker with
  | .working (some _) => true
  | _ => false

/-- A call of `addTask` that is not over keeps its `doIt` from returning. -/
def allows : WaitLoop.Label (Option Task) → Bool
  | .work worker => (system.nested worker matches .none)
  | _ => true

/-- `doIt` may call `addTask` at any time and with any task. -/
def step (system : NestedPool Task) : NestedLabel Task → Option (NestedPool Task)
  | .pool label =>
      if system.allows label then (waitLoop.step system.pool label).map system.setPool else none
  | .addTask worker task =>
      match system.runsTask worker, system.nested worker with
      | true, .none => some (system.moveNested worker (.locking task))
      | _, _ => none
  | .lock worker =>
      match system.nested worker, system.pool.owner with
      | .locking task, none =>
          some ((system.setPool (system.pool.setOwner (some (.worker worker)))).moveNested worker
            (.pushing task))
      | _, _ => none
  | .push worker =>
      match system.nested worker with
      | .pushing task =>
          some ((system.setPool ({ system.pool with
            queue := system.pool.queue ++ [task]
            pushed := system.pool.pushed ++ [task] }.setOwner none)).moveNested worker .notifying)
      | _ => none
  | .notify worker woken =>
      match system.nested worker with
      | .notifying =>
          (system.pool.wakeOne woken).map fun pool => (system.setPool pool).moveNested worker .none
      | _ => none

def WaitsForItself (worker : Nat) : Prop :=
  (∃ task, system.nested worker = .locking task) ∧ system.pool.owner = some (.worker worker)

/-- The thread is in `doIt` and has the mutex. -/
def WorksLocked (worker : Nat) : Prop :=
  system.runsTask worker = true ∧ system.pool.owner = some (.worker worker)

def TakesTask : NestedLabel Task → Prop
  | .pool (.take _) => system.pool.queue.head?.join.isSome = true
  | _ => False

instance (label : NestedLabel Task) : Decidable (system.TakesTask label) := by
  unfold TakesTask
  split <;> infer_instance

end NestedPool

def NestedLabel.AddsTask {Task : Type} : NestedLabel Task → Prop
  | .addTask _ _ => True
  | _ => False

/-! ## What the mutex protects -/

namespace NestedPool

variable {Task : Type} {system next : NestedPool Task}

structure Plain (system : NestedPool Task) : Prop where
  exclusive : system.pool.Exclusive waitLoop
  nested : ∀ worker, system.nested worker = .none

theorem create_plain (threadNum : Int) : (create threadNum : NestedPool Task).Plain where
  exclusive := WaitLoop.WorkerSystem.create_exclusive waitLoop _
  nested _ := rfl

theorem runsTask_iff {worker : Nat} :
    system.runsTask worker = true ↔ ∃ task, system.pool.workers worker = .working (some task) := by
  rw [runsTask]
  split
  · next task place => simp [place]
  · next other =>
    simp only [Bool.false_eq_true, false_iff, not_exists]
    exact other

theorem Plain.owner_of_runsTask (plain : system.Plain) {worker : Nat}
    (runs : system.runsTask worker = true) : system.pool.owner = some (.worker worker) := by
  rcases runsTask_iff.mp runs with ⟨task, place⟩
  apply plain.exclusive.workers
  rw [place]
  rfl

theorem Plain.step_cases (plain : system.Plain) {label : NestedLabel Task}
    (taken : system.step label = some next) :
    (∃ poolLabel pool, label = .pool poolLabel ∧
      (poolMachine Task).Step system.pool poolLabel pool ∧ next = system.setPool pool) ∨
    ∃ worker task, label = .addTask worker task ∧ system.runsTask worker = true ∧
      next = system.moveNested worker (.locking task) := by
  cases label with
  | pool label =>
      simp only [step] at taken
      split at taken
      · rcases Option.map_eq_some_iff.mp taken with ⟨pool, poolTaken, rfl⟩
        exact .inl ⟨label, pool, rfl, poolTaken, rfl⟩
      · cases taken
  | addTask worker task =>
      simp only [step, plain.nested worker] at taken
      split at taken
      · next runs _ =>
        cases taken
        exact .inr ⟨worker, task, rfl, runs, rfl⟩
      · cases taken
  | lock worker =>
      simp only [step, plain.nested worker] at taken
      cases taken
  | push worker =>
      simp only [step, plain.nested worker] at taken
      cases taken
  | notify worker woken =>
      simp only [step, plain.nested worker] at taken
      cases taken

theorem Plain.setPool (plain : system.Plain) {label : WaitLoop.Label (Option Task)}
    {pool : WaitLoop.WorkerSystem (Option Task)}
    (taken : (poolMachine Task).Step system.pool label pool) : (system.setPool pool).Plain where
  exclusive := WaitLoop.WorkerSystem.step_exclusive plain.exclusive taken
  nested := plain.nested

theorem Plain.not_waitsForItself (plain : system.Plain) (worker : Nat) :
    ¬ system.WaitsForItself worker := by
  rintro ⟨⟨task, locking⟩, _⟩
  rw [plain.nested worker] at locking
  cases locking

theorem Plain.waitsForItself (plain : system.Plain) {worker : Nat} (task : Option Task)
    (runs : system.runsTask worker = true) :
    (system.moveNested worker (.locking task)).WaitsForItself worker :=
  ⟨⟨task, Function.update_self _ _ _⟩, plain.owner_of_runsTask runs⟩

theorem Plain.worksLocked (plain : system.Plain) {worker : Nat} {task : Task}
    {pool : WaitLoop.WorkerSystem (Option Task)}
    (taken : (poolMachine Task).Step system.pool (.take worker) pool)
    (front : system.pool.queue.head?.join = some task) :
    (system.setPool pool).WorksLocked worker := by
  have runs : (system.setPool pool).runsTask worker = true := by
    rw [runsTask_iff]
    change ∃ task, pool.workers worker = .working (some task)
    cases WaitLoop.taken_of_step taken with
    | take place found =>
        rw [found, List.head?_cons, Option.join_some] at front
        exact ⟨task, by simp [WaitLoop.WorkerSystem.moveWorker, front]⟩
  exact ⟨runs, (plain.setPool taken).owner_of_runsTask runs⟩

/-- What holds as long as no task is taken. -/
structure Idle (system : NestedPool Task) : Prop where
  plain : system.Plain
  idle : ∀ worker, system.runsTask worker = false

theorem create_idle (threadNum : Int) : (create threadNum : NestedPool Task).Idle where
  plain := create_plain threadNum
  idle worker := by
    rw [← Bool.not_eq_true, runsTask_iff]
    rintro ⟨task, place⟩
    simp only [create, WaitLoop.WorkerSystem.create] at place
    split at place <;> cases place

theorem Idle.setPool (idle : system.Idle) {label : WaitLoop.Label (Option Task)}
    {pool : WaitLoop.WorkerSystem (Option Task)}
    (taken : (poolMachine Task).Step system.pool label pool)
    (null : ¬ system.TakesTask (.pool label)) : (system.setPool pool).Idle where
  plain := idle.plain.setPool taken
  idle worker := by
    rw [← Bool.not_eq_true, runsTask_iff]
    rintro ⟨task, place⟩
    rcases WaitLoop.WorkerSystem.working_of_step taken place with before | ⟨rfl, front⟩
    · have runs := runsTask_iff.mpr ⟨task, before⟩
      rw [idle.idle worker] at runs
      cases runs
    · exact null (by rw [TakesTask, front]; rfl)

def LocksOnce (system : NestedPool Task) : Prop :=
  ∀ worker, ¬ system.WorksLocked worker ∧ ¬ system.WaitsForItself worker

theorem Idle.locksOnce (idle : system.Idle) : system.LocksOnce := by
  intro worker
  constructor
  · rintro ⟨runs, _⟩
    rw [idle.idle worker] at runs
    cases runs
  · exact idle.plain.not_waitsForItself worker

end NestedPool

open NestedPool Machine in
/-- In a run no thread runs `doIt` under the mutex, or waits for the mutex it has, exactly if
only null pointers are taken from the list; no thread waits for it exactly if no task adds
a task. -/
theorem locks_once_iff {Task : Type} {threadNum : Int} {labels : List (NestedLabel Task)}
    {last : NestedPool Task} (run : runPartial step (create threadNum) labels = some last) :
    (RunHolds step LocksOnce (create threadNum) labels ↔
      RunPermits step (fun system label => ¬ system.TakesTask label) (create threadNum) labels) ∧
    (RunHolds step (fun system => ∀ worker, ¬ system.WaitsForItself worker) (create threadNum)
        labels ↔
      RunPermits step (fun _ label => ¬ label.AddsTask) (create threadNum) labels) := by
  constructor
  · have kept : ∀ (system : NestedPool Task) label next, system.Idle →
        system.step label = some next → ¬ system.TakesTask label →
        next.Idle ∧ next.LocksOnce := by
      intro system label next idle taken null
      rcases idle.plain.step_cases taken with
        ⟨poolLabel, pool, rfl, poolTaken, rfl⟩ | ⟨worker, task, _, runs, _⟩
      · have after := idle.setPool poolTaken null
        exact ⟨after, after.locksOnce⟩
      · rw [idle.idle worker] at runs
        cases runs
    have necessary : ∀ (system : NestedPool Task) label next, system.Idle →
        system.step label = some next → next.LocksOnce → ¬ system.TakesTask label := by
      intro system label next idle taken locksOnce takes
      rcases idle.plain.step_cases taken with
        ⟨poolLabel, pool, rfl, poolTaken, rfl⟩ | ⟨worker, task, rfl, _, _⟩
      · cases poolLabel with
        | take worker =>
            rcases Option.isSome_iff_exists.mp takes with ⟨task, front⟩
            exact (locksOnce worker).1 (idle.plain.worksLocked poolTaken front)
        | _ => exact takes
      · exact takes
    exact runHolds_iff_of_run kept necessary (create_idle threadNum)
      (create_idle threadNum).locksOnce run
  · have kept : ∀ (system : NestedPool Task) label next, system.Plain →
        system.step label = some next → ¬ label.AddsTask →
        next.Plain ∧ ∀ worker, ¬ next.WaitsForItself worker := by
      intro system label next plain taken adds
      rcases plain.step_cases taken with
        ⟨poolLabel, pool, rfl, poolTaken, rfl⟩ | ⟨worker, task, rfl, _, _⟩
      · have after := plain.setPool poolTaken
        exact ⟨after, after.not_waitsForItself⟩
      · exact absurd trivial adds
    have necessary : ∀ (system : NestedPool Task) label next, system.Plain →
        system.step label = some next → (∀ worker, ¬ next.WaitsForItself worker) →
        ¬ label.AddsTask := by
      intro system label next plain taken free adds
      rcases plain.step_cases taken with
        ⟨poolLabel, pool, rfl, _, _⟩ | ⟨worker, task, rfl, runs, rfl⟩
      · exact adds
      · exact free worker (plain.waitsForItself task runs)
    exact runHolds_iff_of_run kept necessary (create_plain threadNum)
      (create_plain threadNum).not_waitsForItself run

/-- One thread takes a null pointer from the list and goes on. -/
theorem locks_once_iff_null : ∃ last : NestedPool Unit,
    Machine.runPartial NestedPool.step (.create 1)
      [.pool (.begin 0 none), .pool (.push 0), .pool (.notify 0 none), .pool (.lock 0),
        .pool (.test 0), .pool (.retest 0), .pool (.take 0), .pool (.work 0)] = some last ∧
      last.LocksOnce := by
  have checked := Machine.runPermits_of_checked_run
    (show (Machine.runPartial (fun (system : NestedPool Unit) label =>
      if ¬ system.TakesTask label then system.step label else none) (.create 1)
      [.pool (.begin 0 none), .pool (.push 0), .pool (.notify 0 none), .pool (.lock 0),
        .pool (.test 0), .pool (.retest 0), .pool (.take 0), .pool (.work 0)]).isSome = true
      by decide)
  rcases Option.isSome_iff_exists.mp checked.1 with ⟨last, run⟩
  exact ⟨last, run, Machine.last_of_runHolds ((locks_once_iff run).1.mpr checked.2) run⟩

/-- A task that adds a task leaves its thread waiting for the mutex that it has. -/
theorem nested_call_waits_for_itself :
    ¬ ∀ threadNum labels (last : NestedPool Unit),
      Machine.runPartial NestedPool.step (.create threadNum) labels = some last →
        ∀ worker, ¬ last.WaitsForItself worker := by
  intro never
  have facts : (Machine.runPartial NestedPool.step (.create 1 : NestedPool Unit)
      [.pool (.begin 0 (some ())), .pool (.push 0), .pool (.notify 0 none), .pool (.lock 0),
        .pool (.test 0), .pool (.retest 0), .pool (.take 0), .addTask 0 none]).map
      (fun last => (last.nested 0, last.pool.owner)) =
      some (.locking none, some (.worker 0)) := by decide
  rcases Option.map_eq_some_iff.mp facts with ⟨last, run, reached⟩
  simp only [Prod.mk.injEq] at reached
  exact never 1 _ last run 0 ⟨⟨none, reached.1⟩, reached.2⟩

end MyBookSources.Base.TaskPool
