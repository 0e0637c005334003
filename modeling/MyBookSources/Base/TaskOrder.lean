import MyBookSources.Base.StopCalls
import MyBookSources.Foundation.WaitLoopFairness

/-! # Tasks, lines and mails are dealt with in order and in the end

A round of `TaskPool::threadFunc` keeps `m_mutexList` while it runs its task, so the threads of
the pool run the tasks one after the other. The write thread of the log and the alert thread of
`MailMonitor` are alone at their queues.
-/

namespace MyBookSources.Base

open WaitLoop.WorkerSystem

namespace TaskPool

variable {Task : Type} {threadNum : Int} {pool : WaitLoop.WorkerSystem (Option Task)}
variable {labels : List (WaitLoop.Label (Option Task))}

theorem threadCount_pos (threadNum : Int) : 0 < threadCount threadNum := by
  rw [threadCount]
  split <;> omega

theorem serial_of_transitions
    (transitions : (poolMachine Task).Transitions (.create (threadCount threadNum)) labels pool) :
    pool.Serial ∧ pool.Exclusive waitLoop := by
  apply transitions.invariant
  · intro before label after holds step
    have taken := WaitLoop.taken_of_step step
    exact ⟨step_serial rfl holds.1 holds.2 taken, step_exclusive holds.2 step⟩
  · exact ⟨create_serial _, create_exclusive waitLoop _⟩

/-- In every run of a pool with any number of threads at most one task is being worked on, the
tasks that were worked on before are the first that were added, and the list has the others. -/
theorem tasks_run_in_order
    (transitions : (poolMachine Task).Transitions (.create (threadCount threadNum)) labels pool) :
    pool.pushed = pool.handled ++ pool.atWork ++ pool.queue ∧
    (∀ worker task, pool.workers worker = .working task → pool.atWork = [task]) ∧
    ((∀ worker task, pool.workers worker ≠ .working task) → pool.atWork = []) ∧
    ∀ worker other task later, pool.workers worker = .working task →
      pool.workers other = .working later → worker = other := by
  rcases serial_of_transitions transitions with ⟨serial, exclusive⟩
  have owner : ∀ {worker : Nat} {task : Option Task}, pool.workers worker = .working task →
      pool.owner = some (.worker worker) := by
    intro worker task works
    exact exclusive.workers worker (by rw [works]; rfl)
  refine ⟨serial, ?_, ?_, ?_⟩
  · intro worker task works
    rw [atWork_of_worker (owner works), works]
    rfl
  · intro nobody
    rcases pool.atWork_nil_or with none | ⟨worker, task, works⟩
    · exact none
    · exact absurd works (nobody worker task)
  · intro worker other task later works too
    have same := (owner works).symm.trans (owner too)
    cases same
    rfl

/-- Of two tasks that are added to a pool of two threads one is run and one is left. -/
theorem tasks_run_in_order_two : ∃ pool : WaitLoop.WorkerSystem (Option Nat),
    pool.workers 1 = .working (some 3) ∧ pool.pushed = [some 3, some 4] ∧
      pool.atWork = [some 3] ∧ pool.queue = [some 4] ∧ ∀ task, pool.workers 0 ≠ .working task := by
  have facts : (Machine.runPartial waitLoop.step
      (.create (threadCount 2) : WaitLoop.WorkerSystem (Option Nat))
      [.begin 0 (some 3), .push 0, .notify 0 none, .begin 1 (some 4), .push 1, .notify 1 none,
        .lock 1, .test 1, .retest 1, .take 1]).map
      (fun pool => (pool.workers 1, pool.pushed, pool.queue)) =
      some (.working (some 3), [some 3, some 4], [some 4]) := by rfl
  rcases Option.map_eq_some_iff.mp facts with ⟨pool, ran, reached⟩
  simp only [Prod.mk.injEq] at reached
  rcases tasks_run_in_order (Machine.transitions_of_runPartial ran) with ⟨_, hand, _, alone⟩
  refine ⟨pool, reached.1, reached.2.1, hand 1 (some 3) reached.1, reached.2.2, ?_⟩
  intro task works
  exact absurd (alone 0 1 task (some 3) works reached.1) (by decide)

end TaskPool

section

variable {settings : CAsyncLog.Settings} {config : MailMonitor.Config} {Task : Type}

theorem alone_in_the_end {loop : WaitLoop} {Item : Type}
    {run : (loop.machine Item).EndlessRun (create 1)} (lively : Lively run) (time : Nat) :
    ∃ later, time ≤ later ∧ (run.states time).pushed <+: (run.states later).handled := by
  apply handled_in_the_end Nat.one_pos lively.goesOn lively.fair
  · intro time
    have ordered := (run.transitions time).invariant
      (fun before label after holds step => step_ordered holds step) create_ordered
    exact ordered.kept
  · intro time
    exact (handled_in_order (run.transitions time)).1

/-- While no stop call is made and no write fails, each line that has been queued is written,
each mail is sent and each task is run after finitely many steps, in the order of the queue,
however many threads queue on and however many threads the pool has. -/
theorem queued_work_is_done :
    (∀ (run : (CAsyncLog.logMachine settings).EndlessRun (create 1)), Lively run →
      ∀ time, ∃ later, time ≤ later ∧
        (run.states time).pushed <+: (run.states later).handled) ∧
    (∀ (run : (MailMonitor.mailMachine config).EndlessRun (create 1)), Lively run →
      ∀ time, ∃ later, time ≤ later ∧
        (run.states time).pushed <+: (run.states later).handled) ∧
    ∀ threadNum (run : (TaskPool.poolMachine Task).EndlessRun
        (create (TaskPool.threadCount threadNum))), Lively run →
      ∀ time, ∃ later, time ≤ later ∧
        (run.states time).pushed <+: (run.states later).handled := by
  refine ⟨?_, ?_, ?_⟩
  · intro run lively time
    exact alone_in_the_end lively time
  · intro run lively time
    exact alone_in_the_end lively time
  · intro threadNum run lively time
    have serial : ∀ time, (run.states time).Serial :=
      fun time => (TaskPool.serial_of_transitions (run.transitions time)).1
    apply handled_in_the_end (TaskPool.threadCount_pos threadNum) lively.goesOn lively.fair
    · exact fun time => (serial time).kept
    · intro time
      rw [serial time, List.append_assoc]
      exact List.prefix_append _ _

end

/-- A line, a mail and a task are queued and dealt with. -/
theorem queued_work_is_done_one :
    (∃ (run : (CAsyncLog.logMachine CAsyncLog.sampleSettings).EndlessRun (create 1))
      (later : Nat), [CAsyncLog.sampleLine] <+: (run.states later).handled) ∧
    (∃ (run : (MailMonitor.mailMachine sampleConfig).EndlessRun (create 1)) (later : Nat),
      [⟨⟨ascii "s", ascii "c"⟩, rfl⟩] <+: (run.states later).handled) ∧
    ∃ (run : (TaskPool.poolMachine Unit).EndlessRun (create (TaskPool.threadCount 1)))
      (later : Nat), [some ()] <+: (run.states later).handled := by
  have done := @queued_work_is_done CAsyncLog.sampleSettings sampleConfig Unit
  refine ⟨?_, ?_, ?_⟩
  · rcases exists_busy_run CAsyncLog.waitLoop CAsyncLog.sampleLine with
      ⟨run, lively, time, pushed⟩
    rcases done.1 run lively time with ⟨later, _, handled⟩
    exact ⟨run, later, pushed ▸ handled⟩
  · rcases exists_busy_run MailMonitor.waitLoop
      (⟨⟨ascii "s", ascii "c"⟩, rfl⟩ : MailMonitor.QueuedItem sampleConfig) with
      ⟨run, lively, time, pushed⟩
    rcases done.2.1 run lively time with ⟨later, _, handled⟩
    exact ⟨run, later, pushed ▸ handled⟩
  · rcases exists_busy_run TaskPool.waitLoop (some ()) with ⟨run, lively, time, pushed⟩
    rcases done.2.2 1 run lively time with ⟨later, _, handled⟩
    exact ⟨run, later, pushed ▸ handled⟩

end MyBookSources.Base
