import MyBookSources.Base.AsyncLog

/-! # Stop calls

The write thread of the log, the alert thread of `MailMonitor` and the threads of
`TaskPool` wait for work in loops of one shape. Their stop calls set the flag and notify
without the mutex under which the loops test the flag.
-/

namespace MyBookSources.Base

namespace MailMonitor

structure MailItem where
  subject : Bytes
  content : Bytes
  deriving DecidableEq

/-- What `initMonitorMailInfo` stores. -/
structure Config where
  strMailServer : Bytes
  nMailPort : Int
  strFrom : Bytes
  strFromPassword : Bytes
  strMailTo : List Bytes

/-- The item that `alert` queues, unless the account is not configured. -/
def alert (config : Config) (subject content : Bytes) : Option MailItem :=
  if config.strMailServer.isEmpty || config.nMailPort < 0 || config.strFrom.isEmpty ||
      config.strFromPassword.isEmpty || config.strMailTo.isEmpty then none
  else some ⟨subject, content⟩

structure QueuedItem (config : Config) where
  item : MailItem
  queued : alert config item.subject item.content = some item

/-- The loop of `alertThread` with `alert` as producer and `uninit` as stop call. -/
def waitLoop : WaitLoop where
  stopWakesAll := false
  notifiesLocked := true
  retests := false
  worksLocked := false
  leavesOnFailure := false

abbrev mailMachine (config : Config) := waitLoop.machine (QueuedItem config)

end MailMonitor

namespace TaskPool

/-- The loop of `threadFunc` with `addTask` as producer and `stop` as stop call. The lock
of a round is held until the task is done, and a pool that was stopped leaves its tasks. -/
def waitLoop : WaitLoop where
  stopWakesAll := true
  notifiesLocked := false
  retests := true
  worksLocked := true
  leavesOnFailure := false

/-- The number of threads that `init` starts. -/
def threadCount (threadNum : Int) : Nat := if threadNum ≤ 0 then 5 else threadNum.toNat

/-- A task may be the null pointer, on which no work is done. -/
abbrev poolMachine (Task : Type) := waitLoop.machine (Option Task)

end TaskPool

section

variable {settings : CAsyncLog.Settings} {config : MailMonitor.Config} {Task : Type}

open WaitLoop.WorkerSystem in
/-- In every run whose stop call notifies while no worker stands between its test of the
flag and its wait, no worker is left waiting. -/
theorem stop_call_wakes_workers :
    (∀ labels (log : WaitLoop.WorkerSystem (CAsyncLog.LogLine settings)),
      ((CAsyncLog.logMachine settings).restrict NotifiesOutside).Transitions (.create 1) labels
        log → ¬ log.Hangs) ∧
    (∀ labels (monitor : WaitLoop.WorkerSystem (MailMonitor.QueuedItem config)),
      ((MailMonitor.mailMachine config).restrict NotifiesOutside).Transitions (.create 1) labels
        monitor → ¬ monitor.Hangs) ∧
    ∀ threadNum labels (pool : WaitLoop.WorkerSystem (Option Task)),
      ((TaskPool.poolMachine Task).restrict NotifiesOutside).Transitions
        (.create (TaskPool.threadCount threadNum)) labels pool → ¬ pool.Hangs := by
  refine ⟨?_, ?_, ?_⟩
  · intro labels log transitions
    exact not_hangs_of_transitions (.inr (Nat.le_refl 1)) transitions
  · intro labels monitor transitions
    exact not_hangs_of_transitions (.inr (Nat.le_refl 1)) transitions
  · intro threadNum labels pool transitions
    exact not_hangs_of_transitions (.inl rfl) transitions

end

def sampleConfig : MailMonitor.Config := ⟨ascii "m", 25, ascii "a", ascii "b", [ascii "c"]⟩

/-- A pool of two threads, one of which waits when the pool is stopped. -/
theorem stop_call_wakes_workers_two : ∃ pool : WaitLoop.WorkerSystem (Option Unit),
    pool.workers 0 = .finished ∧ pool.stop = .notified ∧ ¬ pool.Hangs := by
  have facts : (Machine.runPartial (fun pool label =>
      if pool.NotifiesOutside label then TaskPool.waitLoop.step pool label else none)
      (.create (TaskPool.threadCount 2) : WaitLoop.WorkerSystem (Option Unit))
      [.lock 0, .test 0, .decide 0, .wait 0, .stopFlag, .stopNotify none, .relock 0, .test 0,
        .decide 0, .retest 0]).map (fun pool => (pool.workers 0, pool.stop)) =
      some (.finished, .notified) := by decide
  rcases Option.map_eq_some_iff.mp facts with ⟨pool, ran, reached⟩
  simp only [Prod.mk.injEq] at reached
  have calm := (@stop_call_wakes_workers CAsyncLog.sampleSettings sampleConfig Unit).2.2 2 _ pool
    (Machine.transitions_of_checked_run ran)
  exact ⟨pool, reached.1, reached.2, calm⟩

/-- In each of the three the notification may come between a worker's test of the flag and
its wait, which nobody ends then. -/
theorem stop_between_test_and_wait_hangs :
    ¬ ((∀ settings labels (log : WaitLoop.WorkerSystem (CAsyncLog.LogLine settings)),
        (CAsyncLog.logMachine settings).Transitions (.create 1) labels log → ¬ log.Hangs) ∨
      (∀ config labels (monitor : WaitLoop.WorkerSystem (MailMonitor.QueuedItem config)),
        (MailMonitor.mailMachine config).Transitions (.create 1) labels monitor →
          ¬ monitor.Hangs) ∨
      ∃ threadNum, ∀ labels (pool : WaitLoop.WorkerSystem (Option Unit)),
        (TaskPool.poolMachine Unit).Transitions (.create (TaskPool.threadCount threadNum)) labels
          pool → ¬ pool.Hangs) := by
  rintro (logSafe | mailSafe | ⟨threadNum, poolSafe⟩)
  · have hangingRun : ∃ labels, ∃ log, (CAsyncLog.logMachine CAsyncLog.sampleSettings).Transitions
        (.create 1) labels log ∧ log.Hangs :=
      WaitLoop.WorkerSystem.exists_hanging_run CAsyncLog.waitLoop Nat.one_pos
    rcases hangingRun with ⟨labels, log, run, hangs⟩
    exact logSafe _ labels log run hangs
  · have hangingRun : ∃ labels, ∃ monitor, (MailMonitor.mailMachine sampleConfig).Transitions
        (.create 1) labels monitor ∧ monitor.Hangs :=
      WaitLoop.WorkerSystem.exists_hanging_run MailMonitor.waitLoop Nat.one_pos
    rcases hangingRun with ⟨labels, monitor, run, hangs⟩
    exact mailSafe _ labels monitor run hangs
  · have positive : 0 < TaskPool.threadCount threadNum := by
      rw [TaskPool.threadCount]
      split <;> omega
    have hangingRun : ∃ labels, ∃ pool, (TaskPool.poolMachine Unit).Transitions
        (.create (TaskPool.threadCount threadNum)) labels pool ∧ pool.Hangs :=
      WaitLoop.WorkerSystem.exists_hanging_run TaskPool.waitLoop positive
    rcases hangingRun with ⟨labels, pool, run, hangs⟩
    exact poolSafe labels pool run hangs

end MyBookSources.Base
