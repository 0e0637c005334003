import Mathlib.Algebra.Order.BigOperators.Group.Finset
import MyBookSources.Foundation.Threads
import MyBookSources.IOCPServer.IOCPModel

/-! # The worker threads and Stop

`Stop` sets the event, posts an exit packet for each thread and waits for all of them before it
deletes the contexts. Every completion that a worker thread handles is shown in the dialog, and an
item is put into the dialog's list by the dialog's own thread, which is the one that is in `Stop`.
Left out are a `CreateThread` that fails, whose null handle nobody looks at, and that some
completions are shown with more messages than one.
-/

namespace MyBookSources.IOCPServer

/-- `WaitForMultipleObjects` fails at once for more handles. -/
def MAXIMUM_WAIT_OBJECTS : Nat := 64

/-- What is in the completion port. `handled` is what `HandleError` says of a failed operation, and
is true of one that succeeded. -/
inductive Packet
  | exit
  | completion (handled : Bool)
  deriving DecidableEq

/-- Where a worker thread is: before its first message, at the test of the event, in
`GetQueuedCompletionStatus`, or with a completion and what it shows about it. -/
inductive WorkerPlace
  | starting
  | testing
  | waiting
  | showing (handled : Bool)
  | left
  deriving DecidableEq

def WorkerPlace.hindered : WorkerPlace → Bool
  | .starting => true
  | .showing _ => true
  | _ => false

/-- Where `Stop` is. -/
inductive StopPlace
  | before
  | posting (posted : Nat)
  | returned
  deriving DecidableEq

structure WorkerThreads where
  workers : Nat → WorkerPlace
  port : List Packet
  shutdown : Bool
  stop : StopPlace

def nThreads (processors : Nat) : Nat := WORKER_THREADS_PER_PROCESSOR * processors

namespace WorkerThreads

def create : WorkerThreads where
  workers _ := .starting
  port := []
  shutdown := false
  stop := .before

variable (pool : WorkerThreads)

def move (worker : Nat) (place : WorkerPlace) : WorkerThreads :=
  { pool with workers := Function.update pool.workers worker place }

@[simp] theorem workers_move_self (worker : Nat) (place : WorkerPlace) :
    (pool.move worker place).workers worker = place := Function.update_self _ _ _

theorem workers_move_of_ne {worker other : Nat} (different : other ≠ worker)
    (place : WorkerPlace) : (pool.move worker place).workers other = pool.workers other :=
  Function.update_of_ne different _ _

def dialogRuns : Bool :=
  match pool.stop with
  | .posting _ => false
  | _ => true

inductive Label
  | showMessage (worker : Nat)
  | testEvent (worker : Nat)
  | takePacket (worker : Nat)
  | complete (handled : Bool)
  | setEvent
  | post
  | wait
  deriving DecidableEq

def showMessage (worker : Nat) : Option WorkerThreads :=
  match pool.workers worker, pool.dialogRuns with
  | .starting, true => some (pool.move worker .testing)
  | .showing true, true => some (pool.move worker .testing)
  | .showing false, true => some (pool.move worker .left)
  | _, _ => none

def testEvent (worker : Nat) : Option WorkerThreads :=
  match pool.workers worker with
  | .testing => some (pool.move worker (if pool.shutdown then .left else .waiting))
  | _ => none

/-- `GetQueuedCompletionStatus` -/
def takePacket (worker : Nat) : Option WorkerThreads :=
  match pool.workers worker, pool.port with
  | .waiting, .exit :: rest => some { pool.move worker .left with port := rest }
  | .waiting, .completion handled :: rest =>
      some { pool.move worker (.showing handled) with port := rest }
  | _, _ => none

def step (processors : Nat) (pool : WorkerThreads) : Label → Option WorkerThreads
  | .showMessage worker =>
      if worker < nThreads processors then pool.showMessage worker else none
  | .testEvent worker => if worker < nThreads processors then pool.testEvent worker else none
  | .takePacket worker => if worker < nThreads processors then pool.takePacket worker else none
  | .complete handled =>
      if pool.stop = .returned then none
      else some { pool with port := pool.port ++ [.completion handled] }
  | .setEvent =>
      if pool.stop = .before then some { pool with shutdown := true, stop := .posting 0 } else none
  | .post =>
      match pool.stop with
      | .posting posted =>
          if posted < nThreads processors then
            some { pool with port := pool.port ++ [.exit], stop := .posting (posted + 1) }
          else none
      | _ => none
  | .wait =>
      if pool.stop = .posting (nThreads processors) ∧
          (MAXIMUM_WAIT_OBJECTS < nThreads processors ∨
            ∀ worker < nThreads processors, pool.workers worker = .left) then
        some { pool with stop := .returned }
      else none

end WorkerThreads

/-- The worker threads, the port and `Stop`, in any order. -/
def workerMachine (processors : Nat) : Machine WorkerThreads WorkerThreads.Label :=
  .ofPartial (WorkerThreads.step processors)

namespace WorkerThreads

variable {processors : Nat} {pool next : WorkerThreads}

/-! ## What a step does -/

/-- A worker goes from one place to another, and the port is what it leaves of it. -/
inductive Moves (pool : WorkerThreads) : WorkerPlace → WorkerPlace → List Packet → Prop
  | started (runs : pool.dialogRuns = true) : Moves pool .starting .testing pool.port
  | shown (runs : pool.dialogRuns = true) (handled : Bool) :
      Moves pool (.showing handled) (if handled then .testing else .left) pool.port
  | tested : Moves pool .testing (if pool.shutdown then .left else .waiting) pool.port
  | exits {rest : List Packet} (front : pool.port = .exit :: rest) :
      Moves pool .waiting .left rest
  | taken {rest : List Packet} {handled : Bool} (front : pool.port = .completion handled :: rest) :
      Moves pool .waiting (.showing handled) rest

inductive Change (processors : Nat) (pool : WorkerThreads) : WorkerThreads → Prop
  | worked {worker : Nat} {place : WorkerPlace} {port : List Packet}
      (there : worker < nThreads processors) (moves : pool.Moves (pool.workers worker) place port) :
      Change processors pool { pool.move worker place with port := port }
  | completed (handled : Bool) (open_port : pool.stop ≠ .returned) :
      Change processors pool { pool with port := pool.port ++ [.completion handled] }
  | signalled (before : pool.stop = .before) :
      Change processors pool { pool with shutdown := true, stop := .posting 0 }
  | posted {posted : Nat} (posting : pool.stop = .posting posted)
      (more : posted < nThreads processors) :
      Change processors pool
        { pool with port := pool.port ++ [.exit], stop := .posting (posted + 1) }
  | returned (posting : pool.stop = .posting (nThreads processors))
      (ended : MAXIMUM_WAIT_OBJECTS < nThreads processors ∨
        ∀ worker < nThreads processors, pool.workers worker = .left) :
      Change processors pool { pool with stop := .returned }

theorem step_changes {label : Label} (taken : pool.step processors label = some next) :
    Change processors pool next := by
  cases label with
  | showMessage worker =>
      rw [step] at taken
      split at taken
      · next there =>
          rw [showMessage] at taken
          split at taken
          · next place runs =>
              cases taken
              exact .worked there (place ▸ .started runs)
          · next place runs =>
              cases taken
              exact .worked there (place ▸ .shown runs true)
          · next place runs =>
              cases taken
              exact .worked there (place ▸ .shown runs false)
          · cases taken
      · cases taken
  | testEvent worker =>
      rw [step] at taken
      split at taken
      · next there =>
          rw [testEvent] at taken
          split at taken
          · next place =>
              cases taken
              exact .worked there (place ▸ .tested)
          · cases taken
      · cases taken
  | takePacket worker =>
      rw [step] at taken
      split at taken
      · next there =>
          rw [takePacket] at taken
          split at taken
          · next place front =>
              cases taken
              exact .worked there (place ▸ .exits front)
          · next place front =>
              cases taken
              exact .worked there (place ▸ .taken front)
          · cases taken
      · cases taken
  | complete handled =>
      rw [step] at taken
      split at taken
      · cases taken
      · next open_port =>
          cases taken
          exact .completed handled open_port
  | setEvent =>
      rw [step] at taken
      split at taken
      · next before =>
          cases taken
          exact .signalled before
      · cases taken
  | post =>
      rw [step] at taken
      split at taken
      · next posted posting =>
          split at taken
          · next more =>
              cases taken
              exact .posted posting more
          · cases taken
      · cases taken
  | wait =>
      rw [step] at taken
      split at taken
      · next ended =>
          cases taken
          exact .returned ended.1 ended.2
      · cases taken

/-! ## What is deleted -/

/-- Behind `Stop` nothing is left that could use a context. -/
def Alone (processors : Nat) (pool : WorkerThreads) : Prop :=
  pool.stop = .returned → ∀ worker < nThreads processors, pool.workers worker = .left

theorem alone_change (few : nThreads processors ≤ MAXIMUM_WAIT_OBJECTS)
    (alone : pool.Alone processors) (change : Change processors pool next) :
    next.Alone processors := by
  intro returned
  cases change with
  | @worked worker place port there moves =>
      rw [alone returned worker there] at moves
      cases moves
  | completed handled open_port => exact absurd returned open_port
  | signalled before => cases returned
  | posted posting more => cases returned
  | returned posting ended =>
      rcases ended with many | all
      · exact absurd few (Nat.not_le_of_lt many)
      · exact all

/-- `Stop` runs with the worker threads anywhere. -/
def stopCalls (processors : Nat) : List Label :=
  .setEvent :: (List.replicate (nThreads processors) .post ++ [.wait])

theorem posts_run (pool : WorkerThreads) : ∀ (count posted : Nat),
    pool.stop = .posting posted → posted + count ≤ nThreads processors →
    ∃ last, (workerMachine processors).Transitions pool (List.replicate count .post) last ∧
      last.stop = .posting (posted + count) ∧ last.workers = pool.workers
  | 0, posted, posting, _ => ⟨pool, .nil pool, posting, rfl⟩
  | count + 1, posted, posting, bound => by
      rcases posts_run pool count posted posting (by omega) with ⟨middle, run, middlePosting, same⟩
      refine ⟨{ middle with port := middle.port ++ [.exit], stop := .posting (posted + count + 1) },
        ?_, rfl, same⟩
      rw [List.replicate_succ']
      refine .snoc run ?_
      change middle.step processors .post = some _
      rw [step, middlePosting]
      dsimp only
      rw [if_pos (by omega)]

theorem nThreads_eq (processors : Nat) : nThreads processors = 2 * processors := rfl

theorem few_iff : nThreads processors ≤ MAXIMUM_WAIT_OBJECTS ↔ processors ≤ 32 := by
  rw [nThreads_eq, MAXIMUM_WAIT_OBJECTS]
  omega

/-- In every run no worker thread is in its loop any more when `Stop` has deleted the contexts,
exactly if the machine has no more than 32 processors. -/
theorem contexts_deleted_alone_iff (processors : Nat) :
    (∀ labels pool, (workerMachine processors).Transitions create labels pool →
      pool.Alone processors) ↔ processors ≤ 32 := by
  rw [← few_iff]
  constructor
  · intro alone
    by_contra many
    have ended := Nat.lt_of_not_le many
    have signalled : (workerMachine processors).Step create .setEvent
        { create with shutdown := true, stop := .posting 0 } := rfl
    rcases posts_run { create with shutdown := true, stop := .posting 0 } (nThreads processors) 0
      rfl (Nat.le_of_eq (Nat.zero_add _)) with ⟨posted, posts, posting, same⟩
    rw [Nat.zero_add] at posting
    have returned : (workerMachine processors).Step posted .wait
        { posted with stop := .returned } := by
      change posted.step processors .wait = some _
      rw [step, if_pos ⟨posting, .inl ended⟩]
    have run := Machine.Transitions.cons signalled (.snoc posts returned)
    have left := alone _ _ run rfl 0 (by omega)
    change posted.workers 0 = .left at left
    rw [same] at left
    cases left
  · intro few labels pool run
    refine run.invariant ?_ ?_
    · intro before label after alone taken
      exact alone_change few alone (step_changes taken)
    · intro returned
      cases returned

/-! ## Whether Stop returns -/

def waitingWeight : WorkerPlace → Nat
  | .waiting => 1
  | _ => 0

def leftWeight : WorkerPlace → Nat
  | .left => 1
  | _ => 0

def takers (processors : Nat) (pool : WorkerThreads) : Nat :=
  Threads.total (Finset.range (nThreads processors)) waitingWeight pool.workers

def gone (processors : Nat) (pool : WorkerThreads) : Nat :=
  Threads.total (Finset.range (nThreads processors)) leftWeight pool.workers

/-- No thread has a message to show, and the packets that are taken next are for exit. -/
structure Unhindered (processors : Nat) (pool : WorkerThreads) : Prop where
  silent : ∀ worker < nThreads processors, (pool.workers worker).hindered = false
  exits : ∀ packet ∈ pool.port.take (pool.takers processors), packet = .exit

theorem unhindered_iff : pool.Unhindered processors ↔
    (∀ worker < nThreads processors, (pool.workers worker).hindered = false) ∧
      ∀ packet ∈ pool.port.take (pool.takers processors), packet = .exit :=
  ⟨fun unhindered => ⟨unhindered.silent, unhindered.exits⟩, fun both => ⟨both.1, both.2⟩⟩

/-- Each exit packet that was posted is in the port, or a thread has left. -/
structure Supplied (processors : Nat) (pool : WorkerThreads) (posted : Nat) : Prop where
  shutdown : pool.shutdown = true
  bound : posted ≤ nThreads processors
  packets : posted ≤ pool.port.count .exit + pool.gone processors

theorem gone_move (pool : WorkerThreads) {worker : Nat} (there : worker < nThreads processors)
    (place : WorkerPlace) :
    (pool.move worker place).gone processors + leftWeight (pool.workers worker) =
      pool.gone processors + leftWeight place :=
  Threads.total_update (Finset.mem_range.mpr there) place

theorem takers_move (pool : WorkerThreads) {worker : Nat} (there : worker < nThreads processors)
    (place : WorkerPlace) :
    (pool.move worker place).takers processors + waitingWeight (pool.workers worker) =
      pool.takers processors + waitingWeight place :=
  Threads.total_update (Finset.mem_range.mpr there) place

theorem takers_add_gone_le (pool : WorkerThreads) (processors : Nat) :
    pool.takers processors + pool.gone processors ≤ nThreads processors := by
  rw [takers, gone, Threads.total, Threads.total, ← Finset.sum_add_distrib]
  have each : ∀ worker ∈ Finset.range (nThreads processors),
      waitingWeight (pool.workers worker) + leftWeight (pool.workers worker) ≤ 1 := by
    intro worker _
    cases pool.workers worker with
    | showing handled => exact Nat.zero_le 1
    | starting => exact Nat.zero_le 1
    | testing => exact Nat.zero_le 1
    | waiting => exact Nat.le_refl 1
    | left => exact Nat.le_refl 1
  refine (Finset.sum_le_sum each).trans (Nat.le_of_eq ?_)
  rw [← Finset.card_eq_sum_ones, Finset.card_range]

theorem Supplied.takers_le (supplied : pool.Supplied processors (nThreads processors)) :
    pool.takers processors ≤ pool.port.length := by
  have packets := supplied.packets
  have places := takers_add_gone_le pool processors
  have exits := List.count_le_length (a := Packet.exit) (l := pool.port)
  omega

theorem Moves.packets {place after : WorkerPlace} {port : List Packet}
    (moves : pool.Moves place after port) :
    leftWeight place = 0 ∧ pool.port.count .exit ≤ port.count .exit + leftWeight after := by
  cases moves with
  | started runs => exact ⟨rfl, Nat.le_add_right _ _⟩
  | shown runs handled => exact ⟨rfl, Nat.le_add_right _ _⟩
  | tested => exact ⟨rfl, Nat.le_add_right _ _⟩
  | exits front =>
      refine ⟨rfl, ?_⟩
      rw [front, List.count_cons_self]
      exact Nat.le_refl _
  | taken front =>
      refine ⟨rfl, ?_⟩
      rw [front, List.count_cons_of_ne (by simp)]
      exact Nat.le_add_right _ _

def Stopping (processors : Nat) (pool : WorkerThreads) : Prop :=
  ∀ posted, pool.stop = .posting posted → pool.Supplied processors posted

theorem stopping_change (stopping : pool.Stopping processors)
    (change : Change processors pool next) : next.Stopping processors := by
  intro posted posting
  cases change with
  | @worked worker place port there moves =>
      have supplied := stopping posted posting
      have packets := moves.packets
      have left := gone_move pool there place
      refine ⟨supplied.shutdown, supplied.bound, ?_⟩
      have before := supplied.packets
      change posted ≤ port.count .exit + (pool.move worker place).gone processors
      omega
  | completed handled open_port =>
      have supplied := stopping posted posting
      refine ⟨supplied.shutdown, supplied.bound, ?_⟩
      rw [List.count_append]
      exact supplied.packets.trans (Nat.add_le_add_right (Nat.le_add_right _ _) _)
  | signalled before =>
      cases posting
      exact ⟨rfl, Nat.zero_le _, Nat.zero_le _⟩
  | @posted earlier before more =>
      cases posting
      have supplied := stopping earlier before
      refine ⟨supplied.shutdown, more, ?_⟩
      have packets := supplied.packets
      change earlier + 1 ≤ (pool.port ++ [Packet.exit]).count .exit + pool.gone processors
      rw [List.count_append, List.count_singleton_self]
      omega
  | returned before ended => cases posting

theorem silent_move_iff {worker : Nat} {place : WorkerPlace}
    (same : (pool.workers worker).hindered = place.hindered) :
    (∀ other < nThreads processors, ((pool.move worker place).workers other).hindered = false) ↔
      ∀ other < nThreads processors, (pool.workers other).hindered = false := by
  refine forall_congr' fun other => imp_congr_right fun _ => ?_
  by_cases equal : other = worker
  · rw [equal, same, workers_move_self]
  · rw [workers_move_of_ne pool equal]

/-- Whoever is hindered while the dialog's thread is in `Stop` stays so, and nobody else is going
to be hindered than the one that takes a completion. -/
theorem unhindered_change_iff (posting : pool.stop = .posting (nThreads processors))
    (supplied : pool.Supplied processors (nThreads processors))
    (change : Change processors pool next) (still : next.stop ≠ .returned) :
    pool.Unhindered processors ↔ next.Unhindered processors := by
  cases change with
  | @worked worker place port there moves =>
      have waiting := takers_move pool there place
      generalize before : pool.workers worker = from_place at moves
      cases moves with
      | started runs =>
          rw [dialogRuns, posting] at runs
          cases runs
      | shown runs handled =>
          rw [dialogRuns, posting] at runs
          cases runs
      | tested =>
          rw [supplied.shutdown, if_pos rfl] at waiting ⊢
          have same : (pool.move worker .left).takers processors = pool.takers processors := by
            rw [before] at waiting
            exact waiting
          rw [unhindered_iff, unhindered_iff]
          refine and_congr (silent_move_iff ?_).symm ?_
          · rw [before]
            rfl
          · change _ ↔ ∀ packet ∈ pool.port.take ((pool.move worker .left).takers processors), _
            rw [same]
      | @exits rest front =>
          have one : pool.takers processors = (pool.move worker .left).takers processors + 1 := by
            rw [before] at waiting
            exact waiting.symm
          rw [unhindered_iff, unhindered_iff]
          refine and_congr (silent_move_iff ?_).symm ?_
          · rw [before]
            rfl
          · change _ ↔ ∀ packet ∈ port.take ((pool.move worker .left).takers processors), _
            rw [one, front, List.take_succ_cons, List.forall_mem_cons]
            exact and_iff_right rfl
      | @taken rest handled front =>
          constructor
          · intro unhindered
            have some_taker : pool.takers processors =
                (pool.move worker (.showing handled)).takers processors + 1 := by
              rw [before] at waiting
              exact waiting.symm
            have exit := unhindered.exits
            rw [some_taker, front, List.take_succ_cons] at exit
            cases exit _ List.mem_cons_self
          · intro unhindered
            have silent := unhindered.silent worker there
            rw [show ({ pool.move worker (.showing handled) with port := port } :
              WorkerThreads).workers worker = .showing handled from workers_move_self ..] at silent
            cases silent
  | completed handled open_port =>
      rw [unhindered_iff, unhindered_iff]
      refine and_congr Iff.rfl ?_
      change _ ↔ ∀ packet ∈
        (pool.port ++ [Packet.completion handled]).take (pool.takers processors), _
      rw [List.take_append_of_le_length supplied.takers_le]
  | signalled before =>
      rw [posting] at before
      cases before
  | posted before more =>
      rw [posting] at before
      cases before
      exact absurd more (Nat.lt_irrefl _)
  | returned before ended => exact absurd rfl still

def CanReturn (processors : Nat) (pool : WorkerThreads) : Prop :=
  ∃ labels later, (workerMachine processors).Transitions pool labels later ∧
    later.stop = .returned

theorem CanReturn.behind {label : Label} (step : (workerMachine processors).Step pool label next)
    (returns : next.CanReturn processors) : pool.CanReturn processors := by
  rcases returns with ⟨labels, later, run, returned⟩
  exact ⟨label :: labels, later, .cons step run, returned⟩

theorem canReturn_of_all_left (posting : pool.stop = .posting (nThreads processors))
    (all : ∀ worker < nThreads processors, pool.workers worker = .left) :
    pool.CanReturn processors := by
  refine ⟨[.wait], { pool with stop := .returned }, .cons ?_ (.nil _), rfl⟩
  change pool.step processors .wait = some _
  rw [step, if_pos ⟨posting, .inr all⟩]

theorem exists_leaving (supplied : pool.Supplied processors (nThreads processors))
    (unhindered : pool.Unhindered processors) {worker : Nat} (there : worker < nThreads processors)
    (still : pool.workers worker ≠ .left) :
    ∃ label next, (workerMachine processors).Step pool label next ∧ next.stop = pool.stop ∧
      next.gone processors = pool.gone processors + 1 := by
  have silent := unhindered.silent worker there
  have left := gone_move pool there .left
  cases place : pool.workers worker with
  | starting =>
      rw [place] at silent
      cases silent
  | showing handled =>
      rw [place] at silent
      cases silent
  | left => exact absurd place still
  | testing =>
      refine ⟨.testEvent worker, pool.move worker .left, ?_, rfl, ?_⟩
      · change pool.step processors (.testEvent worker) = some _
        rw [step, if_pos there, testEvent, place, supplied.shutdown]
        rfl
      · rw [place] at left
        exact left
  | waiting =>
      have takes : 1 ≤ pool.takers processors := by
        have weight : waitingWeight (pool.workers worker) ≤ pool.takers processors :=
          Threads.weight_le_total (Finset.mem_range.mpr there)
        rw [place] at weight
        exact weight
      cases front : pool.port with
      | nil =>
          have enough := supplied.takers_le
          rw [front, List.length_nil] at enough
          omega
      | cons packet rest =>
          have exit : packet = .exit := by
            apply unhindered.exits
            rcases Nat.exists_eq_add_of_le' takes with ⟨others, count⟩
            rw [count, front, List.take_succ_cons]
            exact List.mem_cons_self
          refine ⟨.takePacket worker, { pool.move worker .left with port := rest }, ?_, rfl, ?_⟩
          · change pool.step processors (.takePacket worker) = some _
            rw [step, if_pos there, takePacket, place, front, exit]
          · rw [place] at left
            exact left

theorem canReturn_of_unhindered (remaining : Nat) : ∀ {pool : WorkerThreads},
    pool.stop = .posting (nThreads processors) → pool.Stopping processors →
    pool.Unhindered processors → nThreads processors ≤ pool.gone processors + remaining →
    pool.CanReturn processors := by
  induction remaining with
  | zero =>
      intro pool posting stopping unhindered ended
      by_cases all : ∀ worker < nThreads processors, pool.workers worker = .left
      · exact canReturn_of_all_left posting all
      · push Not at all
        rcases all with ⟨worker, there, still⟩
        rcases exists_leaving (stopping _ posting) unhindered there still with
          ⟨label, next, taken, same, left⟩
        have places := takers_add_gone_le next processors
        omega
  | succ remaining induction =>
      intro pool posting stopping unhindered ended
      by_cases all : ∀ worker < nThreads processors, pool.workers worker = .left
      · exact canReturn_of_all_left posting all
      · push Not at all
        rcases all with ⟨worker, there, still⟩
        rcases exists_leaving (stopping _ posting) unhindered there still with
          ⟨label, next, taken, same, left⟩
        have change := step_changes taken
        have nextPosting := same.trans posting
        have going : next.stop ≠ .returned := by
          rw [nextPosting]
          exact StopPlace.noConfusion
        apply CanReturn.behind taken
        apply induction nextPosting (stopping_change stopping change)
        · exact (unhindered_change_iff posting (stopping _ posting) change going).mp unhindered
        · omega

theorem unhindered_of_all_left (all : ∀ worker < nThreads processors, pool.workers worker = .left) :
    pool.Unhindered processors where
  silent worker there := by
    rw [all worker there]
    rfl
  exits packet member := by
    have none : pool.takers processors = 0 := by
      rw [takers, Threads.total]
      refine Finset.sum_eq_zero fun worker member => ?_
      rw [all worker (Finset.mem_range.mp member)]
      rfl
    rw [none, List.take_zero] at member
    cases member

inductive Follows (processors : Nat) (first later : WorkerThreads) : Prop
  | waits (posting : later.stop = .posting (nThreads processors))
      (stopping : later.Stopping processors)
      (same : first.Unhindered processors ↔ later.Unhindered processors) :
      Follows processors first later
  | returned (returned : later.stop = .returned) (unhindered : first.Unhindered processors) :
      Follows processors first later

theorem Follows.change {first : WorkerThreads} (few : nThreads processors ≤ MAXIMUM_WAIT_OBJECTS)
    (follows : Follows processors first pool) (change : Change processors pool next) :
    Follows processors first next := by
  cases follows with
  | waits posting stopping same =>
      by_cases ended : next.stop = .returned
      · apply Follows.returned ended
        apply same.mpr
        cases change with
        | worked there moves =>
            rw [show ({ pool.move _ _ with port := _ } : WorkerThreads).stop = pool.stop from rfl,
              posting] at ended
            cases ended
        | completed handled open_port =>
            rw [posting] at ended
            cases ended
        | signalled before => cases ended
        | posted before more => cases ended
        | returned _ all =>
            rcases all with many | all
            · exact absurd few (Nat.not_le_of_lt many)
            · exact unhindered_of_all_left all
      · have kept := unhindered_change_iff posting (stopping _ posting) change ended
        refine .waits ?_ (stopping_change stopping change) (same.trans kept)
        cases change with
        | worked there moves => exact posting
        | completed handled open_port => exact posting
        | signalled before =>
            rw [posting] at before
            cases before
        | posted before more =>
            rw [posting] at before
            cases before
            exact absurd more (Nat.lt_irrefl _)
        | returned _ all => exact absurd rfl ended
  | returned returned unhindered =>
      refine .returned ?_ unhindered
      cases change with
      | worked there moves => exact returned
      | completed handled open_port => exact returned
      | signalled before =>
          rw [returned] at before
          cases before
      | posted before more =>
          rw [returned] at before
          cases before
      | returned posting all => rfl

/-- When `Stop` has posted its packets from the dialog's thread, it can return exactly if no thread
has something to show and the packets that the threads in `GetQueuedCompletionStatus` take are all
for exit. Then it can return whatever happens, and otherwise it never does. -/
theorem stop_returns_iff (few : processors ≤ 32) {labels : List Label}
    (run : (workerMachine processors).Transitions create labels pool)
    (posting : pool.stop = .posting (nThreads processors)) :
    (pool.CanReturn processors ↔ pool.Unhindered processors) ∧
      (pool.Unhindered processors →
        ∀ later, (workerMachine processors).Reaches pool later → later.CanReturn processors) := by
  have stopping : pool.Stopping processors := by
    refine run.invariant ?_ ?_
    · intro before label after stopping taken
      exact stopping_change stopping (step_changes taken)
    · intro posted posting
      cases posting
  have fate : ∀ labels later, (workerMachine processors).Transitions pool labels later →
      Follows processors pool later := by
    intro labels later run
    refine run.invariant ?_ (.waits posting stopping Iff.rfl)
    intro before label after follows taken
    exact follows.change (few_iff.mpr few) (step_changes taken)
  refine ⟨⟨?_, ?_⟩, ?_⟩
  · rintro ⟨labels, later, run, returned⟩
    cases fate labels later run with
    | waits posting stopping same =>
        rw [posting] at returned
        cases returned
    | returned _ unhindered => exact unhindered
  · intro unhindered
    exact canReturn_of_unhindered _ posting stopping unhindered (Nat.le_add_left _ _)
  · rintro unhindered later ⟨labels, run⟩
    cases fate labels later run with
    | waits posting stopping same =>
        exact canReturn_of_unhindered _ posting stopping (same.mp unhindered)
          (Nat.le_add_left _ _)
    | returned returned _ => exact ⟨[], later, .nil _, returned⟩

/-- A thread that has taken a completion before `Stop` was called never leaves. -/
theorem stop_returns_iff_completion : ∃ pool : WorkerThreads,
    (workerMachine 1).Reaches create pool ∧ pool.stop = .posting 2 ∧ ¬ pool.CanReturn 1 := by
  have facts : (Machine.runPartial (step 1) create
      [.showMessage 0, .showMessage 1, .testEvent 0, .testEvent 1, .complete true, .takePacket 0,
        .setEvent, .post, .post]).map (fun pool => (pool.stop, pool.workers 0)) =
      some (.posting 2, .showing true) := by
    decide +kernel
  rcases Option.map_eq_some_iff.mp facts with ⟨pool, ran, reached⟩
  have run := Machine.transitions_of_runPartial ran
  rcases Prod.mk.inj reached with ⟨posting, shows⟩
  refine ⟨pool, ⟨_, run⟩, posting, ?_⟩
  intro returns
  have unhindered := (stop_returns_iff (by decide) run posting).1.mp returns
  have silent := unhindered.silent 0 (by decide)
  rw [shows] at silent
  cases silent

end WorkerThreads

end MyBookSources.IOCPServer
