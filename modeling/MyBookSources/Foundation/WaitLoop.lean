import MyBookSources.Foundation.Execution
import Mathlib.Logic.Function.Basic

/-! # Workers that wait for a queue to fill

Workers take items from a queue under a mutex and wait on a condition variable while it is
empty, unless a flag tells them to leave. Producers push and notify; a stop call sets the
flag and notifies, neither of them under the mutex. A step is one access to what the
threads share, so every interleaving is a run.
-/

namespace MyBookSources

structure WaitLoop where
  /-- The stop call wakes all workers, and not one of them. -/
  stopWakesAll : Bool
  /-- Producers notify before they release the mutex. -/
  notifiesLocked : Bool
  /-- The flag is tested once more behind the wait, so that items may be left. -/
  retests : Bool
  /-- Workers keep the mutex while they work on an item. -/
  worksLocked : Bool
  /-- A worker whose work fails leaves. -/
  leavesOnFailure : Bool

namespace WaitLoop

section

variable {Item : Type}

/-- Where a worker is. From `testing` to `taking` it holds the mutex; in `waiting` it can
only be woken; in `woken` it needs the mutex to come back from the wait. -/
inductive WorkerPlace (Item : Type)
  | away
  | testing
  | deciding
  | entering
  | waiting
  | woken
  | retesting
  | taking
  | working (item : Item)
  | finished
  deriving DecidableEq

/-- Where a producer is: `pushing` and `releasing` hold the mutex, and so does `notifying`
if the program notifies before it releases the mutex. -/
inductive ProducerPlace (Item : Type)
  | away
  | pushing (item : Item)
  | notifying
  | releasing
  deriving DecidableEq

inductive StopPlace
  | before
  | flagged
  | notified
  deriving DecidableEq

inductive Party
  | worker (id : Nat)
  | producer (id : Nat)
  deriving DecidableEq

/-- `pushed` and `handled` record the items in the order in which they were pushed and
worked on. -/
structure WorkerSystem (Item : Type) where
  count : Nat
  owner : Option Party
  queue : List Item
  stop : StopPlace
  workers : Nat → WorkerPlace Item
  producers : Nat → ProducerPlace Item
  pushed : List Item
  handled : List Item

/-- The steps of the workers, the producers and the stop call. A notification names the
worker that it wakes, if there is one; `wake` is a spurious wakeup. -/
inductive Label (Item : Type)
  | lock (worker : Nat)
  | test (worker : Nat)
  | decide (worker : Nat)
  | wait (worker : Nat)
  | wake (worker : Nat)
  | relock (worker : Nat)
  | retest (worker : Nat)
  | take (worker : Nat)
  | work (worker : Nat)
  | fail (worker : Nat)
  | begin (producer : Nat) (item : Item)
  | push (producer : Nat)
  | notify (producer : Nat) (woken : Option Nat)
  | release (producer : Nat)
  | stopFlag
  | stopNotify (woken : Option Nat)
  deriving DecidableEq

def WorkerPlace.isWaiting : WorkerPlace Item → Bool
  | .waiting => true
  | _ => false

def WorkerPlace.isEntering : WorkerPlace Item → Bool
  | .entering => true
  | _ => false

/-- The worker has tested the flag and is going to wait, or waits and is not woken. -/
def WorkerPlace.asleep : WorkerPlace Item → Bool
  | .entering | .waiting => true
  | _ => false

namespace WorkerSystem

def create (count : Nat) : WorkerSystem Item where
  count := count
  owner := none
  queue := []
  stop := .before
  workers worker := if worker < count then .away else .finished
  producers _ := .away
  pushed := []
  handled := []

variable (system : WorkerSystem Item)

def stopped : Bool := system.stop != .before

def moveWorker (worker : Nat) (place : WorkerPlace Item) : WorkerSystem Item :=
  { system with workers := Function.update system.workers worker place }

def moveProducer (producer : Nat) (place : ProducerPlace Item) : WorkerSystem Item :=
  { system with producers := Function.update system.producers producer place }

def setOwner (owner : Option Party) : WorkerSystem Item := { system with owner := owner }

def releaseIf (condition : Bool) : WorkerSystem Item :=
  if condition then system.setOwner none else system

/-- `notify_one`: any waiting worker may be the one that is woken. -/
def wakeOne : Option Nat → Option (WorkerSystem Item)
  | none =>
      if (List.range system.count).any fun worker => (system.workers worker).isWaiting then none
      else some system
  | some worker =>
      if (system.workers worker).isWaiting then some (system.moveWorker worker .woken) else none

/-- `notify_all`. -/
def wakeAll : WorkerSystem Item :=
  { system with
    workers := fun worker =>
      if (system.workers worker).isWaiting then .woken else system.workers worker }

end WorkerSystem

open WorkerSystem in
/-- The steps that `loop` can take. -/
def step (loop : WaitLoop) (system : WorkerSystem Item) : Label Item → Option (WorkerSystem Item)
  | .lock worker =>
      match system.workers worker, system.owner with
      | .away, none =>
          some ((system.setOwner (some (.worker worker))).moveWorker worker .testing)
      | _, _ => none
  | .test worker =>
      match system.workers worker with
      | .testing =>
          if system.queue.isEmpty then some (system.moveWorker worker .deciding)
          else some (system.moveWorker worker (if loop.retests then .retesting else .taking))
      | _ => none
  | .decide worker =>
      match system.workers worker with
      | .deciding =>
          if system.stopped then
            if loop.retests then some (system.moveWorker worker .retesting)
            else some ((system.setOwner none).moveWorker worker .finished)
          else some (system.moveWorker worker .entering)
      | _ => none
  | .wait worker =>
      match system.workers worker with
      | .entering => some ((system.setOwner none).moveWorker worker .waiting)
      | _ => none
  | .wake worker =>
      match system.workers worker with
      | .waiting => some (system.moveWorker worker .woken)
      | _ => none
  | .relock worker =>
      match system.workers worker, system.owner with
      | .woken, none =>
          some ((system.setOwner (some (.worker worker))).moveWorker worker .testing)
      | _, _ => none
  | .retest worker =>
      match system.workers worker with
      | .retesting =>
          if system.stopped then some ((system.setOwner none).moveWorker worker .finished)
          else some (system.moveWorker worker .taking)
      | _ => none
  | .take worker =>
      match system.workers worker, system.queue with
      | .taking, item :: queue =>
          some (({ system with queue := queue }.releaseIf (!loop.worksLocked)).moveWorker worker
            (.working item))
      | _, _ => none
  | .work worker =>
      match system.workers worker with
      | .working item =>
          some (({ system with handled := system.handled ++ [item] }.releaseIf
            loop.worksLocked).moveWorker worker .away)
      | _ => none
  | .fail worker =>
      match system.workers worker, loop.leavesOnFailure with
      | .away, true => some (system.moveWorker worker .finished)
      | .working item, true =>
          some (({ system with handled := system.handled ++ [item] }.releaseIf
            loop.worksLocked).moveWorker worker .finished)
      | _, _ => none
  | .begin producer item =>
      match system.producers producer, system.owner with
      | .away, none =>
          some ((system.setOwner (some (.producer producer))).moveProducer producer
            (.pushing item))
      | _, _ => none
  | .push producer =>
      match system.producers producer with
      | .pushing item =>
          some (({ system with
            queue := system.queue ++ [item]
            pushed := system.pushed ++ [item] }.releaseIf (!loop.notifiesLocked)).moveProducer
              producer .notifying)
      | _ => none
  | .notify producer woken =>
      match system.producers producer with
      | .notifying =>
          (system.wakeOne woken).map fun next =>
            next.moveProducer producer (if loop.notifiesLocked then .releasing else .away)
      | _ => none
  | .release producer =>
      match system.producers producer with
      | .releasing => some ((system.setOwner none).moveProducer producer .away)
      | _ => none
  | .stopFlag =>
      match system.stop with
      | .before => some { system with stop := .flagged }
      | _ => none
  | .stopNotify woken =>
      match system.stop with
      | .flagged =>
          if loop.stopWakesAll then some { system.wakeAll with stop := .notified }
          else (system.wakeOne woken).map fun next => { next with stop := .notified }
      | _ => none

/-- Every interleaving of the workers, the producers and the stop call. -/
def machine (loop : WaitLoop) (Item : Type) : Machine (WorkerSystem Item) (Label Item) :=
  .ofPartial loop.step

open WorkerSystem in
inductive Taken (loop : WaitLoop) (system : WorkerSystem Item) :
    Label Item → WorkerSystem Item → Prop
  | lock {worker : Nat} (place : system.workers worker = .away) (free : system.owner = none) :
      Taken loop system (.lock worker)
        ((system.setOwner (some (.worker worker))).moveWorker worker .testing)
  | testEmpty {worker : Nat} (place : system.workers worker = .testing)
      (empty : system.queue.isEmpty = true) :
      Taken loop system (.test worker) (system.moveWorker worker .deciding)
  | testFilled {worker : Nat} (place : system.workers worker = .testing)
      (filled : ¬ system.queue.isEmpty = true) :
      Taken loop system (.test worker)
        (system.moveWorker worker (if loop.retests then .retesting else .taking))
  | decideRetest {worker : Nat} (place : system.workers worker = .deciding)
      (stopped : system.stopped = true) (retests : loop.retests = true) :
      Taken loop system (.decide worker) (system.moveWorker worker .retesting)
  | decideFinish {worker : Nat} (place : system.workers worker = .deciding)
      (stopped : system.stopped = true) (leaves : ¬ loop.retests = true) :
      Taken loop system (.decide worker) ((system.setOwner none).moveWorker worker .finished)
  | decideEnter {worker : Nat} (place : system.workers worker = .deciding)
      (unset : ¬ system.stopped = true) :
      Taken loop system (.decide worker) (system.moveWorker worker .entering)
  | wait {worker : Nat} (place : system.workers worker = .entering) :
      Taken loop system (.wait worker) ((system.setOwner none).moveWorker worker .waiting)
  | wake {worker : Nat} (place : system.workers worker = .waiting) :
      Taken loop system (.wake worker) (system.moveWorker worker .woken)
  | relock {worker : Nat} (place : system.workers worker = .woken) (free : system.owner = none) :
      Taken loop system (.relock worker)
        ((system.setOwner (some (.worker worker))).moveWorker worker .testing)
  | retestFinish {worker : Nat} (place : system.workers worker = .retesting)
      (stopped : system.stopped = true) :
      Taken loop system (.retest worker) ((system.setOwner none).moveWorker worker .finished)
  | retestTake {worker : Nat} (place : system.workers worker = .retesting)
      (unset : ¬ system.stopped = true) :
      Taken loop system (.retest worker) (system.moveWorker worker .taking)
  | take {worker : Nat} {item : Item} {queue : List Item}
      (place : system.workers worker = .taking) (found : system.queue = item :: queue) :
      Taken loop system (.take worker)
        (({ system with queue := queue }.releaseIf (!loop.worksLocked)).moveWorker worker
          (.working item))
  | work {worker : Nat} {item : Item} (place : system.workers worker = .working item) :
      Taken loop system (.work worker)
        (({ system with handled := system.handled ++ [item] }.releaseIf
          loop.worksLocked).moveWorker worker .away)
  | failAway {worker : Nat} (place : system.workers worker = .away)
      (leaves : loop.leavesOnFailure = true) :
      Taken loop system (.fail worker) (system.moveWorker worker .finished)
  | failWorking {worker : Nat} {item : Item} (place : system.workers worker = .working item)
      (leaves : loop.leavesOnFailure = true) :
      Taken loop system (.fail worker)
        (({ system with handled := system.handled ++ [item] }.releaseIf
          loop.worksLocked).moveWorker worker .finished)
  | begin {producer : Nat} {item : Item} (place : system.producers producer = .away)
      (free : system.owner = none) :
      Taken loop system (.begin producer item)
        ((system.setOwner (some (.producer producer))).moveProducer producer (.pushing item))
  | push {producer : Nat} {item : Item} (place : system.producers producer = .pushing item) :
      Taken loop system (.push producer)
        (({ system with
          queue := system.queue ++ [item]
          pushed := system.pushed ++ [item] }.releaseIf (!loop.notifiesLocked)).moveProducer
            producer .notifying)
  | notify {producer : Nat} {woken : Option Nat} {middle : WorkerSystem Item}
      (place : system.producers producer = .notifying)
      (wakes : system.wakeOne woken = some middle) :
      Taken loop system (.notify producer woken)
        (middle.moveProducer producer (if loop.notifiesLocked then .releasing else .away))
  | release {producer : Nat} (place : system.producers producer = .releasing) :
      Taken loop system (.release producer) ((system.setOwner none).moveProducer producer .away)
  | stopFlag (before : system.stop = .before) :
      Taken loop system .stopFlag { system with stop := .flagged }
  | stopNotifyAll {woken : Option Nat} (flagged : system.stop = .flagged)
      (all : loop.stopWakesAll = true) :
      Taken loop system (.stopNotify woken) { system.wakeAll with stop := .notified }
  | stopNotifyOne {woken : Option Nat} {middle : WorkerSystem Item}
      (flagged : system.stop = .flagged) (one : ¬ loop.stopWakesAll = true)
      (wakes : system.wakeOne woken = some middle) :
      Taken loop system (.stopNotify woken) { middle with stop := .notified }

theorem taken_of_step {loop : WaitLoop} {system next : WorkerSystem Item} {label : Label Item}
    (step : (loop.machine Item).Step system label next) : Taken loop system label next := by
  change loop.step system label = some next at step
  cases label with
  | lock worker =>
      rw [WaitLoop.step] at step
      split at step
      · next place free =>
        cases step
        exact .lock place free
      · cases step
  | test worker =>
      rw [WaitLoop.step] at step
      split at step
      · next place =>
        split at step
        · next empty =>
          cases step
          exact .testEmpty place empty
        · next filled =>
          cases step
          exact .testFilled place filled
      · cases step
  | decide worker =>
      rw [WaitLoop.step] at step
      split at step
      · next place =>
        split at step
        · next stopped =>
          split at step
          · next retests =>
            cases step
            exact .decideRetest place stopped retests
          · next leaves =>
            cases step
            exact .decideFinish place stopped leaves
        · next unset =>
          cases step
          exact .decideEnter place unset
      · cases step
  | wait worker =>
      rw [WaitLoop.step] at step
      split at step
      · next place =>
        cases step
        exact .wait place
      · cases step
  | wake worker =>
      rw [WaitLoop.step] at step
      split at step
      · next place =>
        cases step
        exact .wake place
      · cases step
  | relock worker =>
      rw [WaitLoop.step] at step
      split at step
      · next place free =>
        cases step
        exact .relock place free
      · cases step
  | retest worker =>
      rw [WaitLoop.step] at step
      split at step
      · next place =>
        split at step
        · next stopped =>
          cases step
          exact .retestFinish place stopped
        · next unset =>
          cases step
          exact .retestTake place unset
      · cases step
  | take worker =>
      rw [WaitLoop.step] at step
      split at step
      · next place found =>
        cases step
        exact .take place found
      · cases step
  | work worker =>
      rw [WaitLoop.step] at step
      split at step
      · next place =>
        cases step
        exact .work place
      · cases step
  | fail worker =>
      rw [WaitLoop.step] at step
      split at step
      · next place leaves =>
        cases step
        exact .failAway place leaves
      · next place leaves =>
        cases step
        exact .failWorking place leaves
      · cases step
  | begin producer item =>
      rw [WaitLoop.step] at step
      split at step
      · next place free =>
        cases step
        exact .begin place free
      · cases step
  | push producer =>
      rw [WaitLoop.step] at step
      split at step
      · next place =>
        cases step
        exact .push place
      · cases step
  | notify producer woken =>
      rw [WaitLoop.step] at step
      split at step
      · next place =>
        rcases Option.map_eq_some_iff.mp step with ⟨middle, wakes, rfl⟩
        exact .notify place wakes
      · cases step
  | release producer =>
      rw [WaitLoop.step] at step
      split at step
      · next place =>
        cases step
        exact .release place
      · cases step
  | stopFlag =>
      rw [WaitLoop.step] at step
      split at step
      · next before =>
        cases step
        exact .stopFlag before
      · cases step
  | stopNotify woken =>
      rw [WaitLoop.step] at step
      split at step
      · next flagged =>
        split at step
        · next all =>
          cases step
          exact .stopNotifyAll flagged all
        · next one =>
          rcases Option.map_eq_some_iff.mp step with ⟨middle, wakes, rfl⟩
          exact .stopNotifyOne flagged one wakes
      · cases step

/-! ## The mutex -/

def WorkerPlace.inHand : WorkerPlace Item → List Item
  | .working item => [item]
  | _ => []

def WorkerPlace.holds (loop : WaitLoop) : WorkerPlace Item → Bool
  | .testing | .deciding | .entering | .retesting | .taking => true
  | .working _ => loop.worksLocked
  | _ => false

def ProducerPlace.holds (loop : WaitLoop) : ProducerPlace Item → Bool
  | .pushing _ | .releasing => true
  | .notifying => loop.notifiesLocked
  | .away => false

/-- The worker has found the queue empty and not given up the mutex since. -/
def WorkerPlace.foundEmpty : WorkerPlace Item → Bool
  | .deciding | .entering => true
  | _ => false

theorem WorkerPlace.holds_of_foundEmpty {loop : WaitLoop} {place : WorkerPlace Item}
    (found : place.foundEmpty = true) : place.holds loop = true := by
  cases place with
  | deciding => rfl
  | entering => rfl
  | _ => cases found

namespace WorkerSystem

variable {system next : WorkerSystem Item}

/-- Who holds the mutex is its owner, and while a worker that has found the queue empty
holds it nothing is pushed. -/
structure Exclusive (loop : WaitLoop) (system : WorkerSystem Item) : Prop where
  workers : ∀ worker, (system.workers worker).holds loop = true →
    system.owner = some (.worker worker)
  producers : ∀ producer, (system.producers producer).holds loop = true →
    system.owner = some (.producer producer)
  empty : ∀ worker, (system.workers worker).foundEmpty = true → system.queue = []

theorem create_exclusive (loop : WaitLoop) (count : Nat) :
    (create count : WorkerSystem Item).Exclusive loop where
  workers worker held := by
    simp only [create] at held
    split at held <;> cases held
  producers _ held := by cases held
  empty worker found := by
    simp only [create] at found
    split at found <;> cases found

variable {loop : WaitLoop}

theorem releaseIf_eq (system : WorkerSystem Item) (condition : Bool) :
    system.releaseIf condition =
      system.setOwner (if condition then none else system.owner) := by
  cases condition <;> rfl

/-- While `party` has the mutex, or nobody has, no other worker has it. -/
theorem Exclusive.noWorker (exclusive : system.Exclusive loop) {party : Party}
    (mine : system.owner = none ∨ system.owner = some party) {worker : Nat}
    (other : party ≠ .worker worker) : (system.workers worker).holds loop = false := by
  by_contra held
  have owned := exclusive.workers worker (by simpa using held)
  rcases mine with free | mine
  · rw [free] at owned
    cases owned
  · rw [mine] at owned
    exact other (Option.some.inj owned)

theorem Exclusive.noProducer (exclusive : system.Exclusive loop) {party : Party}
    (mine : system.owner = none ∨ system.owner = some party) {producer : Nat}
    (other : party ≠ .producer producer) :
    (system.producers producer).holds loop = false := by
  by_contra held
  have owned := exclusive.producers producer (by simpa using held)
  rcases mine with free | mine
  · rw [free] at owned
    cases owned
  · rw [mine] at owned
    exact other (Option.some.inj owned)

theorem Exclusive.moveWorker (exclusive : system.Exclusive loop) {worker : Nat}
    {place : WorkerPlace Item} {owner : Option Party} {queue handled : List Item}
    (mine : system.owner = none ∨ system.owner = some (.worker worker))
    (after : owner = none ∧ place.holds loop = false ∨ owner = some (.worker worker))
    (empty : place.foundEmpty = true → queue = []) :
    (({ system with queue := queue, handled := handled }.setOwner owner).moveWorker worker
      place).Exclusive loop := by
  constructor
  · intro other held
    simp only [WorkerSystem.moveWorker, setOwner, Function.update_apply] at held ⊢
    by_cases same : other = worker
    · rw [if_pos same] at held
      rcases after with ⟨_, away⟩ | owned
      · rw [away] at held
        cases held
      · rw [owned, same]
    · rw [if_neg same, exclusive.noWorker mine (fun equal => same (by cases equal; rfl))] at held
      cases held
  · intro producer held
    simp only [WorkerSystem.moveWorker, setOwner] at held
    rw [exclusive.noProducer mine (fun equal => by cases equal)] at held
    cases held
  · intro other found
    simp only [WorkerSystem.moveWorker, setOwner, Function.update_apply] at found ⊢
    by_cases same : other = worker
    · rw [if_pos same] at found
      exact empty found
    · rw [if_neg same] at found
      have held : (system.workers other).holds loop = true :=
        WorkerPlace.holds_of_foundEmpty found
      rw [exclusive.noWorker mine (fun equal => same (by cases equal; rfl))] at held
      cases held

theorem Exclusive.moveProducer (exclusive : system.Exclusive loop) {producer : Nat}
    {place : ProducerPlace Item} {owner : Option Party} {queue pushed : List Item}
    (mine : system.owner = none ∨ system.owner = some (.producer producer))
    (after : owner = none ∧ place.holds loop = false ∨ owner = some (.producer producer)) :
    (({ system with queue := queue, pushed := pushed }.setOwner owner).moveProducer producer
      place).Exclusive loop := by
  constructor
  · intro worker held
    simp only [WorkerSystem.moveProducer, setOwner] at held
    rw [exclusive.noWorker mine (fun equal => by cases equal)] at held
    cases held
  · intro other held
    simp only [WorkerSystem.moveProducer, setOwner, Function.update_apply] at held ⊢
    by_cases same : other = producer
    · rw [if_pos same] at held
      rcases after with ⟨_, away⟩ | owned
      · rw [away] at held
        cases held
      · rw [owned, same]
    · rw [if_neg same, exclusive.noProducer mine (fun equal => same (by cases equal; rfl))] at held
      cases held
  · intro worker found
    simp only [WorkerSystem.moveProducer, setOwner] at found
    have held : (system.workers worker).holds loop = true :=
      WorkerPlace.holds_of_foundEmpty found
    rw [exclusive.noWorker mine (fun equal => by cases equal)] at held
    cases held

theorem unchanged_of_holds {place : WorkerPlace Item} (away : place.holds loop = false)
    {worker other : Nat}
    (held : ((system.moveWorker worker place).workers other).holds loop = true) :
    (system.moveWorker worker place).workers other = system.workers other := by
  simp only [WorkerSystem.moveWorker, Function.update_apply] at held ⊢
  split
  · next same =>
    rw [if_pos same, away] at held
    cases held
  · rfl

theorem Exclusive.quiet (exclusive : system.Exclusive loop)
    (owner : next.owner = system.owner) (queue : next.queue = system.queue)
    (workers : ∀ worker, (next.workers worker).holds loop = true →
      next.workers worker = system.workers worker)
    (producers : ∀ producer, (next.producers producer).holds loop = true →
      (system.producers producer).holds loop = true) : next.Exclusive loop := by
  constructor
  · intro worker held
    rw [owner]
    rw [workers worker held] at held
    exact exclusive.workers worker held
  · intro producer held
    rw [owner]
    exact exclusive.producers producer (producers producer held)
  · intro worker found
    rw [queue]
    have same := workers worker (WorkerPlace.holds_of_foundEmpty found)
    rw [same] at found
    exact exclusive.empty worker found

theorem Exclusive.wakeOne (exclusive : system.Exclusive loop) {woken : Option Nat}
    (taken : system.wakeOne woken = some next) :
    next.Exclusive loop ∧ next.owner = system.owner ∧ next.producers = system.producers := by
  cases woken with
  | none =>
      simp only [WorkerSystem.wakeOne] at taken
      split at taken
      · cases taken
      · cases taken
        exact ⟨exclusive, rfl, rfl⟩
  | some worker =>
      simp only [WorkerSystem.wakeOne] at taken
      split at taken
      · cases taken
        exact ⟨exclusive.quiet rfl rfl (fun _ => unchanged_of_holds rfl) (fun _ held => held),
          rfl, rfl⟩
      · cases taken

theorem Exclusive.endWork (exclusive : system.Exclusive loop) {worker : Nat} {item : Item}
    {place : WorkerPlace Item} {handled : List Item}
    (here : system.workers worker = .working item) (away : place.holds loop = false)
    (filled : place.foundEmpty = false) :
    (({ system with handled := handled }.releaseIf loop.worksLocked).moveWorker worker
      place).Exclusive loop := by
  rw [releaseIf_eq]
  cases locked : loop.worksLocked with
  | true =>
      have mine := exclusive.workers worker (by rw [here]; exact locked)
      apply exclusive.moveWorker (.inr mine) (.inl ⟨rfl, away⟩)
      intro found
      rw [filled] at found
      cases found
  | false =>
      exact exclusive.quiet rfl rfl (fun _ => unchanged_of_holds away) (fun _ held => held)

theorem step_exclusive {label : Label Item} (exclusive : system.Exclusive loop)
    (taken : (loop.machine Item).Step system label next) : next.Exclusive loop := by
  cases taken_of_step taken with
  | lock place free =>
      exact exclusive.moveWorker (.inl free) (.inr rfl) (fun found => by cases found)
  | testEmpty place empty =>
      have mine := exclusive.workers _ (by rw [place]; rfl)
      exact exclusive.moveWorker (.inr mine) (.inr mine) (fun _ => List.isEmpty_iff.mp empty)
  | testFilled place filled =>
      have mine := exclusive.workers _ (by rw [place]; rfl)
      apply exclusive.moveWorker (.inr mine) (.inr mine)
      intro found
      split at found <;> cases found
  | decideRetest place stopped retests =>
      have mine := exclusive.workers _ (by rw [place]; rfl)
      exact exclusive.moveWorker (.inr mine) (.inr mine) (fun found => by cases found)
  | decideFinish place stopped leaves =>
      have mine := exclusive.workers _ (by rw [place]; rfl)
      exact exclusive.moveWorker (.inr mine) (.inl ⟨rfl, rfl⟩) (fun found => by cases found)
  | decideEnter place unset =>
      have mine := exclusive.workers _ (by rw [place]; rfl)
      have empty := exclusive.empty _ (by rw [place]; rfl)
      exact exclusive.moveWorker (.inr mine) (.inr mine) (fun _ => empty)
  | wait place =>
      have mine := exclusive.workers _ (by rw [place]; rfl)
      exact exclusive.moveWorker (.inr mine) (.inl ⟨rfl, rfl⟩) (fun found => by cases found)
  | wake place =>
      exact exclusive.quiet rfl rfl (fun _ => unchanged_of_holds rfl) (fun _ held => held)
  | relock place free =>
      exact exclusive.moveWorker (.inl free) (.inr rfl) (fun found => by cases found)
  | retestFinish place stopped =>
      have mine := exclusive.workers _ (by rw [place]; rfl)
      exact exclusive.moveWorker (.inr mine) (.inl ⟨rfl, rfl⟩) (fun found => by cases found)
  | retestTake place unset =>
      have mine := exclusive.workers _ (by rw [place]; rfl)
      exact exclusive.moveWorker (.inr mine) (.inr mine) (fun found => by cases found)
  | take place found =>
      have mine := exclusive.workers _ (by rw [place]; rfl)
      rw [releaseIf_eq]
      apply exclusive.moveWorker (.inr mine) _ (fun found => by cases found)
      cases locked : loop.worksLocked with
      | true => exact .inr mine
      | false => exact .inl ⟨rfl, locked⟩
  | work place => exact exclusive.endWork place rfl rfl
  | failAway place leaves =>
      exact exclusive.quiet rfl rfl (fun _ => unchanged_of_holds rfl) (fun _ held => held)
  | failWorking place leaves => exact exclusive.endWork place rfl rfl
  | begin place free => exact exclusive.moveProducer (.inl free) (.inr rfl)
  | push place =>
      have mine := exclusive.producers _ (by rw [place]; rfl)
      rw [releaseIf_eq]
      apply exclusive.moveProducer (.inr mine)
      cases locked : loop.notifiesLocked with
      | true => exact .inr mine
      | false => exact .inl ⟨rfl, locked⟩
  | notify place wakes =>
      rcases exclusive.wakeOne wakes with ⟨middleExclusive, owner, producers⟩
      cases locked : loop.notifiesLocked with
      | true =>
          have mine := exclusive.producers _ (by rw [place]; exact locked)
          rw [← owner] at mine
          exact middleExclusive.moveProducer (.inr mine) (.inr mine)
      | false =>
          refine middleExclusive.quiet rfl rfl (fun _ _ => rfl) ?_
          intro other held
          simp only [WorkerSystem.moveProducer, Function.update_apply] at held
          split at held
          · cases held
          · exact held
  | release place =>
      have mine := exclusive.producers _ (by rw [place]; rfl)
      exact exclusive.moveProducer (.inr mine) (.inl ⟨rfl, rfl⟩)
  | stopFlag before => exact ⟨exclusive.workers, exclusive.producers, exclusive.empty⟩
  | stopNotifyAll flagged all =>
      refine exclusive.quiet rfl rfl ?_ (fun _ held => held)
      intro worker held
      simp only [wakeAll] at held ⊢
      split
      · next waits =>
        rw [if_pos waits] at held
        cases held
      · rfl
  | stopNotifyOne flagged one wakes =>
      rcases exclusive.wakeOne wakes with ⟨middleExclusive, _, _⟩
      exact ⟨middleExclusive.workers, middleExclusive.producers, middleExclusive.empty⟩

theorem working_of_step {label : Label Item} {worker : Nat} {item : Item}
    (taken : (loop.machine Item).Step system label next)
    (works : next.workers worker = .working item) :
    system.workers worker = .working item ∨
      label = .take worker ∧ system.queue.head? = some item := by
  have moved : ∀ {middle : WorkerSystem Item} {other : Nat} {place : WorkerPlace Item},
      middle.workers = system.workers → (∀ item, place ≠ .working item) →
      (middle.moveWorker other place).workers worker = .working item →
      system.workers worker = .working item := by
    intro middle other place same idle works
    simp only [WorkerSystem.moveWorker, Function.update_apply] at works
    split at works
    · exact absurd works (idle item)
    · rw [← same, works]
  have woken : ∀ {middle : WorkerSystem Item} {other : Option Nat},
      system.wakeOne other = some middle → middle.workers worker = .working item →
      system.workers worker = .working item := by
    intro middle other wakes works
    cases other with
    | none =>
        simp only [WorkerSystem.wakeOne] at wakes
        split at wakes
        · cases wakes
        · cases wakes
          exact works
    | some other =>
        simp only [WorkerSystem.wakeOne] at wakes
        split at wakes
        · cases wakes
          exact moved rfl (fun _ => by simp) works
        · cases wakes
  cases taken_of_step taken with
  | lock place free => exact .inl (moved rfl (fun _ => by simp) works)
  | testEmpty place empty => exact .inl (moved rfl (fun _ => by simp) works)
  | testFilled place filled =>
      apply Or.inl (moved rfl _ works)
      intro item
      split <;> simp
  | decideRetest place stopped retests => exact .inl (moved rfl (fun _ => by simp) works)
  | decideFinish place stopped leaves => exact .inl (moved rfl (fun _ => by simp) works)
  | decideEnter place unset => exact .inl (moved rfl (fun _ => by simp) works)
  | wait place => exact .inl (moved rfl (fun _ => by simp) works)
  | wake place => exact .inl (moved rfl (fun _ => by simp) works)
  | relock place free => exact .inl (moved rfl (fun _ => by simp) works)
  | retestFinish place stopped => exact .inl (moved rfl (fun _ => by simp) works)
  | retestTake place unset => exact .inl (moved rfl (fun _ => by simp) works)
  | @take other found queue place filled =>
      simp only [releaseIf_eq, WorkerSystem.moveWorker, setOwner, Function.update_apply] at works
      split at works
      · next same =>
        cases works
        exact .inr ⟨by rw [same], by rw [filled, List.head?_cons]⟩
      · exact .inl works
  | work place =>
      exact .inl (moved (by rw [releaseIf_eq]; rfl) (fun _ => by simp) works)
  | failAway place leaves => exact .inl (moved rfl (fun _ => by simp) works)
  | failWorking place leaves =>
      exact .inl (moved (by rw [releaseIf_eq]; rfl) (fun _ => by simp) works)
  | begin place free => exact .inl works
  | push place =>
      rw [releaseIf_eq] at works
      exact .inl works
  | notify place wakes => exact .inl (woken wakes works)
  | release place => exact .inl works
  | stopFlag before => exact .inl works
  | stopNotifyAll flagged all =>
      simp only [WorkerSystem.wakeAll] at works
      split at works
      · cases works
      · exact .inl works
  | stopNotifyOne flagged one wakes => exact .inl (woken wakes works)

/-! ## Who sleeps -/

/-- Nobody comes back from the end of the loop, and a worker goes to sleep only while the
flag is unset. -/
structure Follows (system : WorkerSystem Item) (label : Label Item)
    (next : WorkerSystem Item) : Prop where
  count : next.count = system.count
  notified : next.stop = .notified → system.stop = .notified ∨ ∃ woken, label = .stopNotify woken
  finished : ∀ worker, system.workers worker = .finished → next.workers worker = .finished
  asleep : ∀ worker, (next.workers worker).asleep = true →
    (system.workers worker).asleep = true ∨ system.stopped = false

variable {label : Label Item}

theorem Follows.of_same (count : next.count = system.count)
    (notified : next.stop = .notified → system.stop = .notified)
    (workers : next.workers = system.workers) : Follows system label next where
  count := count
  notified done := .inl (notified done)
  finished worker done := by rw [workers, done]
  asleep worker sleeps := .inl (workers ▸ sleeps)

theorem Follows.moveWorker {middle : WorkerSystem Item} {worker : Nat}
    {place : WorkerPlace Item} (count : middle.count = system.count)
    (stop : middle.stop = system.stop) (workers : middle.workers = system.workers)
    (unfinished : system.workers worker ≠ .finished)
    (asleep : place.asleep = true →
      (system.workers worker).asleep = true ∨ system.stopped = false) :
    Follows system label (middle.moveWorker worker place) where
  count := count
  notified done := .inl (stop.symm.trans done)
  finished other done := by
    simp only [WorkerSystem.moveWorker, Function.update_apply]
    split
    · next same =>
      rw [same] at done
      exact absurd done unfinished
    · rw [workers, done]
  asleep other sleeps := by
    simp only [WorkerSystem.moveWorker, Function.update_apply] at sleeps
    split at sleeps
    · next same =>
      rw [same]
      exact asleep sleeps
    · rw [workers] at sleeps
      exact .inl sleeps

theorem Follows.wakeOne {woken : Option Nat} (taken : system.wakeOne woken = some next) :
    Follows system label next := by
  cases woken with
  | none =>
      simp only [WorkerSystem.wakeOne] at taken
      split at taken
      · cases taken
      · cases taken
        exact .of_same rfl (fun done => done) rfl
  | some worker =>
      simp only [WorkerSystem.wakeOne] at taken
      split at taken
      · next waits =>
        cases taken
        apply Follows.moveWorker rfl rfl rfl
        · intro done
          rw [done] at waits
          cases waits
        · intro sleeps
          cases sleeps
      · cases taken

theorem Follows.wakeAll (system : WorkerSystem Item) : Follows system label system.wakeAll where
  count := rfl
  notified done := .inl done
  finished worker done := by simp [WorkerSystem.wakeAll, done, WorkerPlace.isWaiting]
  asleep worker sleeps := by
    simp only [WorkerSystem.wakeAll] at sleeps
    split at sleeps
    · cases sleeps
    · exact .inl sleeps

theorem step_follows (taken : (loop.machine Item).Step system label next) :
    Follows system label next := by
  have leaves : ∀ {worker : Nat} {before : WorkerPlace Item},
      system.workers worker = before → before ≠ .finished →
      system.workers worker ≠ .finished := by
    intro worker before place different done
    rw [place] at done
    exact different done
  cases taken_of_step taken with
  | lock place free =>
      exact .moveWorker rfl rfl rfl (leaves place (by simp)) (fun sleeps => by cases sleeps)
  | testEmpty place empty =>
      exact .moveWorker rfl rfl rfl (leaves place (by simp)) (fun sleeps => by cases sleeps)
  | testFilled place filled =>
      apply Follows.moveWorker rfl rfl rfl (leaves place (by simp))
      intro sleeps
      split at sleeps <;> cases sleeps
  | decideRetest place stopped retests =>
      exact .moveWorker rfl rfl rfl (leaves place (by simp)) (fun sleeps => by cases sleeps)
  | decideFinish place stopped leaves' =>
      exact .moveWorker rfl rfl rfl (leaves place (by simp)) (fun sleeps => by cases sleeps)
  | decideEnter place unset =>
      exact .moveWorker rfl rfl rfl (leaves place (by simp))
        (fun _ => .inr (by simpa using unset))
  | wait place =>
      refine .moveWorker rfl rfl rfl (leaves place (by simp)) ?_
      intro _
      rw [place]
      exact .inl rfl
  | wake place =>
      exact .moveWorker rfl rfl rfl (leaves place (by simp)) (fun sleeps => by cases sleeps)
  | relock place free =>
      exact .moveWorker rfl rfl rfl (leaves place (by simp)) (fun sleeps => by cases sleeps)
  | retestFinish place stopped =>
      exact .moveWorker rfl rfl rfl (leaves place (by simp)) (fun sleeps => by cases sleeps)
  | retestTake place unset =>
      exact .moveWorker rfl rfl rfl (leaves place (by simp)) (fun sleeps => by cases sleeps)
  | take place found =>
      rw [releaseIf_eq]
      exact .moveWorker rfl rfl rfl (leaves place (by simp)) (fun sleeps => by cases sleeps)
  | work place =>
      rw [releaseIf_eq]
      exact .moveWorker rfl rfl rfl (leaves place (by simp)) (fun sleeps => by cases sleeps)
  | failAway place _ =>
      exact .moveWorker rfl rfl rfl (leaves place (by simp)) (fun sleeps => by cases sleeps)
  | failWorking place _ =>
      rw [releaseIf_eq]
      exact .moveWorker rfl rfl rfl (leaves place (by simp)) (fun sleeps => by cases sleeps)
  | begin place free => exact .of_same rfl (fun done => done) rfl
  | push place =>
      rw [releaseIf_eq]
      exact .of_same rfl (fun done => done) rfl
  | @notify producer woken middle place wakes =>
      have follows : Follows system (.notify producer woken) middle := .wakeOne wakes
      exact ⟨follows.count, follows.notified, follows.finished, follows.asleep⟩
  | release place => exact .of_same rfl (fun done => done) rfl
  | stopFlag before =>
      refine .of_same rfl ?_ rfl
      intro done
      cases done
  | @stopNotifyAll woken flagged all =>
      have follows : Follows system (.stopNotify woken) system.wakeAll := .wakeAll system
      exact ⟨follows.count, fun _ => .inr ⟨woken, rfl⟩, follows.finished, follows.asleep⟩
  | @stopNotifyOne woken middle flagged one wakes =>
      have follows : Follows system (.stopNotify woken) middle := .wakeOne wakes
      exact ⟨follows.count, fun _ => .inr ⟨woken, rfl⟩, follows.finished, follows.asleep⟩

/-- The stop call has set the flag and notified, and a worker waits on an empty queue with
no notification under way to it. -/
def Hangs (system : WorkerSystem Item) : Prop :=
  system.stop = .notified ∧ system.queue = [] ∧
    (∃ worker, system.workers worker = .waiting) ∧
    ∀ producer, system.producers producer ≠ .notifying

/-- The stop call notifies while no worker stands between its test of the flag and its
wait. -/
def NotifiesOutside (system : WorkerSystem Item) : Label Item → Prop
  | .stopNotify _ => ∀ worker < system.count, (system.workers worker).isEntering = false
  | _ => True

instance (system : WorkerSystem Item) (label : Label Item) :
    Decidable (system.NotifiesOutside label) := by
  cases label <;> unfold NotifiesOutside <;> infer_instance

/-- After the notification of the stop call nobody is asleep. -/
structure Awake (system : WorkerSystem Item) : Prop where
  beyond : ∀ worker, system.count ≤ worker → system.workers worker = .finished
  awake : system.stop = .notified → ∀ worker, (system.workers worker).asleep = false

theorem create_awake (count : Nat) : (create count : WorkerSystem Item).Awake where
  beyond worker outside := by
    simp only [create] at outside ⊢
    rw [if_neg (Nat.not_lt.mpr outside)]
  awake done := by cases done

theorem wakeOne_places {woken : Option Nat} (taken : system.wakeOne woken = some next)
    (worker : Nat) :
    next.workers worker = system.workers worker ∨ next.workers worker = .woken := by
  cases woken with
  | none =>
      simp only [wakeOne] at taken
      split at taken
      · cases taken
      · cases taken
        exact .inl rfl
  | some chosen =>
      simp only [wakeOne] at taken
      split at taken
      · cases taken
        simp only [moveWorker, Function.update_apply]
        split
        · exact .inr rfl
        · exact .inl rfl
      · cases taken

theorem wakeOne_single {woken : Option Nat} (single : system.count ≤ 1)
    (beyond : ∀ worker, system.count ≤ worker → system.workers worker = .finished)
    (taken : system.wakeOne woken = some next) (worker : Nat) :
    (next.workers worker).isWaiting = false := by
  cases woken with
  | none =>
      simp only [wakeOne] at taken
      split at taken
      · cases taken
      · next nobody =>
        cases taken
        by_cases inside : worker < system.count
        · simp only [List.any_eq_true, List.mem_range, not_exists, not_and,
            Bool.not_eq_true] at nobody
          exact nobody worker inside
        · rw [beyond worker (Nat.not_lt.mp inside)]
          rfl
  | some chosen =>
      simp only [wakeOne] at taken
      split at taken
      · next waits =>
        cases taken
        simp only [moveWorker, Function.update_apply]
        split
        · rfl
        · next other =>
          have chosenInside : chosen < system.count := by
            by_contra outside
            rw [beyond chosen (Nat.not_lt.mp outside)] at waits
            cases waits
          rw [beyond worker (by omega)]
          rfl
      · cases taken

/-- The notification of the stop call reaches all that wait, if it wakes all or there is
one worker only. -/
theorem stopNotify_awake (reaches : loop.stopWakesAll = true ∨ system.count ≤ 1)
    (awake : system.Awake) {woken : Option Nat}
    (outside : system.NotifiesOutside (.stopNotify woken))
    (taken : loop.step system (.stopNotify woken) = some next) (worker : Nat) :
    (next.workers worker).asleep = false := by
  have notEntering : (system.workers worker).isEntering = false := by
    by_cases inside : worker < system.count
    · exact outside worker inside
    · rw [awake.beyond worker (Nat.not_lt.mp inside)]
      rfl
  have split : ∀ place : WorkerPlace Item, place.isEntering = false →
      place.isWaiting = false → place.asleep = false := by
    intro place entering waiting
    cases place with
    | entering => cases entering
    | waiting => cases waiting
    | _ => rfl
  simp only [step] at taken
  split at taken
  · split at taken
    · cases taken
      simp only [wakeAll]
      split
      · rfl
      · next still => exact split _ notEntering (by simpa using still)
    · next one =>
      have single := reaches.resolve_left one
      rcases Option.map_eq_some_iff.mp taken with ⟨middle, wakes, rfl⟩
      have gone := wakeOne_single single awake.beyond wakes worker
      apply split _ _ gone
      rcases wakeOne_places wakes worker with same | woken
      · rw [same]
        exact notEntering
      · rw [woken]
        rfl
  · cases taken

theorem step_awake (awake : system.Awake)
    (reaches : loop.stopWakesAll = true ∨ system.count ≤ 1)
    (outside : system.NotifiesOutside label)
    (taken : (loop.machine Item).Step system label next) : next.Awake := by
  have follows := step_follows taken
  change loop.step system label = some next at taken
  constructor
  · intro worker beyond
    rw [follows.count] at beyond
    exact follows.finished worker (awake.beyond worker beyond)
  · intro done worker
    rcases follows.notified done with before | ⟨woken, rfl⟩
    · by_contra sleeps
      rcases follows.asleep worker (by simpa using sleeps) with asleep | unset
      · rw [awake.awake before worker] at asleep
        cases asleep
      · simp [stopped, before] at unset
    · exact stopNotify_awake reaches awake outside taken worker

/-- In a run whose stop call notifies outside, nothing hangs. -/
theorem not_hangs_of_transitions {count : Nat} (reaches : loop.stopWakesAll = true ∨ count ≤ 1)
    {labels : List (Label Item)}
    (transitions : ((loop.machine Item).restrict NotifiesOutside).Transitions (create count)
      labels system) : ¬ system.Hangs := by
  have awake : system.Awake ∧ system.count = count := by
    apply transitions.invariant
    · intro before label after known taken
      rcases known with ⟨awake, same⟩
      rw [← same] at reaches
      exact ⟨step_awake awake reaches taken.2 taken.1, (step_follows taken.1).count.trans same⟩
    · exact ⟨create_awake count, rfl⟩
  rintro ⟨notified, _, ⟨worker, waits⟩, _⟩
  have sleeps := awake.1.awake notified worker
  rw [waits] at sleeps
  cases sleeps

theorem inHand_moveWorker {worker : Nat} {before place : WorkerPlace Item}
    (here : system.workers worker = before) (same : place.inHand = before.inHand) :
    ((system.moveWorker worker place).workers 0).inHand = (system.workers 0).inHand := by
  simp only [moveWorker, Function.update_apply]
  split
  · next first =>
    rw [first, here, same]
  · rfl

theorem wakeOne_items {woken : Option Nat} (taken : system.wakeOne woken = some next) :
    next.pushed = system.pushed ∧ next.handled = system.handled ∧
      next.queue = system.queue ∧
      (next.workers 0).inHand = (system.workers 0).inHand := by
  cases woken with
  | none =>
      simp only [wakeOne] at taken
      split at taken
      · cases taken
      · cases taken
        exact ⟨rfl, rfl, rfl, rfl⟩
  | some worker =>
      simp only [wakeOne] at taken
      split at taken
      · next waits =>
        cases taken
        refine ⟨rfl, rfl, rfl, inHand_moveWorker rfl ?_⟩
        cases place : system.workers worker with
        | waiting => rfl
        | _ => simp [place, WorkerPlace.isWaiting] at waits
      · cases taken

/-- A notification that comes while a worker is about to wait is lost to it. -/
theorem early_notify_hangs (exclusive : system.Exclusive loop) {worker : Nat}
    (entering : system.workers worker = .entering)
    (quiet : ∀ producer, system.producers producer ≠ .notifying) {woken : Option Nat}
    (taken : loop.step system (.stopNotify woken) = some next) :
    ∃ last, loop.step next (.wait worker) = some last ∧ last.Hangs := by
  have empty := exclusive.empty worker (by rw [entering]; rfl)
  have effect : next.stop = .notified ∧ next.queue = system.queue ∧
      next.producers = system.producers ∧ next.workers worker = .entering := by
    simp only [step] at taken
    split at taken
    · split at taken
      · cases taken
        refine ⟨rfl, rfl, rfl, ?_⟩
        simp only [wakeAll, entering]
        rfl
      · rcases Option.map_eq_some_iff.mp taken with ⟨middle, wakes, rfl⟩
        refine ⟨rfl, (wakeOne_items wakes).2.2.1, (exclusive.wakeOne wakes).2.2, ?_⟩
        cases woken with
        | none =>
            simp only [wakeOne] at wakes
            split at wakes
            · cases wakes
            · cases wakes
              exact entering
        | some chosen =>
            simp only [wakeOne] at wakes
            split at wakes
            · next waits =>
              cases wakes
              simp only [moveWorker, Function.update_apply]
              split
              · next same =>
                rw [← same, entering] at waits
                cases waits
              · exact entering
            · cases wakes
    · cases taken
  rcases effect with ⟨notified, queue, producers, place⟩
  refine ⟨(next.setOwner none).moveWorker worker .waiting, ?_, notified, ?_, ⟨worker, ?_⟩, ?_⟩
  · simp only [step, place]
  · exact queue.trans empty
  · simp only [moveWorker, Function.update_self]
  · intro producer
    change next.producers producer ≠ .notifying
    rw [producers]
    exact quiet producer

/-- With a worker at all, there is a run that hangs. -/
theorem exists_hanging_run (loop : WaitLoop) {count : Nat} (some_worker : 0 < count) :
    ∃ labels, ∃ system : WorkerSystem Item,
      (loop.machine Item).Transitions (create count) labels system ∧ system.Hangs := by
  have first : (create count : WorkerSystem Item).workers 0 = .away := if_pos some_worker
  let testing := ((create count : WorkerSystem Item).setOwner (some (.worker 0))).moveWorker 0
    .testing
  let entering := (testing.moveWorker 0 .deciding).moveWorker 0 .entering
  let flagged : WorkerSystem Item := { entering with stop := .flagged }
  have place : flagged.workers 0 = .entering := by
    simp [flagged, entering, moveWorker]
  have locks : (loop.machine Item).Step (create count) (.lock 0) testing := by
    change loop.step _ _ = _
    simp only [step, first]
    rfl
  have run : (loop.machine Item).Transitions (create count)
      [.lock 0, .test 0, .decide 0, .stopFlag] flagged :=
    .cons locks (.cons rfl (.cons rfl (.cons rfl (.nil flagged))))
  have notifies : ∃ next, loop.step flagged (.stopNotify none) = some next := by
    have nobody : ((List.range count).any fun worker =>
        (flagged.workers worker).isWaiting) = false := by
      rw [List.any_eq_false]
      intro worker _
      by_cases same : worker = 0
      · rw [same, place]
        exact Bool.false_ne_true
      · have other :
            flagged.workers worker = (create count : WorkerSystem Item).workers worker := by
          simp [flagged, entering, testing, moveWorker, setOwner, same]
        rw [other]
        simp only [create]
        split <;> exact Bool.false_ne_true
    cases all : loop.stopWakesAll with
    | true =>
        refine ⟨{ flagged.wakeAll with stop := .notified }, ?_⟩
        simp only [step, all]
        rfl
    | false =>
        refine ⟨{ flagged with stop := .notified }, ?_⟩
        have one : flagged.wakeOne none = some flagged := by
          rw [wakeOne]
          change (if ((List.range count).any fun worker =>
            (flagged.workers worker).isWaiting) = true then none else some flagged) = _
          rw [nobody]
          rfl
        simp only [step, all, one]
        rfl
  rcases notifies with ⟨next, notified⟩
  have exclusive : flagged.Exclusive loop :=
    run.invariant (fun _ _ _ holds taken => step_exclusive holds taken)
      (create_exclusive loop count)
  rcases early_notify_hangs exclusive place (fun _ same => by cases same) notified with
    ⟨last, waits, hangs⟩
  exact ⟨_, last, .snoc (.snoc run notified) waits, hangs⟩

/-! ## A single worker keeps the order -/

/-- What was pushed has been handled, or is in the hand of the worker, or is queued. -/
structure Ordered (system : WorkerSystem Item) : Prop where
  alone : ∀ worker, 1 ≤ worker → system.workers worker = .finished
  items : system.pushed = system.handled ++ (system.workers 0).inHand ++ system.queue

theorem create_ordered : (create 1 : WorkerSystem Item).Ordered where
  alone worker outside := by
    simp only [create]
    rw [if_neg (Nat.not_lt.mpr outside)]
  items := rfl

theorem Ordered.still (ordered : system.Ordered) (follows : Follows system label next)
    (pushed : next.pushed = system.pushed) (handled : next.handled = system.handled)
    (queue : next.queue = system.queue)
    (inHand : (next.workers 0).inHand = (system.workers 0).inHand) : next.Ordered where
  alone worker outside := follows.finished worker (ordered.alone worker outside)
  items := by rw [pushed, handled, queue, inHand, ordered.items]

theorem Ordered.single (ordered : system.Ordered) {worker : Nat} {place : WorkerPlace Item}
    (here : system.workers worker = place) (unfinished : place ≠ .finished) : worker = 0 := by
  by_contra other
  rw [ordered.alone worker (Nat.one_le_iff_ne_zero.mpr other)] at here
  exact unfinished here.symm

theorem wakeAll_inHand (system : WorkerSystem Item) (worker : Nat) :
    (system.wakeAll.workers worker).inHand = (system.workers worker).inHand := by
  simp only [wakeAll]
  split
  · next waits =>
    cases place : system.workers worker with
    | waiting => rfl
    | _ => simp [place, WorkerPlace.isWaiting] at waits
  · rfl

theorem Ordered.finishes (ordered : system.Ordered) {worker : Nat} {item : Item}
    {place : WorkerPlace Item}
    (follows : Follows system label (({ system with handled := system.handled ++ [item] }.releaseIf
      loop.worksLocked).moveWorker worker place))
    (here : system.workers worker = .working item) (empty : place.inHand = []) :
    (({ system with handled := system.handled ++ [item] }.releaseIf
      loop.worksLocked).moveWorker worker place).Ordered := by
  have first := ordered.single here (by simp)
  subst first
  refine ⟨fun other outside => follows.finished other (ordered.alone other outside), ?_⟩
  rw [releaseIf_eq]
  simp only [moveWorker, setOwner, Function.update_self]
  rw [ordered.items, here, empty]
  simp [WorkerPlace.inHand]

theorem step_ordered (ordered : system.Ordered)
    (taken : (loop.machine Item).Step system label next) : next.Ordered := by
  have follows := step_follows taken
  cases taken_of_step taken with
  | lock place free => exact ordered.still follows rfl rfl rfl (inHand_moveWorker place rfl)
  | testEmpty place empty =>
      exact ordered.still follows rfl rfl rfl (inHand_moveWorker place rfl)
  | testFilled place filled =>
      refine ordered.still follows rfl rfl rfl (inHand_moveWorker place ?_)
      split <;> rfl
  | decideRetest place stopped retests =>
      exact ordered.still follows rfl rfl rfl (inHand_moveWorker place rfl)
  | decideFinish place stopped leaves =>
      have inHand := @inHand_moveWorker _ (system.setOwner none) _ _ .finished place rfl
      exact ordered.still follows rfl rfl rfl inHand
  | decideEnter place unset =>
      exact ordered.still follows rfl rfl rfl (inHand_moveWorker place rfl)
  | wait place => exact ordered.still follows rfl rfl rfl (inHand_moveWorker place rfl)
  | wake place => exact ordered.still follows rfl rfl rfl (inHand_moveWorker place rfl)
  | relock place free => exact ordered.still follows rfl rfl rfl (inHand_moveWorker place rfl)
  | retestFinish place stopped =>
      exact ordered.still follows rfl rfl rfl (inHand_moveWorker place rfl)
  | retestTake place unset =>
      exact ordered.still follows rfl rfl rfl (inHand_moveWorker place rfl)
  | take place found =>
      have first := ordered.single place (by simp)
      subst first
      refine ⟨fun other outside => follows.finished other (ordered.alone other outside), ?_⟩
      rw [releaseIf_eq]
      simp only [moveWorker, setOwner, Function.update_self]
      rw [ordered.items, place, found]
      simp [WorkerPlace.inHand]
  | work place => exact ordered.finishes follows place rfl
  | failAway place leaves =>
      exact ordered.still follows rfl rfl rfl (inHand_moveWorker place rfl)
  | failWorking place leaves => exact ordered.finishes follows place rfl
  | begin place free => exact ordered.still follows rfl rfl rfl rfl
  | push place =>
      refine ⟨fun other outside => follows.finished other (ordered.alone other outside), ?_⟩
      rw [releaseIf_eq]
      simp only [moveProducer, setOwner]
      rw [ordered.items, List.append_assoc]
  | notify place wakes =>
      rcases wakeOne_items wakes with ⟨pushed, handled, queue, inHand⟩
      exact ordered.still follows pushed handled queue inHand
  | release place => exact ordered.still follows rfl rfl rfl rfl
  | stopFlag before => exact ordered.still follows rfl rfl rfl rfl
  | stopNotifyAll flagged all =>
      exact ordered.still follows rfl rfl rfl (wakeAll_inHand system 0)
  | stopNotifyOne flagged one wakes =>
      rcases wakeOne_items wakes with ⟨pushed, handled, queue, inHand⟩
      exact ordered.still follows pushed handled queue inHand

/-- In every run of a single worker what has been handled is a prefix of what was pushed,
and if the worker leaves at its test of the flag it has handled all of it. -/
theorem handled_in_order {labels : List (Label Item)}
    (transitions : (loop.machine Item).Transitions (create 1) labels system) :
    system.handled <+: system.pushed ∧
      ∀ worker next, loop.step system (.decide worker) = some next →
        next.workers worker = .finished →
        system.queue = [] ∧ system.handled = system.pushed := by
  have known : system.Ordered ∧ system.Exclusive loop := by
    apply transitions.invariant
    · intro before label after holds taken
      exact ⟨step_ordered holds.1 taken, step_exclusive holds.2 taken⟩
    · exact ⟨create_ordered, create_exclusive loop 1⟩
  have items := known.1.items
  constructor
  · rw [items, List.append_assoc]
    exact List.prefix_append _ _
  · intro worker next taken _
    simp only [step] at taken
    split at taken
    · next place =>
      have first := known.1.single place (by simp)
      subst first
      have empty := known.2.empty 0 (by rw [place]; rfl)
      rw [place, empty] at items
      refine ⟨empty, ?_⟩
      simpa [WorkerPlace.inHand] using items.symm
    · cases taken

end WorkerSystem

end

end WaitLoop

end MyBookSources
