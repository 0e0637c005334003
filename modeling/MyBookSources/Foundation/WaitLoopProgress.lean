import MyBookSources.Foundation.Fairness
import MyBookSources.Foundation.WaitLoop

/-! # A queue with items is noticed

As long as nobody asks the workers to leave, some worker is on its way to a queue with items, or
a producer is about to notify one. Who has the mutex can take its next step, and so can who is in
a call.
-/

namespace MyBookSources.WaitLoop

variable {Item : Type}

/-- Who takes the step; nobody has to begin a call, to stop, or to wake without a reason. -/
def Label.actor : Label Item → Option Party
  | .lock worker | .test worker | .decide worker | .wait worker | .relock worker
  | .retest worker | .take worker | .work worker | .fail worker => some (.worker worker)
  | .push producer | .notify producer _ | .release producer => some (.producer producer)
  | .wake _ | .begin _ _ | .stopFlag | .stopNotify _ => none

/-- The workers are not asked to leave, and none leaves on a failure. -/
def Label.goesOn : Label Item → Bool
  | .stopFlag | .fail _ => false
  | _ => true

def WorkerPlace.onTheWay : WorkerPlace Item → Bool
  | .away | .testing | .woken | .retesting | .taking | .working _ => true
  | _ => false

namespace WorkerSystem

variable {loop : WaitLoop} {system next : WorkerSystem Item} {label : Label Item}

/-! ## Who moves whom -/

theorem workers_moveWorker_self (system : WorkerSystem Item) (worker : Nat)
    (place : WorkerPlace Item) : (system.moveWorker worker place).workers worker = place :=
  Function.update_self _ _ _

theorem workers_moveWorker_of_ne {system middle : WorkerSystem Item} {mover worker : Nat}
    (same : middle.workers = system.workers) (other : worker ≠ mover) (place : WorkerPlace Item) :
    (middle.moveWorker mover place).workers worker = system.workers worker := by
  rw [← same]
  exact Function.update_of_ne other _ _

theorem producers_moveProducer_self (system : WorkerSystem Item) (producer : Nat)
    (place : ProducerPlace Item) :
    (system.moveProducer producer place).producers producer = place :=
  Function.update_self _ _ _

theorem wakeOne_waits {woken : Option Nat} (taken : system.wakeOne woken = some next)
    (worker : Nat) :
    next.workers worker = system.workers worker ∨
      system.workers worker = .waiting ∧ next.workers worker = .woken := by
  cases woken with
  | none =>
      rw [wakeOne] at taken
      split at taken
      · cases taken
      · cases taken
        exact .inl rfl
  | some chosen =>
      rw [wakeOne] at taken
      split at taken
      · next waits =>
        cases taken
        by_cases same : worker = chosen
        · right
          rw [same, workers_moveWorker_self]
          cases place : system.workers chosen with
          | waiting => exact ⟨rfl, rfl⟩
          | _ => simp [place, WorkerPlace.isWaiting] at waits
        · exact .inl (workers_moveWorker_of_ne rfl same _)
      · cases taken

theorem wakeOne_keeps {woken : Option Nat} (taken : system.wakeOne woken = some next) :
    next.stop = system.stop ∧ next.count = system.count ∧ next.queue = system.queue := by
  cases woken with
  | none =>
      rw [wakeOne] at taken
      split at taken
      · cases taken
      · cases taken
        exact ⟨rfl, rfl, rfl⟩
  | some chosen =>
      rw [wakeOne] at taken
      split at taken
      · cases taken
        exact ⟨rfl, rfl, rfl⟩
      · cases taken

theorem workers_of_others (taken : Taken loop system label next) (unstopped : system.stop = .before)
    {worker : Nat} (other : label.actor ≠ some (.worker worker)) :
    next.workers worker = system.workers worker ∨
      system.workers worker = .waiting ∧ next.workers worker = .woken := by
  have away : ∀ {mover : Nat}, some (Party.worker mover) ≠ some (Party.worker worker) →
      worker ≠ mover := by
    rintro mover different rfl
    exact different rfl
  cases taken with
  | lock => exact .inl (workers_moveWorker_of_ne rfl (away other) _)
  | testEmpty => exact .inl (workers_moveWorker_of_ne rfl (away other) _)
  | testFilled => exact .inl (workers_moveWorker_of_ne rfl (away other) _)
  | decideRetest => exact .inl (workers_moveWorker_of_ne rfl (away other) _)
  | decideFinish => exact .inl (workers_moveWorker_of_ne rfl (away other) _)
  | decideEnter => exact .inl (workers_moveWorker_of_ne rfl (away other) _)
  | wait => exact .inl (workers_moveWorker_of_ne rfl (away other) _)
  | @wake mover place =>
      by_cases same : worker = mover
      · rw [same, workers_moveWorker_self]
        exact .inr ⟨place, rfl⟩
      · exact .inl (workers_moveWorker_of_ne rfl same _)
  | relock => exact .inl (workers_moveWorker_of_ne rfl (away other) _)
  | retestFinish => exact .inl (workers_moveWorker_of_ne rfl (away other) _)
  | retestTake => exact .inl (workers_moveWorker_of_ne rfl (away other) _)
  | take =>
      rw [releaseIf_eq]
      exact .inl (workers_moveWorker_of_ne rfl (away other) _)
  | work =>
      rw [releaseIf_eq]
      exact .inl (workers_moveWorker_of_ne rfl (away other) _)
  | failAway => exact .inl (workers_moveWorker_of_ne rfl (away other) _)
  | failWorking =>
      rw [releaseIf_eq]
      exact .inl (workers_moveWorker_of_ne rfl (away other) _)
  | begin => exact .inl rfl
  | push =>
      rw [releaseIf_eq]
      exact .inl rfl
  | notify _ wakes => exact wakeOne_waits wakes worker
  | release => exact .inl rfl
  | stopFlag => exact .inl rfl
  | stopNotifyAll flagged =>
      rw [unstopped] at flagged
      cases flagged
  | stopNotifyOne flagged =>
      rw [unstopped] at flagged
      cases flagged

def Goes (loop : WaitLoop) (system : WorkerSystem Item) (label : Label Item)
    (next : WorkerSystem Item) (worker : Nat) : WorkerPlace Item → Prop
  | .away | .woken => next.workers worker = .testing
  | .testing => system.queue ≠ [] →
      next.workers worker = .retesting ∨ next.workers worker = .taking
  | .retesting => next.workers worker = .taking
  | .taking => label = .take worker
  | .working item => next.workers worker = .away ∧ next.handled = system.handled ++ [item] ∧
      (loop.worksLocked = true → next.owner = none)
  | _ => True

theorem goes_of_own (taken : Taken loop system label next) (unstopped : system.stop = .before)
    (goesOn : label.goesOn = true) {worker : Nat} (own : label.actor = some (.worker worker)) :
    Goes loop system label next worker (system.workers worker) := by
  have running : ¬ system.stopped = true := by
    rw [stopped, unstopped]
    decide
  cases taken with
  | lock place =>
      cases own
      rw [place]
      exact workers_moveWorker_self _ _ _
  | testEmpty place empty =>
      cases own
      rw [place]
      exact fun filled => absurd (List.isEmpty_iff.mp empty) filled
  | testFilled place filled =>
      cases own
      rw [place]
      intro _
      rw [workers_moveWorker_self]
      split
      · exact .inl rfl
      · exact .inr rfl
  | decideRetest place stopped => exact absurd stopped running
  | decideFinish place stopped => exact absurd stopped running
  | decideEnter place =>
      cases own
      rw [place]
      trivial
  | wait place =>
      cases own
      rw [place]
      trivial
  | wake => cases own
  | relock place =>
      cases own
      rw [place]
      exact workers_moveWorker_self _ _ _
  | retestFinish place stopped => exact absurd stopped running
  | retestTake place =>
      cases own
      rw [place]
      exact workers_moveWorker_self _ _ _
  | take place =>
      cases own
      rw [place]
      exact rfl
  | work place =>
      cases own
      rw [place, releaseIf_eq]
      refine ⟨workers_moveWorker_self _ _ _, rfl, ?_⟩
      intro locked
      simp only [moveWorker, setOwner, locked, if_true]
  | failAway => cases goesOn
  | failWorking => cases goesOn
  | begin => cases own
  | push => cases own
  | notify => cases own
  | release => cases own
  | stopFlag => cases own
  | stopNotifyAll => cases own
  | stopNotifyOne => cases own

/-! ## The owner of the mutex -/

structure Owned (loop : WaitLoop) (system : WorkerSystem Item) : Prop where
  worker : ∀ worker, system.owner = some (.worker worker) →
    (system.workers worker).holds loop = true
  producer : ∀ producer, system.owner = some (.producer producer) →
    (system.producers producer).holds loop = true

theorem create_owned (loop : WaitLoop) (count : Nat) :
    (create count : WorkerSystem Item).Owned loop where
  worker _ owner := by cases owner
  producer _ owner := by cases owner

theorem Owned.of_none (free : next.owner = none) : next.Owned loop where
  worker _ owner := by
    rw [free] at owner
    cases owner
  producer _ owner := by
    rw [free] at owner
    cases owner

theorem Owned.of_worker {worker : Nat} (mine : next.owner = some (.worker worker))
    (held : (next.workers worker).holds loop = true) : next.Owned loop where
  worker other owner := by
    rw [mine] at owner
    cases owner
    exact held
  producer other owner := by
    rw [mine] at owner
    cases owner

theorem Owned.of_producer {producer : Nat} (mine : next.owner = some (.producer producer))
    (held : (next.producers producer).holds loop = true) : next.Owned loop where
  worker other owner := by
    rw [mine] at owner
    cases owner
  producer other owner := by
    rw [mine] at owner
    cases owner
    exact held

theorem Owned.keep (owned : system.Owned loop) (owner : next.owner = system.owner)
    (workers : ∀ worker, (system.workers worker).holds loop = true →
      (next.workers worker).holds loop = true)
    (producers : ∀ producer, (system.producers producer).holds loop = true →
      (next.producers producer).holds loop = true) : next.Owned loop where
  worker worker mine := workers worker (owned.worker worker (owner ▸ mine))
  producer producer mine := producers producer (owned.producer producer (owner ▸ mine))

theorem Owned.moveWorker {middle : WorkerSystem Item} {worker : Nat} (owned : system.Owned loop)
    (away : (system.workers worker).holds loop = false) (owner : middle.owner = system.owner)
    (workers : middle.workers = system.workers) (producers : middle.producers = system.producers)
    (place : WorkerPlace Item) : (middle.moveWorker worker place).Owned loop := by
  refine owned.keep owner ?_ ?_
  · intro other held
    have different : other ≠ worker := by
      rintro rfl
      rw [away] at held
      cases held
    rw [workers_moveWorker_of_ne workers different]
    exact held
  · intro other held
    rw [WorkerSystem.moveWorker, producers]
    exact held

theorem Owned.moveProducer {middle : WorkerSystem Item} {producer : Nat}
    (owned : system.Owned loop) (away : (system.producers producer).holds loop = false)
    (owner : middle.owner = system.owner)
    (workers : ∀ worker, (system.workers worker).holds loop = true →
      (middle.workers worker).holds loop = true)
    (producers : middle.producers = system.producers) (place : ProducerPlace Item) :
    (middle.moveProducer producer place).Owned loop := by
  refine owned.keep owner workers ?_
  intro other held
  have different : other ≠ producer := by
    rintro rfl
    rw [away] at held
    cases held
  have there : (middle.moveProducer producer place).producers other = system.producers other := by
    rw [← producers]
    exact Function.update_of_ne different _ _
  rw [there]
  exact held

theorem wakeOne_holds {woken : Option Nat} (taken : system.wakeOne woken = some next)
    (worker : Nat) (held : (system.workers worker).holds loop = true) :
    (next.workers worker).holds loop = true := by
  rcases wakeOne_waits taken worker with same | ⟨waits, _⟩
  · rw [same]
    exact held
  · rw [waits] at held
    cases held

theorem step_owned (owned : system.Owned loop) (exclusive : system.Exclusive loop)
    (taken : Taken loop system label next) : next.Owned loop := by
  cases taken with
  | lock => exact .of_worker rfl (by rw [workers_moveWorker_self]; rfl)
  | @testEmpty worker place =>
      exact .of_worker (exclusive.workers worker (by rw [place]; rfl))
        (by rw [workers_moveWorker_self]; rfl)
  | @testFilled worker place =>
      refine .of_worker (exclusive.workers worker (by rw [place]; rfl)) ?_
      rw [workers_moveWorker_self]
      split <;> rfl
  | @decideRetest worker place =>
      exact .of_worker (exclusive.workers worker (by rw [place]; rfl))
        (by rw [workers_moveWorker_self]; rfl)
  | decideFinish => exact .of_none rfl
  | @decideEnter worker place =>
      exact .of_worker (exclusive.workers worker (by rw [place]; rfl))
        (by rw [workers_moveWorker_self]; rfl)
  | wait => exact .of_none rfl
  | wake place => exact owned.moveWorker (by rw [place]; rfl) rfl rfl rfl _
  | relock => exact .of_worker rfl (by rw [workers_moveWorker_self]; rfl)
  | retestFinish => exact .of_none rfl
  | @retestTake worker place =>
      exact .of_worker (exclusive.workers worker (by rw [place]; rfl))
        (by rw [workers_moveWorker_self]; rfl)
  | @take worker item queue place =>
      have mine := exclusive.workers worker (by rw [place]; rfl)
      rw [releaseIf_eq]
      cases locked : loop.worksLocked with
      | false => exact .of_none rfl
      | true =>
          refine .of_worker mine ?_
          rw [workers_moveWorker_self]
          exact locked
  | work place =>
      rw [releaseIf_eq]
      cases locked : loop.worksLocked with
      | true => exact .of_none rfl
      | false =>
          apply owned.moveWorker
          · rw [place]
            exact locked
          · rfl
          · rfl
          · rfl
  | failAway place => exact owned.moveWorker (by rw [place]; rfl) rfl rfl rfl _
  | failWorking place =>
      rw [releaseIf_eq]
      cases locked : loop.worksLocked with
      | true => exact .of_none rfl
      | false =>
          apply owned.moveWorker
          · rw [place]
            exact locked
          · rfl
          · rfl
          · rfl
  | begin => exact .of_producer rfl (by rw [producers_moveProducer_self]; rfl)
  | @push producer item place =>
      have mine := exclusive.producers producer (by rw [place]; rfl)
      rw [releaseIf_eq]
      cases locked : loop.notifiesLocked with
      | false => exact .of_none rfl
      | true =>
          refine .of_producer mine ?_
          rw [producers_moveProducer_self]
          exact locked
  | @notify producer woken middle place wakes =>
      rcases exclusive.wakeOne wakes with ⟨_, owner, producers⟩
      cases locked : loop.notifiesLocked with
      | false =>
          exact owned.moveProducer (by rw [place]; exact locked) owner (wakeOne_holds wakes)
            producers _
      | true =>
          have mine := exclusive.producers producer (by rw [place]; exact locked)
          refine .of_producer (owner.trans mine) ?_
          rw [producers_moveProducer_self]
          rfl
  | release => exact .of_none rfl
  | stopFlag => exact owned.keep rfl (fun _ held => held) (fun _ held => held)
  | stopNotifyAll =>
      refine owned.keep rfl ?_ (fun _ held => held)
      intro worker held
      have busy : (system.workers worker).isWaiting = false := by
        cases place : system.workers worker with
        | waiting =>
            rw [place] at held
            cases held
        | _ => rfl
      rw [wakeAll]
      dsimp only
      rw [busy]
      exact held
  | stopNotifyOne _ _ wakes =>
      rcases exclusive.wakeOne wakes with ⟨_, owner, producers⟩
      refine owned.keep owner ?_ ?_
      · intro worker held
        have kept := wakeOne_holds wakes worker held
        exact kept
      · intro producer held
        dsimp only
        rw [producers]
        exact held

/-! ## A queue with items is noticed -/

/-- The workers are there, and while the queue has items one of them is on its way to it or
will be notified. -/
structure Noticed (system : WorkerSystem Item) : Prop where
  unstopped : system.stop = .before
  present : ∀ worker, worker < system.count → system.workers worker ≠ .finished
  noticed : system.queue ≠ [] → (∃ worker, (system.workers worker).onTheWay = true) ∨
    ∃ producer, system.producers producer = .notifying

theorem create_noticed (count : Nat) : (create count : WorkerSystem Item).Noticed where
  unstopped := rfl
  present worker inside done := by
    have there : (create count : WorkerSystem Item).workers worker = .away := if_pos inside
    rw [there] at done
    cases done
  noticed filled := absurd rfl filled

/-- A worker that is there and neither waits nor has found the queue empty is on its way. -/
theorem onTheWay_of_filled (exclusive : system.Exclusive loop) (filled : system.queue ≠ [])
    {worker : Nat} (present : system.workers worker ≠ .finished)
    (awake : system.workers worker ≠ .waiting) :
    (system.workers worker).onTheWay = true := by
  have busy : (system.workers worker).foundEmpty = false := by
    by_contra found
    exact filled (exclusive.empty worker (by simpa using found))
  cases place : system.workers worker with
  | waiting => exact absurd place awake
  | finished => exact absurd place present
  | deciding =>
      rw [place] at busy
      cases busy
  | entering =>
      rw [place] at busy
      cases busy
  | _ => rfl

theorem Noticed.moveWorker {middle : WorkerSystem Item} {worker : Nat} {place : WorkerPlace Item}
    (noticed : system.Noticed) (stop : middle.stop = system.stop)
    (count : middle.count = system.count) (workers : middle.workers = system.workers)
    (stays : place ≠ .finished) (queue : middle.queue ≠ [] → place.onTheWay = true) :
    (middle.moveWorker worker place).Noticed where
  unstopped := stop.trans noticed.unstopped
  present other inside := by
    by_cases same : other = worker
    · rw [same, workers_moveWorker_self]
      exact stays
    · rw [workers_moveWorker_of_ne workers same]
      exact noticed.present other (count ▸ inside)
  noticed filled := by
    left
    refine ⟨worker, ?_⟩
    rw [workers_moveWorker_self]
    exact queue filled

theorem Noticed.moveProducer {middle : WorkerSystem Item} {producer : Nat}
    (noticed : system.Noticed) (stop : middle.stop = system.stop)
    (count : middle.count = system.count) (workers : middle.workers = system.workers)
    (producers : middle.producers = system.producers) (queue : middle.queue = system.queue)
    {place : ProducerPlace Item} (other : system.producers producer ≠ .notifying) :
    (middle.moveProducer producer place).Noticed where
  unstopped := stop.trans noticed.unstopped
  present worker inside := by
    change middle.workers worker ≠ .finished
    rw [workers]
    exact noticed.present worker (count ▸ inside)
  noticed filled := by
    rcases noticed.noticed (queue ▸ filled) with ⟨worker, way⟩ | ⟨notifier, notifies⟩
    · left
      refine ⟨worker, ?_⟩
      change (middle.workers worker).onTheWay = true
      rw [workers]
      exact way
    · right
      refine ⟨notifier, ?_⟩
      have different : notifier ≠ producer := by
        rintro rfl
        exact other notifies
      rw [← notifies, ← producers]
      exact Function.update_of_ne different _ _

theorem wakeOne_onTheWay {woken : Option Nat} (taken : system.wakeOne woken = some next)
    (noticed : system.Noticed) (exclusive : system.Exclusive loop) (filled : system.queue ≠ [])
    (some_worker : 0 < system.count) : ∃ worker, (next.workers worker).onTheWay = true := by
  cases woken with
  | none =>
      rw [wakeOne] at taken
      split at taken
      · cases taken
      · next nobody =>
        cases taken
        refine ⟨0, onTheWay_of_filled exclusive filled (noticed.present 0 some_worker) ?_⟩
        intro waits
        apply nobody
        rw [List.any_eq_true]
        exact ⟨0, List.mem_range.mpr some_worker, by rw [waits]; rfl⟩
  | some chosen =>
      rw [wakeOne] at taken
      split at taken
      · cases taken
        exact ⟨chosen, by rw [workers_moveWorker_self]; rfl⟩
      · cases taken

theorem step_noticed (noticed : system.Noticed) (exclusive : system.Exclusive loop)
    (some_worker : 0 < system.count) (taken : Taken loop system label next)
    (goesOn : label.goesOn = true) : next.Noticed := by
  have running : ¬ system.stopped = true := by
    rw [stopped, noticed.unstopped]
    decide
  have found : ∀ {worker : Nat}, (system.workers worker).foundEmpty = true →
      ∀ place : WorkerPlace Item, system.queue ≠ [] → place.onTheWay = true :=
    fun empty place filled => absurd (exclusive.empty _ empty) filled
  cases taken with
  | lock => exact noticed.moveWorker rfl rfl rfl (by simp) (fun _ => rfl)
  | testEmpty place empty =>
      exact noticed.moveWorker rfl rfl rfl (by simp)
        (fun filled => absurd (List.isEmpty_iff.mp empty) filled)
  | testFilled =>
      refine noticed.moveWorker rfl rfl rfl ?_ ?_
      · split <;> simp
      · intro _
        split <;> rfl
  | decideRetest place stopped => exact absurd stopped running
  | decideFinish place stopped => exact absurd stopped running
  | decideEnter place =>
      exact noticed.moveWorker rfl rfl rfl (by simp) (found (by rw [place]; rfl) _)
  | wait place => exact noticed.moveWorker rfl rfl rfl (by simp) (found (by rw [place]; rfl) _)
  | wake => exact noticed.moveWorker rfl rfl rfl (by simp) (fun _ => rfl)
  | relock => exact noticed.moveWorker rfl rfl rfl (by simp) (fun _ => rfl)
  | retestFinish place stopped => exact absurd stopped running
  | retestTake => exact noticed.moveWorker rfl rfl rfl (by simp) (fun _ => rfl)
  | take =>
      rw [releaseIf_eq]
      exact noticed.moveWorker rfl rfl rfl (by simp) (fun _ => rfl)
  | work =>
      rw [releaseIf_eq]
      exact noticed.moveWorker rfl rfl rfl (by simp) (fun _ => rfl)
  | failAway => cases goesOn
  | failWorking => cases goesOn
  | begin place =>
      apply noticed.moveProducer
      · rfl
      · rfl
      · rfl
      · rfl
      · rfl
      · rw [place]
        simp
  | @push producer item place =>
      rw [releaseIf_eq]
      exact { unstopped := noticed.unstopped, present := noticed.present,
              noticed := fun _ => .inr ⟨producer, producers_moveProducer_self _ _ _⟩ }
  | @notify producer woken middle place wakes =>
      rcases wakeOne_keeps wakes with ⟨stop, count, queue⟩
      refine { unstopped := stop.trans noticed.unstopped, present := ?_, noticed := ?_ }
      · intro worker inside done
        change middle.workers worker = .finished at done
        rcases wakeOne_waits wakes worker with same | ⟨_, woken⟩
        · rw [same] at done
          exact noticed.present worker (count ▸ inside) done
        · rw [woken] at done
          cases done
      · intro filled
        have way := wakeOne_onTheWay wakes noticed exclusive (queue ▸ filled) some_worker
        exact .inl way
  | release place =>
      apply noticed.moveProducer
      · rfl
      · rfl
      · rfl
      · rfl
      · rfl
      · rw [place]
        simp
  | stopFlag => cases goesOn
  | stopNotifyAll flagged =>
      rw [noticed.unstopped] at flagged
      cases flagged
  | stopNotifyOne flagged =>
      rw [noticed.unstopped] at flagged
      cases flagged

/-! ## Who can act -/

def CanMove (system : WorkerSystem Item) : WorkerPlace Item → Prop
  | .away | .woken => system.owner = none
  | .taking => system.queue ≠ []
  | .testing | .retesting | .working _ => True
  | _ => False

theorem enabled_of_isSome {party : Party} (label : Label Item) (own : label.actor = some party)
    (defined : (loop.step system label).isSome = true) :
    (loop.machine Item).Enabled (fun label => label.actor = some party) system := by
  rcases Option.isSome_iff_exists.mp defined with ⟨next, taken⟩
  exact ⟨label, next, own, taken⟩

theorem enabled_of_canMove {worker : Nat} {place : WorkerPlace Item}
    (now : system.workers worker = place) (can : system.CanMove place) :
    (loop.machine Item).Enabled (fun label => label.actor = some (.worker worker)) system := by
  cases place with
  | away =>
      apply enabled_of_isSome (.lock worker) rfl
      rw [step, now, show system.owner = none from can]
      rfl
  | testing =>
      apply enabled_of_isSome (.test worker) rfl
      rw [step, now]
      dsimp only
      split <;> rfl
  | woken =>
      apply enabled_of_isSome (.relock worker) rfl
      rw [step, now, show system.owner = none from can]
      rfl
  | retesting =>
      apply enabled_of_isSome (.retest worker) rfl
      rw [step, now]
      dsimp only
      split <;> rfl
  | taking =>
      apply enabled_of_isSome (.take worker) rfl
      rcases List.exists_cons_of_ne_nil can with ⟨item, queue, filled⟩
      rw [step, now, filled]
      rfl
  | working item =>
      apply enabled_of_isSome (.work worker) rfl
      rw [step, now]
      rfl
  | deciding => cases can
  | entering => cases can
  | waiting => cases can
  | finished => cases can

theorem exists_wakeOne (system : WorkerSystem Item) : ∃ woken next,
    system.wakeOne woken = some next := by
  by_cases somebody :
    ((List.range system.count).any fun worker => (system.workers worker).isWaiting) = true
  · rcases List.any_eq_true.mp somebody with ⟨worker, _, waits⟩
    exact ⟨some worker, _, by rw [wakeOne, if_pos waits]⟩
  · exact ⟨none, system, by rw [wakeOne, if_neg somebody]⟩

theorem enabled_producer {producer : Nat} (called : system.producers producer ≠ .away) :
    (loop.machine Item).Enabled (fun label => label.actor = some (.producer producer)) system := by
  cases place : system.producers producer with
  | away => exact absurd place called
  | pushing item =>
      apply enabled_of_isSome (.push producer) rfl
      rw [step, place]
      rfl
  | notifying =>
      rcases exists_wakeOne system with ⟨woken, middle, wakes⟩
      apply enabled_of_isSome (.notify producer woken) rfl
      rw [step, place]
      dsimp only
      rw [wakes]
      rfl
  | releasing =>
      apply enabled_of_isSome (.release producer) rfl
      rw [step, place]
      rfl

theorem producers_of_others (exclusive : system.Exclusive loop)
    (taken : Taken loop system label next) {producer : Nat}
    (called : system.producers producer ≠ .away)
    (other : label.actor ≠ some (.producer producer)) :
    next.producers producer = system.producers producer := by
  have away : ∀ {mover : Nat}, some (Party.producer mover) ≠ some (Party.producer producer) →
      producer ≠ mover := by
    rintro mover different rfl
    exact different rfl
  cases taken with
  | begin place =>
      apply Function.update_of_ne
      rintro rfl
      exact called place
  | push =>
      rw [releaseIf_eq]
      exact Function.update_of_ne (away other) _ _
  | notify _ wakes =>
      rw [← (exclusive.wakeOne wakes).2.2]
      exact Function.update_of_ne (away other) _ _
  | release => exact Function.update_of_ne (away other) _ _
  | take =>
      rw [releaseIf_eq]
      rfl
  | work =>
      rw [releaseIf_eq]
      rfl
  | failWorking =>
      rw [releaseIf_eq]
      rfl
  | stopNotifyOne _ _ wakes => exact congrFun (exclusive.wakeOne wakes).2.2 producer
  | _ => rfl

def ProducerGoes (loop : WaitLoop) (next : WorkerSystem Item) (producer : Nat) :
    ProducerPlace Item → Prop
  | .pushing _ => next.owner = none ∨
      loop.notifiesLocked = true ∧ next.producers producer = .notifying
  | .notifying => (loop.notifiesLocked = true → next.producers producer = .releasing) ∧
      (next.queue ≠ [] → ∃ worker, (next.workers worker).onTheWay = true)
  | .releasing => next.owner = none
  | .away => True

theorem goes_of_producer (noticed : system.Noticed) (exclusive : system.Exclusive loop)
    (some_worker : 0 < system.count) (taken : Taken loop system label next) {producer : Nat}
    (own : label.actor = some (.producer producer)) :
    ProducerGoes loop next producer (system.producers producer) := by
  cases taken with
  | push place =>
      cases own
      rw [place, releaseIf_eq]
      cases locked : loop.notifiesLocked with
      | false => exact .inl rfl
      | true => exact .inr ⟨locked, producers_moveProducer_self _ _ _⟩
  | notify place wakes =>
      cases own
      rw [place]
      constructor
      · intro locked
        rw [producers_moveProducer_self, if_pos locked]
      · intro filled
        have found : system.queue ≠ [] := (wakeOne_keeps wakes).2.2 ▸ filled
        have way := wakeOne_onTheWay wakes noticed exclusive found some_worker
        exact way
  | release place =>
      cases own
      rw [place]
      exact rfl
  | _ => cases own

theorem queue_of_untaken (taken : Taken loop system label next)
    (untaken : ∀ worker, label ≠ .take worker) (filled : system.queue ≠ []) : next.queue ≠ [] := by
  cases taken with
  | take => exact absurd rfl (untaken _)
  | push =>
      rw [releaseIf_eq]
      exact List.append_ne_nil_of_left_ne_nil filled _
  | work =>
      rw [releaseIf_eq]
      exact filled
  | failWorking =>
      rw [releaseIf_eq]
      exact filled
  | notify _ wakes =>
      exact (wakeOne_keeps wakes).2.2 ▸ filled
  | stopNotifyOne _ _ wakes => exact (wakeOne_keeps wakes).2.2 ▸ filled
  | _ => exact filled

end WorkerSystem

end MyBookSources.WaitLoop
