import MyBookSources.Foundation.WaitLoopProgress

/-! # No item waits for ever

In a run that is fair to the workers and to the producers, and in which the workers are not asked
to leave, what is pushed is handled. Workers that keep the mutex while they work handle it in the
order in which it was pushed.
-/

namespace MyBookSources.WaitLoop.WorkerSystem

variable {Item : Type} {loop : WaitLoop} {system next : WorkerSystem Item} {label : Label Item}

/-! ## The order of the items -/

/-- Pushed items are handled, or one is worked on, or they are queued. -/
def Kept (system : WorkerSystem Item) : Prop :=
  ∃ hand, system.pushed = system.handled ++ hand ++ system.queue ∧
    (hand = [] ∨ ∃ worker item, system.workers worker = .working item)

theorem Ordered.kept (ordered : system.Ordered) : system.Kept := by
  refine ⟨(system.workers 0).inHand, ordered.items, ?_⟩
  cases place : system.workers 0 with
  | working item => exact .inr ⟨0, item, place⟩
  | _ => exact .inl rfl

def atWork (system : WorkerSystem Item) : List Item :=
  match system.owner with
  | some (.worker worker) => (system.workers worker).inHand
  | _ => []

/-- What was pushed has been handled, or is worked on under the mutex, or is queued. -/
def Serial (system : WorkerSystem Item) : Prop :=
  system.pushed = system.handled ++ system.atWork ++ system.queue

theorem atWork_nil_or (system : WorkerSystem Item) :
    system.atWork = [] ∨ ∃ worker item, system.workers worker = .working item := by
  rw [atWork]
  split
  · next worker _ =>
    cases place : system.workers worker with
    | working item => exact .inr ⟨worker, item, place⟩
    | _ => exact .inl rfl
  · exact .inl rfl

theorem Serial.kept (serial : system.Serial) : system.Kept :=
  ⟨system.atWork, serial, system.atWork_nil_or⟩

theorem atWork_of_worker {worker : Nat} (owner : system.owner = some (.worker worker)) :
    system.atWork = (system.workers worker).inHand := by
  rw [atWork, owner]

theorem atWork_of_none (free : system.owner = none) : system.atWork = [] := by
  rw [atWork, free]

theorem atWork_of_producer {producer : Nat} (owner : system.owner = some (.producer producer)) :
    system.atWork = [] := by
  rw [atWork, owner]

theorem atWork_of_same (owner : next.owner = system.owner)
    (workers : ∀ worker, (next.workers worker).inHand = (system.workers worker).inHand) :
    next.atWork = system.atWork := by
  rw [atWork, atWork, owner]
  split
  · exact workers _
  · rfl

theorem atWork_moveWorker {middle : WorkerSystem Item} {worker : Nat} {place : WorkerPlace Item}
    (owner : middle.owner = system.owner) (workers : middle.workers = system.workers)
    (same : place.inHand = (system.workers worker).inHand) :
    (middle.moveWorker worker place).atWork = system.atWork := by
  refine atWork_of_same (show (middle.moveWorker worker place).owner = system.owner from owner) ?_
  intro other
  by_cases mover : other = worker
  · rw [mover, workers_moveWorker_self, same]
  · rw [workers_moveWorker_of_ne workers mover]

theorem wakeOne_atWork {woken : Option Nat} (exclusive : system.Exclusive loop)
    (taken : system.wakeOne woken = some next) : next.atWork = system.atWork := by
  apply atWork_of_same (exclusive.wakeOne taken).2.1
  intro worker
  rcases wakeOne_waits taken worker with same | ⟨waits, woken⟩
  · rw [same]
  · rw [waits, woken]
    rfl

theorem create_serial (count : Nat) : (create count : WorkerSystem Item).Serial := rfl

theorem Serial.still (serial : system.Serial) (pushed : next.pushed = system.pushed)
    (handled : next.handled = system.handled) (queue : next.queue = system.queue)
    (hand : next.atWork = system.atWork) : next.Serial := by
  rw [Serial, pushed, handled, queue, hand]
  exact serial

theorem Serial.moveWorker {worker : Nat} {place : WorkerPlace Item} (serial : system.Serial)
    (before : system.atWork = []) (after : place.inHand = []) (owner : Option Party)
    (own : owner = none ∨ owner = some (.worker worker)) :
    ((system.setOwner owner).moveWorker worker place).Serial := by
  apply serial.still
  · rfl
  · rfl
  · rfl
  · rw [before]
    rcases own with rfl | rfl
    · exact atWork_of_none rfl
    · apply (atWork_of_worker ?_).trans
      · rw [workers_moveWorker_self, after]
      · rfl

theorem Serial.endWork {worker : Nat} {item : Item} {place : WorkerPlace Item}
    (serial : system.Serial) (hand : system.atWork = [item]) :
    (({ system with handled := system.handled ++ [item] }.releaseIf true).moveWorker worker
      place).Serial := by
  rw [releaseIf_eq, Serial, atWork_of_none rfl]
  change system.pushed = system.handled ++ [item] ++ [] ++ system.queue
  rw [serial, hand, List.append_nil]

theorem Serial.takeItem {worker : Nat} {item : Item} {queue : List Item}
    (serial : system.Serial) (before : system.atWork = [])
    (mine : system.owner = some (.worker worker)) (found : system.queue = item :: queue) :
    (({ system with queue := queue }.releaseIf (!true)).moveWorker worker
      (.working item)).Serial := by
  have hand : (({ system with queue := queue }.releaseIf (!true)).moveWorker worker
      (.working item)).atWork = [item] := by
    apply (atWork_of_worker ?_).trans
    · rw [workers_moveWorker_self]
      rfl
    · exact mine
  rw [Serial, hand]
  change system.pushed = system.handled ++ [item] ++ queue
  rw [serial, before, found]
  simp

theorem Serial.pushItem {producer : Nat} {item : Item} {condition : Bool}
    {place : ProducerPlace Item} (serial : system.Serial) (before : system.atWork = [])
    (mine : system.owner = some (.producer producer)) :
    (({ system with
      queue := system.queue ++ [item]
      pushed := system.pushed ++ [item] }.releaseIf condition).moveProducer producer
        place).Serial := by
  have hand : (({ system with
      queue := system.queue ++ [item]
      pushed := system.pushed ++ [item] }.releaseIf condition).moveProducer producer
        place).atWork = [] := by
    cases condition with
    | false =>
        apply atWork_of_producer
        exact mine
    | true => exact atWork_of_none rfl
  rw [Serial, hand, releaseIf_eq]
  change system.pushed ++ [item] = system.handled ++ [] ++ (system.queue ++ [item])
  rw [serial, before]
  simp

theorem step_serial (locked : loop.worksLocked = true) (serial : system.Serial)
    (exclusive : system.Exclusive loop) (taken : Taken loop system label next) : next.Serial := by
  have owner : ∀ {worker : Nat} {place : WorkerPlace Item}, system.workers worker = place →
      place.holds loop = true → system.owner = some (.worker worker) := by
    intro worker place there holds
    exact exclusive.workers worker (by rwa [there])
  have mine : ∀ {worker : Nat} {place : WorkerPlace Item}, system.workers worker = place →
      place.holds loop = true → system.atWork = place.inHand := by
    intro worker place there holds
    rw [atWork_of_worker (owner there holds), there]
  have goesOn : ∀ {worker : Nat} {before place : WorkerPlace Item},
      system.workers worker = before → before.holds loop = true → before.inHand = [] →
      place.inHand = [] → (system.moveWorker worker place).Serial := by
    intro worker before place there holds empty after
    have moved := serial.moveWorker ((mine there holds).trans empty) after system.owner
      (.inr (owner there holds))
    exact moved
  have leaves : ∀ {worker : Nat} {before place : WorkerPlace Item},
      system.workers worker = before → before.holds loop = true → before.inHand = [] →
      place.inHand = [] → ((system.setOwner none).moveWorker worker place).Serial :=
    fun there holds empty after =>
      serial.moveWorker ((mine there holds).trans empty) after none (.inl rfl)
  cases taken with
  | lock place free => exact serial.moveWorker (atWork_of_none free) rfl _ (.inr rfl)
  | testEmpty place => exact goesOn place rfl rfl rfl
  | testFilled place => exact goesOn place rfl rfl (by split <;> rfl)
  | decideRetest place => exact goesOn place rfl rfl rfl
  | decideFinish place => exact leaves place rfl rfl rfl
  | decideEnter place => exact goesOn place rfl rfl rfl
  | wait place => exact leaves place rfl rfl rfl
  | wake place => exact serial.still rfl rfl rfl (atWork_moveWorker rfl rfl (by rw [place]; rfl))
  | relock place free => exact serial.moveWorker (atWork_of_none free) rfl _ (.inr rfl)
  | retestFinish place => exact leaves place rfl rfl rfl
  | retestTake place => exact goesOn place rfl rfl rfl
  | @take worker item queue place found =>
      have empty := mine place rfl
      rw [locked]
      exact serial.takeItem empty (owner place rfl) found
  | work place =>
      rw [locked]
      exact serial.endWork (mine place locked)
  | failAway place =>
      exact serial.still rfl rfl rfl (atWork_moveWorker rfl rfl (by rw [place]; rfl))
  | failWorking place =>
      rw [locked]
      exact serial.endWork (mine place locked)
  | begin place free =>
      exact serial.still rfl rfl rfl ((atWork_of_producer rfl).trans (atWork_of_none free).symm)
  | @push producer item place =>
      have empty := atWork_of_producer (exclusive.producers producer (by rw [place]; rfl))
      exact serial.pushItem empty (exclusive.producers producer (by rw [place]; rfl))
  | notify place wakes =>
      rcases wakeOne_items wakes with ⟨pushed, handled, queue, _⟩
      have hand := wakeOne_atWork exclusive wakes
      exact serial.still pushed handled queue hand
  | @release producer place =>
      have hand := atWork_of_producer (exclusive.producers producer (by rw [place]; rfl))
      exact serial.still rfl rfl rfl ((atWork_of_none rfl).trans hand.symm)
  | stopFlag => exact serial.still rfl rfl rfl rfl
  | stopNotifyAll =>
      exact serial.still rfl rfl rfl (atWork_of_same rfl (wakeAll_inHand system))
  | stopNotifyOne _ _ wakes =>
      rcases wakeOne_items wakes with ⟨pushed, handled, queue, _⟩
      have hand := wakeOne_atWork exclusive wakes
      exact serial.still pushed handled queue hand

theorem items_grow (taken : Taken loop system label next) :
    system.pushed <+: next.pushed ∧ system.handled <+: next.handled := by
  have same : ∀ {system next : WorkerSystem Item}, next.pushed = system.pushed →
      next.handled = system.handled →
      system.pushed <+: next.pushed ∧ system.handled <+: next.handled := by
    intro system next pushed handled
    rw [pushed, handled]
    exact ⟨List.prefix_rfl, List.prefix_rfl⟩
  cases taken with
  | take =>
      rw [releaseIf_eq]
      exact same rfl rfl
  | work =>
      rw [releaseIf_eq]
      exact ⟨List.prefix_rfl, List.prefix_append _ _⟩
  | failWorking =>
      rw [releaseIf_eq]
      exact ⟨List.prefix_rfl, List.prefix_append _ _⟩
  | push =>
      rw [releaseIf_eq]
      exact ⟨List.prefix_append _ _, List.prefix_rfl⟩
  | notify _ wakes =>
      rcases wakeOne_items wakes with ⟨pushed, handled, _, _⟩
      exact same pushed handled
  | stopNotifyOne _ _ wakes =>
      rcases wakeOne_items wakes with ⟨pushed, handled, _, _⟩
      exact same pushed handled
  | _ => exact same rfl rfl

theorem working_of_take {worker : Nat} (taken : Taken loop system (.take worker) next) :
    ∃ item, next.workers worker = .working item := by
  cases taken with
  | @take _ item => exact ⟨item, workers_moveWorker_self _ _ _⟩

/-! ## Endless runs -/

/-- What holds at every time of a run in which the workers are not asked to leave. -/
structure Sound (loop : WaitLoop) (count : Nat) (system : WorkerSystem Item) : Prop where
  exclusive : system.Exclusive loop
  owned : system.Owned loop
  noticed : system.Noticed
  count : system.count = count

/-- The workers are not asked to leave, and whoever can act again and again acts. -/
structure Lively {first : WorkerSystem Item} (run : (loop.machine Item).EndlessRun first) :
    Prop where
  goesOn : ∀ time, (run.labels time).goesOn = true
  fair : ∀ party, run.Fair fun label => label.actor = some party

section

open Machine

variable {count : Nat} {run : (loop.machine Item).EndlessRun (create count)}

theorem taken_at (run : (loop.machine Item).EndlessRun (create count)) (time : Nat) :
    Taken loop (run.states time) (run.labels time) (run.states (time + 1)) :=
  taken_of_step (run.steps time)

theorem pushed_grows (run : (loop.machine Item).EndlessRun (create count)) {time later : Nat}
    (after : time ≤ later) : (run.states time).pushed <+: (run.states later).pushed := by
  have step : ∀ between, time ≤ between →
      (run.states time).pushed <+: (run.states between).pushed →
      (run.states time).pushed <+: (run.states (between + 1)).pushed := by
    intro between _ grown
    exact grown.trans (items_grow (taken_at run between)).1
  exact EndlessRun.preserved
    (fun system : WorkerSystem Item => (run.states time).pushed <+: system.pushed) step
    List.prefix_rfl after

theorem handled_grows (run : (loop.machine Item).EndlessRun (create count)) {time later : Nat}
    (after : time ≤ later) : (run.states time).handled <+: (run.states later).handled := by
  have step : ∀ between, time ≤ between →
      (run.states time).handled <+: (run.states between).handled →
      (run.states time).handled <+: (run.states (between + 1)).handled := by
    intro between _ grown
    exact grown.trans (items_grow (taken_at run between)).2
  exact EndlessRun.preserved
    (fun system : WorkerSystem Item => (run.states time).handled <+: system.handled) step
    List.prefix_rfl after

variable (some_worker : 0 < count) (goesOn : ∀ time, (run.labels time).goesOn = true)

include some_worker goesOn

theorem sound_at (time : Nat) : (run.states time).Sound loop count := by
  have step : ∀ later, 0 ≤ later → (run.states later).Sound loop count →
      (run.states (later + 1)).Sound loop count := by
    intro later _ sound
    have taken := taken_at run later
    have there : 0 < (run.states later).count := by
      rw [sound.count]
      exact some_worker
    exact {
      exclusive := step_exclusive sound.exclusive (run.steps later)
      owned := step_owned sound.owned sound.exclusive taken
      noticed := step_noticed sound.noticed sound.exclusive there taken (goesOn later)
      count := (step_follows (run.steps later)).count.trans sound.count }
  have initial : (run.states 0).Sound loop count := by
    rw [run.start]
    exact { exclusive := create_exclusive loop count, owned := create_owned loop count,
            noticed := create_noticed count, count := rfl }
  exact EndlessRun.preserved (Sound loop count) step initial (Nat.zero_le time)

variable (fair : ∀ party, run.Fair fun label => label.actor = some party)

include fair

/-- A worker that can move again and again while it is at a place, where it does not wait, moves
on from there. -/
theorem moves_on {worker : Nat} {place : WorkerPlace Item} {time : Nat}
    (now : (run.states time).workers worker = place) (awake : place ≠ .waiting)
    (often : ∀ later, time ≤ later → ∃ able, later ≤ able ∧ (run.states able).CanMove place) :
    ∃ later, time ≤ later ∧ (run.states later).workers worker = place ∧
      Goes loop (run.states later) (run.labels later) (run.states (later + 1)) worker place := by
  have stays : ∀ later, time ≤ later → (run.states later).workers worker = place →
      ¬ (run.labels later).actor = some (.worker worker) →
      (run.states (later + 1)).workers worker = place := by
    intro later _ there other
    have sound := sound_at some_worker goesOn later
    rcases workers_of_others (taken_at run later) sound.noticed.unstopped other with
      same | ⟨waits, _⟩
    · rw [same, there]
    · rw [there] at waits
      exact absurd waits awake
  have enabled : ∀ later, time ≤ later →
      (∀ between, time ≤ between → (run.states between).workers worker = place) →
      ∃ able, later ≤ able ∧ (loop.machine Item).Enabled
        (fun label => label.actor = some (.worker worker)) (run.states able) := by
    intro later after there
    rcases often later after with ⟨able, behind, can⟩
    exact ⟨able, behind, enabled_of_canMove (there able (after.trans behind)) can⟩
  rcases (fair (.worker worker)).acts (fun system => system.workers worker = place) stays enabled
    now with ⟨later, after, acts, there⟩
  have sound := sound_at some_worker goesOn later
  have goes := goes_of_own (taken_at run later) sound.noticed.unstopped (goesOn later) acts
  rw [there] at goes
  exact ⟨later, after, there, goes⟩

theorem producer_moves_on {producer : Nat} {place : ProducerPlace Item} {time : Nat}
    (now : (run.states time).producers producer = place) (called : place ≠ .away) :
    ∃ later, time ≤ later ∧ ProducerGoes loop (run.states (later + 1)) producer place := by
  have stays : ∀ later, time ≤ later → (run.states later).producers producer = place →
      ¬ (run.labels later).actor = some (.producer producer) →
      (run.states (later + 1)).producers producer = place := by
    intro later _ there other
    have sound := sound_at some_worker goesOn later
    rw [producers_of_others sound.exclusive (taken_at run later) (by rwa [there]) other, there]
  have enabled : ∀ later, time ≤ later →
      (∀ between, time ≤ between → (run.states between).producers producer = place) →
      ∃ able, later ≤ able ∧ (loop.machine Item).Enabled
        (fun label => label.actor = some (.producer producer)) (run.states able) := by
    intro later after there
    exact ⟨later, Nat.le_refl later, enabled_producer (by rwa [there later after])⟩
  rcases (fair (.producer producer)).acts (fun system => system.producers producer = place) stays
    enabled now with ⟨later, after, acts, there⟩
  have sound := sound_at some_worker goesOn later
  have goes := goes_of_producer sound.noticed sound.exclusive (by rwa [sound.count])
    (taken_at run later) acts
  rw [there] at goes
  exact ⟨later, after, goes⟩

theorem producer_frees {producer time : Nat}
    (held : ((run.states time).producers producer).holds loop = true) :
    ∃ later, time ≤ later ∧ (run.states later).owner = none := by
  have releasing : ∀ {time : Nat}, (run.states time).producers producer = .releasing →
      ∃ later, time ≤ later ∧ (run.states later).owner = none := by
    intro time place
    rcases producer_moves_on some_worker goesOn fair place (by simp) with ⟨later, after, goes⟩
    exact ⟨later + 1, by omega, goes⟩
  have notifying : ∀ {time : Nat}, loop.notifiesLocked = true →
      (run.states time).producers producer = .notifying →
      ∃ later, time ≤ later ∧ (run.states later).owner = none := by
    intro time locked place
    rcases producer_moves_on some_worker goesOn fair place (by simp) with ⟨later, after, goes⟩
    rcases releasing (goes.1 locked) with ⟨behind, further, free⟩
    exact ⟨behind, by omega, free⟩
  cases place : (run.states time).producers producer with
  | away =>
      rw [place] at held
      cases held
  | pushing item =>
      rcases producer_moves_on some_worker goesOn fair place (by simp) with ⟨later, after, goes⟩
      rcases goes with free | ⟨locked, notifies⟩
      · exact ⟨later + 1, by omega, free⟩
      · rcases notifying locked notifies with ⟨behind, further, free⟩
        exact ⟨behind, by omega, free⟩
  | notifying =>
      rw [place] at held
      exact notifying held place
  | releasing => exact releasing place

theorem work_ends {worker : Nat} {item : Item} {time : Nat}
    (now : (run.states time).workers worker = .working item) :
    ∃ later, time ≤ later ∧ (run.states (later + 1)).workers worker = .away ∧
      (run.states (later + 1)).handled = (run.states later).handled ++ [item] ∧
      (loop.worksLocked = true → (run.states (later + 1)).owner = none) := by
  rcases moves_on some_worker goesOn fair now (by simp)
    (fun later _ => ⟨later, Nat.le_refl later, trivial⟩) with ⟨later, after, _, goes⟩
  exact ⟨later, after, goes⟩

section

variable {time : Nat} (untaken : ∀ later, time ≤ later → ∀ worker,
  run.labels later ≠ .take worker) (filled : ∀ later, time ≤ later → (run.states later).queue ≠ [])

include untaken filled

theorem not_taking {later : Nat} (after : time ≤ later) (worker : Nat) :
    (run.states later).workers worker ≠ .taking := by
  intro takes
  rcases moves_on some_worker goesOn fair takes (by simp)
    (fun behind further => ⟨behind, Nat.le_refl behind, filled behind (after.trans further)⟩) with
    ⟨behind, further, _, goes⟩
  exact untaken behind (after.trans further) worker goes

theorem not_retesting {later : Nat} (after : time ≤ later) (worker : Nat) :
    (run.states later).workers worker ≠ .retesting := by
  intro retests
  rcases moves_on some_worker goesOn fair retests (by simp)
    (fun behind _ => ⟨behind, Nat.le_refl behind, trivial⟩) with ⟨behind, further, _, goes⟩
  exact not_taking some_worker goesOn fair untaken filled (by omega) worker goes

theorem not_testing {later : Nat} (after : time ≤ later) (worker : Nat) :
    (run.states later).workers worker ≠ .testing := by
  intro tests
  rcases moves_on some_worker goesOn fair tests (by simp)
    (fun behind _ => ⟨behind, Nat.le_refl behind, trivial⟩) with ⟨behind, further, _, goes⟩
  rcases goes (filled behind (after.trans further)) with retests | takes
  · exact not_retesting some_worker goesOn fair untaken filled (by omega) worker retests
  · exact not_taking some_worker goesOn fair untaken filled (by omega) worker takes

theorem often_free {later : Nat} (after : time ≤ later) :
    ∃ able, later ≤ able ∧ (run.states able).owner = none := by
  have sound := sound_at some_worker goesOn later
  cases owner : (run.states later).owner with
  | none => exact ⟨later, Nat.le_refl later, owner⟩
  | some party =>
      cases party with
      | worker worker =>
          have held := sound.owned.worker worker owner
          have busy : (run.states later).workers worker ≠ .deciding ∧
              (run.states later).workers worker ≠ .entering := by
            constructor
            · intro place
              exact filled later after (sound.exclusive.empty worker (by rw [place]; rfl))
            · intro place
              exact filled later after (sound.exclusive.empty worker (by rw [place]; rfl))
          cases place : (run.states later).workers worker with
          | testing =>
              exact absurd place (not_testing some_worker goesOn fair untaken filled after worker)
          | retesting =>
              exact absurd place (not_retesting some_worker goesOn fair untaken filled after worker)
          | taking =>
              exact absurd place (not_taking some_worker goesOn fair untaken filled after worker)
          | deciding => exact absurd place busy.1
          | entering => exact absurd place busy.2
          | working item =>
              rw [place] at held
              rcases work_ends some_worker goesOn fair place with ⟨behind, further, _, _, free⟩
              exact ⟨behind + 1, by omega, free held⟩
          | away =>
              rw [place] at held
              cases held
          | waiting =>
              rw [place] at held
              cases held
          | woken =>
              rw [place] at held
              cases held
          | finished =>
              rw [place] at held
              cases held
      | producer producer =>
          have held := sound.owned.producer producer owner
          rcases producer_frees some_worker goesOn fair held with ⟨behind, further, free⟩
          exact ⟨behind, further, free⟩

theorem not_ready {later : Nat} (after : time ≤ later) (worker : Nat) :
    (run.states later).workers worker ≠ .away ∧ (run.states later).workers worker ≠ .woken := by
  have free : ∀ behind, later ≤ behind →
      ∃ able, behind ≤ able ∧ (run.states able).owner = none := by
    intro behind further
    exact often_free some_worker goesOn fair untaken filled (after.trans further)
  constructor
  · intro place
    rcases moves_on some_worker goesOn fair place (by simp) free with ⟨behind, further, _, goes⟩
    exact not_testing some_worker goesOn fair untaken filled (by omega) worker goes
  · intro place
    rcases moves_on some_worker goesOn fair place (by simp) free with ⟨behind, further, _, goes⟩
    exact not_testing some_worker goesOn fair untaken filled (by omega) worker goes

theorem not_onTheWay {later : Nat} (after : time ≤ later) (worker : Nat) :
    ((run.states later).workers worker).onTheWay = false := by
  have ready := not_ready some_worker goesOn fair untaken filled after worker
  cases place : (run.states later).workers worker with
  | away => exact absurd place ready.1
  | woken => exact absurd place ready.2
  | testing => exact absurd place (not_testing some_worker goesOn fair untaken filled after worker)
  | retesting =>
      exact absurd place (not_retesting some_worker goesOn fair untaken filled after worker)
  | taking => exact absurd place (not_taking some_worker goesOn fair untaken filled after worker)
  | working item =>
      rcases work_ends some_worker goesOn fair place with ⟨behind, further, away, _⟩
      exact absurd away (not_ready some_worker goesOn fair untaken filled (by omega) worker).1
  | _ => rfl

theorem untaken_false : False := by
  have sound := sound_at some_worker goesOn time
  rcases sound.noticed.noticed (filled time (Nat.le_refl time)) with ⟨worker, way⟩ |
    ⟨producer, notifies⟩
  · have never := not_onTheWay some_worker goesOn fair untaken filled (Nat.le_refl time) worker
    rw [never] at way
    cases way
  · rcases producer_moves_on some_worker goesOn fair notifies (by simp) with ⟨later, after, goes⟩
    rcases goes.2 (filled (later + 1) (by omega)) with ⟨worker, way⟩
    have never := not_onTheWay some_worker goesOn fair untaken filled
      (show time ≤ later + 1 by omega) worker
    rw [never] at way
    cases way

end

theorem takes {time : Nat} (filled : (run.states time).queue ≠ []) :
    ∃ later, time ≤ later ∧ ∃ worker, run.labels later = .take worker := by
  by_contra never
  have untaken : ∀ later, time ≤ later → ∀ worker, run.labels later ≠ .take worker := by
    intro later after worker take
    exact never ⟨later, after, worker, take⟩
  refine untaken_false some_worker goesOn fair untaken ?_
  intro later after
  exact EndlessRun.preserved (fun system : WorkerSystem Item => system.queue ≠ [])
    (fun between behind => queue_of_untaken (taken_at run between) (untaken between behind))
    filled after

/-- The worker that has taken an item works on it to the end. -/
theorem handles_one {time : Nat} (filled : (run.states time).queue ≠ []) :
    ∃ later, time ≤ later ∧
      (run.states time).handled.length < (run.states later).handled.length := by
  rcases takes some_worker goesOn fair filled with ⟨taking, after, worker, label⟩
  have taken := taken_at run taking
  rw [label] at taken
  rcases working_of_take taken with ⟨item, works⟩
  rcases work_ends some_worker goesOn fair works with ⟨later, behind, _, handled, _⟩
  refine ⟨later + 1, by omega, ?_⟩
  have grown := (handled_grows run (show time ≤ later by omega)).length_le
  rw [handled, List.length_append, List.length_singleton]
  omega

theorem handles_next (kept : ∀ time, (run.states time).Kept) {time : Nat}
    (unhandled : (run.states time).handled.length < (run.states time).pushed.length) :
    ∃ later, time ≤ later ∧
      (run.states time).handled.length < (run.states later).handled.length := by
  rcases kept time with ⟨hand, items, held⟩
  rcases held with empty | ⟨worker, item, works⟩
  · apply handles_one some_worker goesOn fair
    intro nothing
    rw [items, empty, nothing] at unhandled
    simp at unhandled
  · rcases work_ends some_worker goesOn fair works with ⟨later, behind, _, handled, _⟩
    refine ⟨later + 1, by omega, ?_⟩
    have grown := (handled_grows run behind).length_le
    rw [handled, List.length_append, List.length_singleton]
    omega

/-- What has been pushed by some time has been handled, in the order of the pushes, by another. -/
theorem handled_in_the_end (kept : ∀ time, (run.states time).Kept)
    (ordered : ∀ time, (run.states time).handled <+: (run.states time).pushed) (time : Nat) :
    ∃ later, time ≤ later ∧ (run.states time).pushed <+: (run.states later).handled := by
  have enough : ∀ number, number ≤ (run.states time).pushed.length →
      ∃ later, time ≤ later ∧ number ≤ (run.states later).handled.length := by
    intro number
    induction number with
    | zero => exact fun _ => ⟨time, Nat.le_refl time, Nat.zero_le _⟩
    | succ number induction =>
        intro inside
        rcases induction (by omega) with ⟨later, after, reached⟩
        by_cases further : number + 1 ≤ (run.states later).handled.length
        · exact ⟨later, after, further⟩
        · have pushed := (pushed_grows run after).length_le
          have waiting : (run.states later).handled.length < (run.states later).pushed.length := by
            omega
          rcases handles_next some_worker goesOn fair kept waiting with ⟨last, behind, more⟩
          exact ⟨last, by omega, by omega⟩
  rcases enough _ (Nat.le_refl _) with ⟨later, after, reached⟩
  exact ⟨later, after,
    List.prefix_of_prefix_length_le (pushed_grows run after) (ordered later) reached⟩

end

/-! ## Nothing to do -/

structure Calm (system : WorkerSystem Item) : Prop where
  free : system.owner = none
  unstopped : system.stop = .before
  empty : system.queue = []
  waits : system.workers 0 = .waiting
  alone : ∀ worker, worker ≠ 0 → system.workers worker = .finished
  away : ∀ producer, system.producers producer = .away

def spinning (system : WorkerSystem Item) : Nat → WorkerSystem Item
  | 0 => system
  | 1 => system.moveWorker 0 .woken
  | 2 => (system.setOwner (some (.worker 0))).moveWorker 0 .testing
  | 3 => (system.setOwner (some (.worker 0))).moveWorker 0 .deciding
  | _ => (system.setOwner (some (.worker 0))).moveWorker 0 .entering

def spinLabel : Nat → Label Item
  | 0 => .wake 0
  | 1 => .relock 0
  | 2 => .test 0
  | 3 => .decide 0
  | _ => .wait 0

theorem moveWorker_moveWorker (system : WorkerSystem Item) (worker : Nat)
    (first second : WorkerPlace Item) :
    (system.moveWorker worker first).moveWorker worker second =
      system.moveWorker worker second := by
  rw [moveWorker, moveWorker, moveWorker]
  dsimp only
  rw [Function.update_idem]

theorem Calm.waiting (calm : system.Calm) :
    ((system.setOwner (some (.worker 0))).setOwner none).moveWorker 0 .waiting = system := by
  rw [← calm.waits, moveWorker, setOwner, setOwner]
  dsimp only
  rw [Function.update_eq_self, ← calm.free]

theorem Calm.spins (loop : WaitLoop) (calm : system.Calm) (phase : Nat) :
    loop.step (system.spinning phase) (spinLabel phase) =
      some (system.spinning (if phase < 4 then phase + 1 else 0)) := by
  match phase with
  | 0 =>
      rw [spinning, spinLabel, step, calm.waits]
      rfl
  | 1 =>
      have free : (system.moveWorker 0 .woken).owner = none := calm.free
      have again := moveWorker_moveWorker (system.setOwner (some (.worker 0))) 0 .woken .testing
      rw [spinning, spinLabel, step, workers_moveWorker_self, free]
      exact congrArg some again
  | 2 =>
      have empty : ((system.setOwner (some (.worker 0))).moveWorker 0 .testing).queue = [] :=
        calm.empty
      rw [spinning, spinLabel, step, workers_moveWorker_self, empty]
      have again := moveWorker_moveWorker (system.setOwner (some (.worker 0))) 0 .testing .deciding
      exact congrArg some again
  | 3 =>
      have unset :
          ((system.setOwner (some (.worker 0))).moveWorker 0 .deciding).stopped = false := by
        rw [stopped]
        change (system.stop != .before) = false
        rw [calm.unstopped]
        rfl
      have again := moveWorker_moveWorker (system.setOwner (some (.worker 0))) 0 .deciding .entering
      rw [spinning, spinLabel, step, workers_moveWorker_self, unset]
      exact congrArg some again
  | _ + 4 =>
      have again := moveWorker_moveWorker ((system.setOwner (some (.worker 0))).setOwner none) 0
        .entering .waiting
      change loop.step ((system.setOwner (some (.worker 0))).moveWorker 0 .entering) (.wait 0) =
        some system
      rw [step, workers_moveWorker_self]
      exact congrArg some (again.trans calm.waiting)

def Calm.run (loop : WaitLoop) (calm : system.Calm) :
    (loop.machine Item).EndlessRun system where
  states time := system.spinning (time % 5)
  labels time := spinLabel (time % 5)
  start := rfl
  steps time := by
    have next : (time + 1) % 5 = if time % 5 < 4 then time % 5 + 1 else 0 := by
      split <;> omega
    rw [next]
    exact calm.spins loop (time % 5)

theorem Calm.spinning_others (calm : system.Calm) (phase : Nat) :
    (∀ worker, worker ≠ 0 → (system.spinning phase).workers worker = .finished) ∧
      ∀ producer, (system.spinning phase).producers producer = .away := by
  have moved : ∀ {middle : WorkerSystem Item} (place : WorkerPlace Item),
      middle.workers = system.workers → ∀ worker, worker ≠ 0 →
      (middle.moveWorker 0 place).workers worker = .finished := by
    intro middle place same worker other
    rw [workers_moveWorker_of_ne same other]
    exact calm.alone worker other
  match phase with
  | 0 => exact ⟨calm.alone, calm.away⟩
  | 1 => exact ⟨moved _ rfl, calm.away⟩
  | 2 => exact ⟨moved _ rfl, calm.away⟩
  | 3 => exact ⟨moved _ rfl, calm.away⟩
  | _ + 4 => exact ⟨moved _ rfl, calm.away⟩

theorem Calm.acts (calm : system.Calm) {phase : Nat} {party : Party}
    (enabled : (loop.machine Item).Enabled (fun label => label.actor = some party)
      (system.spinning phase)) : party = .worker 0 := by
  rcases enabled with ⟨label, next, acts, taken⟩
  have others := calm.spinning_others phase
  have mover : ∀ {worker : Nat} {place : WorkerPlace Item},
      (system.spinning phase).workers worker = place → place ≠ .finished → worker = 0 := by
    intro worker place there different
    by_contra other
    exact different (there.symm.trans (others.1 worker other))
  have caller : ∀ {producer : Nat} {place : ProducerPlace Item},
      (system.spinning phase).producers producer = place → place = .away := by
    intro producer place there
    exact there.symm.trans (others.2 producer)
  cases taken_of_step taken with
  | wake => cases acts
  | begin => cases acts
  | stopFlag => cases acts
  | stopNotifyAll => cases acts
  | stopNotifyOne => cases acts
  | push place => cases caller place
  | notify place => cases caller place
  | release place => cases caller place
  | _ place =>
      cases acts
      rw [mover place (by simp)]

theorem Calm.lively (loop : WaitLoop) (calm : system.Calm) : Lively (calm.run loop) where
  goesOn time := by
    change (spinLabel (time % 5) : Label Item).goesOn = true
    match time % 5 with
    | 0 | 1 | 2 | 3 | _ + 4 => rfl
  fair party often time := by
    rcases often 0 with ⟨able, _, enabled⟩
    rw [calm.acts enabled]
    refine ⟨5 * time + 1, by omega, ?_⟩
    change (spinLabel ((5 * time + 1) % 5) : Label Item).actor = some (.worker 0)
    rw [show (5 * time + 1) % 5 = 1 by omega]
    rfl

theorem Lively.cons {run : (loop.machine Item).EndlessRun next} (lively : Lively run)
    (taken : (loop.machine Item).Step system label next) (goesOn : label.goesOn = true) :
    Lively (run.cons taken) where
  goesOn time := by
    cases time with
    | zero => exact goesOn
    | succ time => exact lively.goesOn time
  fair party := (lively.fair party).cons taken

theorem exists_lively {labels : List (Label Item)} (goesOn : ∀ label ∈ labels, label.goesOn = true)
    (reached : Machine.runPartial loop.step system labels = some next) (calm : next.Calm) :
    ∃ run : (loop.machine Item).EndlessRun system, Lively run ∧
      run.states labels.length = next := by
  induction labels generalizing system with
  | nil =>
      cases reached
      exact ⟨calm.run loop, calm.lively loop, rfl⟩
  | cons label labels induction =>
      rcases Option.bind_eq_some_iff.mp reached with ⟨middle, taken, rest⟩
      rcases induction (fun label inside => goesOn label (.tail _ inside)) rest with
        ⟨run, lively, there⟩
      exact ⟨run.cons taken, lively.cons taken (goesOn label (.head _)), there⟩

theorem exists_busy (loop : WaitLoop) (item : Item) :
    ∃ labels next, (∀ label ∈ labels, label.goesOn = true) ∧
      Machine.runPartial loop.step (create 1) labels = some next ∧ next.Calm ∧
      next.pushed = [item] := by
  rcases loop with ⟨all, locked, twice, works, leaves⟩
  refine ⟨[.begin 0 item, .push 0, .notify 0 none] ++ (if locked then [.release 0] else []) ++
    [.lock 0, .test 0] ++ (if twice then [.retest 0] else []) ++
    [.take 0, .work 0, .lock 0, .test 0, .decide 0, .wait 0], ?_⟩
  have alone : ∀ worker, worker ≠ 0 →
      (create 1 : WorkerSystem Item).workers worker = .finished := by
    intro worker other
    exact if_neg (by omega)
  -- what is run depends on the settings, and the run is computed for each of them
  cases locked <;> cases twice <;> cases works <;>
    exact ⟨_, by simp [Label.goesOn], rfl, {
      free := rfl
      unstopped := rfl
      empty := rfl
      waits := rfl
      alone := fun worker other => by
        simpa [moveProducer, moveWorker, setOwner, releaseIf, other] using alone worker other
      away := fun producer => by
        simp [moveProducer, moveWorker, setOwner, releaseIf, create] }, rfl⟩

theorem exists_busy_run (loop : WaitLoop) (item : Item) :
    ∃ run : (loop.machine Item).EndlessRun (create 1), Lively run ∧
      ∃ time, (run.states time).pushed = [item] := by
  rcases exists_busy loop item with ⟨labels, next, goesOn, reached, calm, pushed⟩
  rcases exists_lively goesOn reached calm with ⟨run, lively, there⟩
  exact ⟨run, lively, labels.length, by rw [there, pushed]⟩

end MyBookSources.WaitLoop.WorkerSystem
