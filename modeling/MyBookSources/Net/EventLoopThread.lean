import MyBookSources.Net.EventLoop
import MyBookSources.Net.TcpConnection

/-! # Loop threads

`net::EventLoopThread`: an owner starts a worker thread, waits until it has
published its loop, and stops it later by `quit` and `join`. A step is one access
to what the two threads share; other threads may queue functors and call `quit`
as long as the loop is published.
-/

namespace MyBookSources.Net

section

variable {Task : Type}

inductive WorkerPhase
  | absent
  | running
  | finished
  deriving DecidableEq

/-- Where the owner is. `joining` records whether `stopLoop` found a loop to quit. -/
inductive OwnerPhase
  | idle
  | waiting
  | started
  | quitting
  | joining (asked : Bool)
  deriving DecidableEq

/-- `published` says that `loop_` is not null. `forgotten` records that the worker has
tested its loop condition with `quit_` unset after the `quit` of `stopLoop` returned. -/
structure EventLoopThread (Task : Type) where
  loop : EventLoop Task
  published : Bool
  worker : WorkerPhase
  owner : OwnerPhase
  forgotten : Bool
  deriving DecidableEq

inductive ThreadLabel (Task : Type)
  | startLoop
  | wake
  | publish
  | act (action : LoopAction)
  | queueInLoop (caller : Caller) (functor : Task)
  | quitLoop (caller : Caller)
  | unpublish
  | stopLoop
  | quit
  | join
  deriving DecidableEq

namespace EventLoopThread

def create : EventLoopThread Task := ⟨EventLoop.create, false, .absent, .idle, false⟩

variable (thread : EventLoopThread Task)

/-- The worker's own functors have the loop from the start, other threads through `loop_`. -/
def mayUse : Caller → Bool
  | .loopThread => thread.worker = .running && thread.loop.phase.runsCallbacks
  | .otherThread _ => thread.published

/-- `loop` is entered behind the publication. -/
def mayAct : LoopAction → Bool
  | .enter => thread.published
  | _ => true

/-- The worker tests `quit_` without finding the request that the owner waits for. -/
def forgets : LoopAction → Bool
  | .test => thread.owner = .joining true && !thread.loop.quit
  | _ => false

def step : ThreadLabel Task → Option (EventLoopThread Task)
  | .startLoop =>
      match thread.owner with
      | .idle => some { thread with
          loop := EventLoop.create, worker := .running, owner := .waiting }
      | _ => none
  | .wake =>
      match thread.owner with
      | .waiting => if thread.published then some { thread with owner := .started } else none
      | _ => none
  | .publish =>
      match thread.worker, thread.loop.phase, thread.published with
      | .running, .created, false => some { thread with published := true }
      | _, _, _ => none
  | .act action =>
      if thread.mayAct action then
        (thread.loop.act action).map fun loop => { thread with
          loop := loop, forgotten := thread.forgotten || thread.forgets action }
      else none
  | .queueInLoop caller functor =>
      if thread.mayUse caller then
        some { thread with loop := thread.loop.queueInLoop functor }
      else none
  | .quitLoop caller =>
      if thread.mayUse caller then some { thread with loop := thread.loop.askToQuit } else none
  | .unpublish =>
      match thread.worker, thread.loop.phase with
      | .running, .returned => some { thread with published := false, worker := .finished }
      | _, _ => none
  | .stopLoop =>
      match thread.owner with
      | .started => some { thread with
          owner := if thread.published then .quitting else .joining false }
      | _ => none
  | .quit =>
      match thread.owner with
      -- a call through `loop_` after the worker has cleared it has no behaviour
      | .quitting => if thread.published then
          some { thread with loop := thread.loop.askToQuit, owner := .joining true } else none
      | _ => none
  | .join =>
      match thread.owner with
      | .joining _ => if thread.worker = .finished then some { thread with owner := .idle }
          else none
      | _ => none

end EventLoopThread

/-- Every interleaving of the worker with its owner and the users of the loop. -/
def threadMachine (Task : Type) : Machine (EventLoopThread Task) (ThreadLabel Task) :=
  .ofPartial EventLoopThread.step

namespace EventLoopThread

variable {thread next : EventLoopThread Task}

/-- The condition on the `quit` of `stopLoop`: the worker has entered `loop`. -/
def QuitsEntered (thread : EventLoopThread Task) : ThreadLabel Task → Prop
  | .quit => thread.loop.phase ≠ .created
  | _ => True

instance [DecidableEq Task] (thread : EventLoopThread Task) (label : ThreadLabel Task) :
    Decidable (thread.QuitsEntered label) := by
  cases label <;> unfold QuitsEntered <;> infer_instance

/-- While the owner waits in `join` behind its `quit`, the request stands. -/
structure Remembered (thread : EventLoopThread Task) : Prop where
  never : thread.forgotten = false
  standing : thread.owner = .joining true →
    thread.loop.quit = true ∧ thread.loop.phase ≠ .created

theorem create_remembered : Remembered (create : EventLoopThread Task) where
  never := rfl
  standing waiting := by cases waiting

theorem act_standing {loop : EventLoop Task} {action : LoopAction}
    {after : EventLoop Task} (acts : loop.Acts action after)
    (standing : loop.quit = true ∧ loop.phase ≠ .created) :
    after.quit = true ∧ after.phase ≠ .created := by
  rcases standing with ⟨quit, entered⟩
  cases acts with
  | enter phase => exact absurd phase entered
  | _ => exact ⟨quit, by simp⟩

theorem act_remembered (remembered : Remembered thread) {action : LoopAction}
    {loop : EventLoop Task} (acts : thread.loop.Acts action loop) :
    Remembered { thread with
      loop := loop, forgotten := thread.forgotten || thread.forgets action } where
  never := by
    dsimp only
    rw [remembered.never, Bool.false_or]
    cases action with
    | test =>
        by_cases waiting : thread.owner = .joining true
        · simp [forgets, (remembered.standing waiting).1]
        · simp [forgets, waiting]
    | _ => rfl
  standing waiting := act_standing acts (remembered.standing waiting)

theorem step_remembered {label : ThreadLabel Task} (remembered : Remembered thread)
    (condition : thread.QuitsEntered label)
    (taken : (threadMachine Task).Step thread label next) : Remembered next := by
  change thread.step label = some next at taken
  cases label with
  | startLoop =>
      simp only [step] at taken
      split at taken
      · cases taken
        exact ⟨remembered.never, fun waiting => by cases waiting⟩
      · cases taken
  | wake =>
      simp only [step] at taken
      split at taken
      · split at taken
        · cases taken
          exact ⟨remembered.never, fun waiting => by cases waiting⟩
        · cases taken
      · cases taken
  | publish =>
      simp only [step] at taken
      split at taken
      · cases taken
        exact ⟨remembered.never, remembered.standing⟩
      · cases taken
  | act action =>
      simp only [step] at taken
      split at taken
      · rcases Option.map_eq_some_iff.mp taken with ⟨loop, acted, rfl⟩
        exact act_remembered remembered (EventLoop.acts_of_act acted)
      · cases taken
  | queueInLoop caller functor =>
      simp only [step] at taken
      split at taken
      · cases taken
        exact ⟨remembered.never, remembered.standing⟩
      · cases taken
  | quitLoop caller =>
      simp only [step] at taken
      split at taken
      · cases taken
        exact ⟨remembered.never, fun waiting => ⟨rfl, (remembered.standing waiting).2⟩⟩
      · cases taken
  | unpublish =>
      simp only [step] at taken
      split at taken
      · cases taken
        exact ⟨remembered.never, remembered.standing⟩
      · cases taken
  | stopLoop =>
      simp only [step] at taken
      split at taken
      · cases taken
        constructor
        · exact remembered.never
        · intro waiting
          dsimp only at waiting
          split at waiting
          · cases waiting
          · cases waiting
      · cases taken
  | quit =>
      simp only [step] at taken
      split at taken
      · split at taken
        · cases taken
          exact ⟨remembered.never, fun _ => ⟨rfl, condition⟩⟩
        · cases taken
      · cases taken
  | join =>
      simp only [step] at taken
      split at taken
      · split at taken
        · cases taken
          exact ⟨remembered.never, fun waiting => by cases waiting⟩
        · cases taken
      · cases taken

/-- A `quit` that comes before `loop` is entered can always get lost. -/
theorem early_quit_forgotten (quitting : thread.owner = .quitting)
    (published : thread.published = true) (early : thread.loop.phase = .created) :
    ∃ last, last.forgotten = true ∧
      (threadMachine Task).Transitions thread [.quit, .act .enter, .act .test] last := by
  rcases thread with ⟨⟨phase, quit, pendingFunctors⟩, _, worker, _, forgotten⟩
  cases quitting
  cases published
  cases early
  apply Exists.intro ⟨⟨.handling, false, pendingFunctors⟩, true, worker, .joining true,
    forgotten || false || true⟩
  constructor
  · exact Bool.or_true _
  · exact .cons rfl (.cons rfl (.cons rfl (.nil _)))

end EventLoopThread

open EventLoopThread in
/-- In every run in which each `quit` of `stopLoop` comes after `loop` was entered, the
worker does not test its condition with `quit_` unset behind it. -/
theorem quit_remembered {thread : EventLoopThread Task} {labels : List (ThreadLabel Task)}
    (transitions : ((threadMachine Task).restrict QuitsEntered).Transitions
      EventLoopThread.create labels thread) : thread.forgotten = false := by
  have remembered : Remembered thread := by
    apply transitions.invariant
    · intro before label after remembered taken
      exact step_remembered remembered taken.2 taken.1
    · exact create_remembered
  exact remembered.never

/-- A thread that is started, stopped and joined. -/
theorem quit_remembered_joined : ∃ thread : EventLoopThread Call,
    thread.loop.phase = .returned ∧ thread.owner = .idle ∧ thread.forgotten = false := by
  have facts : (Machine.runPartial (fun thread label =>
      if thread.QuitsEntered label then thread.step label else none)
      (EventLoopThread.create : EventLoopThread Call)
      [.startLoop, .publish, .wake, .stopLoop, .act .enter, .act .test, .quit, .act .handle,
        .act .swap, .act .finish, .act .frame, .act .test, .unpublish, .join]).map
        (fun thread => (thread.loop.phase, thread.owner)) = some (.returned, .idle) := by
    decide +kernel
  rcases Option.map_eq_some_iff.mp facts with ⟨thread, ran, facts⟩
  simp only [Prod.mk.injEq] at facts
  apply Exists.intro thread
  constructor
  · exact facts.1
  · exact ⟨facts.2, quit_remembered (Machine.transitions_of_checked_run ran)⟩

/-- The owner stops the thread between the publication of the loop and the beginning of
`loop`, which takes the request back. -/
theorem quit_before_loop_forgotten :
    ¬ ∀ (Task : Type) (labels : List (ThreadLabel Task)) (thread : EventLoopThread Task),
      (threadMachine Task).Transitions EventLoopThread.create labels thread →
      thread.forgotten = false := by
  intro law
  have facts : (Machine.runPartial EventLoopThread.step
      (EventLoopThread.create : EventLoopThread Call)
      [.startLoop, .publish, .wake, .stopLoop, .quit, .act .enter, .act .test]).map
        (fun thread => thread.forgotten) = some true := by decide +kernel
  rcases Option.map_eq_some_iff.mp facts with ⟨thread, ran, forgotten⟩
  have remembered := law Call _ thread (Machine.transitions_of_runPartial ran)
  rw [forgotten] at remembered
  cases remembered

end

end MyBookSources.Net
