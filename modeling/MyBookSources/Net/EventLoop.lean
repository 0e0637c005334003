import MyBookSources.Foundation.Execution

/-! # Event loops

`net::EventLoop`: the loop thread goes round between the test of `quit_`, the
handlers and `doPendingFunctors`, while any thread may queue a functor or ask the
loop to quit. A step is one access to what the threads share. `poll` returns
after `kPollTimeMs` at the latest, so `wakeup` decides when the loop goes on and
not what it does.
-/

namespace MyBookSources.Net

/-- Where the loop thread is. In `between` and `calling` it carries the rest of the
vector that `doPendingFunctors` took from the queue. -/
inductive Phase (Task : Type)
  | created
  | testing
  | handling
  | swapping
  | between (functors : List Task)
  | calling (functors : List Task)
  | framing
  | returned
  deriving DecidableEq

inductive LoopAction
  | enter
  | test
  | handle
  | swap
  | call
  | back
  | finish
  | frame
  deriving DecidableEq

inductive Caller
  | loopThread
  | otherThread (id : Nat)
  deriving DecidableEq

structure EventLoop (Task : Type) where
  phase : Phase Task
  quit : Bool
  pendingFunctors : List Task
  deriving DecidableEq

section

variable {Task : Type}

namespace Phase

def functors : Phase Task → List Task
  | .between functors => functors
  | .calling functors => functors
  | _ => []

/-- The loop thread is in a callback, or has not called `loop` or is back from it. -/
def runsCallbacks : Phase Task → Bool
  | .created => true
  | .handling => true
  | .calling _ => true
  | .framing => true
  | .returned => true
  | _ => false

/-- The loop thread is in `doPendingFunctors`. -/
def inDoPendingFunctors : Phase Task → Bool
  | .swapping => true
  | .between _ => true
  | .calling _ => true
  | _ => false

/-- The loop thread is in `loop`. -/
def isLooping : Phase Task → Bool
  | .created => false
  | .returned => false
  | _ => true

end Phase

namespace EventLoop

def create : EventLoop Task := ⟨.created, false, []⟩

variable (loop : EventLoop Task)

/-- One step of `loop`: entering it, the test of `quit_`, the end of the handlers, the
swap in `doPendingFunctors`, the calls of the functors one by one, the end of
`doPendingFunctors`, and the end of the frame functor. -/
def act : LoopAction → Option (EventLoop Task)
  | .enter =>
      match loop.phase with
      | .created => some { loop with phase := .testing, quit := false }
      | _ => none
  | .test =>
      match loop.phase with
      | .testing => some { loop with phase := if loop.quit then .returned else .handling }
      | _ => none
  | .handle =>
      match loop.phase with
      | .handling => some { loop with phase := .swapping }
      | _ => none
  | .swap =>
      match loop.phase with
      | .swapping =>
          some { loop with phase := .between loop.pendingFunctors, pendingFunctors := [] }
      | _ => none
  | .call =>
      match loop.phase with
      | .between (_ :: functors) => some { loop with phase := .calling functors }
      | _ => none
  | .back =>
      match loop.phase with
      | .calling functors => some { loop with phase := .between functors }
      | _ => none
  | .finish =>
      match loop.phase with
      | .between [] => some { loop with phase := .framing }
      | _ => none
  | .frame =>
      match loop.phase with
      | .framing => some { loop with phase := .testing }
      | _ => none

/-- The functor that the next `call` calls. -/
def nextFunctor : Option Task :=
  match loop.phase with
  | .between (functor :: _) => some functor
  | _ => none

def waiting : List Task := loop.phase.functors ++ loop.pendingFunctors

def hasReturned : Bool :=
  match loop.phase with
  | .returned => true
  | _ => false

def isHandling : Bool :=
  match loop.phase with
  | .handling => true
  | _ => false

/-- The loop thread is between two functors of `doPendingFunctors`. -/
def isBetween : Bool :=
  match loop.phase with
  | .between _ => true
  | _ => false

/-- The loop thread is in a callback of `loop`. -/
def inCallback : Bool := loop.phase.isLooping && loop.phase.runsCallbacks

def queueInLoop (functor : Task) : EventLoop Task :=
  { loop with pendingFunctors := loop.pendingFunctors ++ [functor] }

/-- On the loop thread the functor is called at once, as part of the callback that is
running. -/
def runInLoop (caller : Caller) (functor : Task) : EventLoop Task :=
  match caller with
  | .loopThread => loop
  | .otherThread _ => loop.queueInLoop functor

def askToQuit : EventLoop Task := { loop with quit := true }

inductive Acts : LoopAction → EventLoop Task → Prop
  | enter : loop.phase = .created → Acts .enter { loop with phase := .testing, quit := false }
  | leave : loop.phase = .testing → loop.quit = true →
      Acts .test { loop with phase := .returned }
  | goOn : loop.phase = .testing → loop.quit = false →
      Acts .test { loop with phase := .handling }
  | handle : loop.phase = .handling → Acts .handle { loop with phase := .swapping }
  | swap : loop.phase = .swapping →
      Acts .swap { loop with phase := .between loop.pendingFunctors, pendingFunctors := [] }
  | call (functor : Task) (functors : List Task) :
      loop.phase = .between (functor :: functors) →
      Acts .call { loop with phase := .calling functors }
  | back (functors : List Task) : loop.phase = .calling functors →
      Acts .back { loop with phase := .between functors }
  | finish : loop.phase = .between [] → Acts .finish { loop with phase := .framing }
  | frame : loop.phase = .framing → Acts .frame { loop with phase := .testing }

variable {loop}

theorem acts_of_act {action : LoopAction} {next : EventLoop Task}
    (taken : loop.act action = some next) : loop.Acts action next := by
  rcases loop with ⟨phase, quit, pendingFunctors⟩
  cases action with
  | enter =>
      cases phase with
      | created =>
          cases taken
          exact .enter rfl
      | _ => cases taken
  | test =>
      cases phase with
      | testing =>
          cases quit with
          | true =>
              cases taken
              exact .leave rfl rfl
          | false =>
              cases taken
              exact .goOn rfl rfl
      | _ => cases taken
  | handle =>
      cases phase with
      | handling =>
          cases taken
          exact .handle rfl
      | _ => cases taken
  | swap =>
      cases phase with
      | swapping =>
          cases taken
          exact .swap rfl
      | _ => cases taken
  | call =>
      cases phase with
      | between functors =>
          cases functors with
          | nil => cases taken
          | cons functor functors =>
              cases taken
              exact .call functor functors rfl
      | _ => cases taken
  | back =>
      cases phase with
      | calling functors =>
          cases taken
          exact .back functors rfl
      | _ => cases taken
  | finish =>
      cases phase with
      | between functors =>
          cases functors with
          | nil =>
              cases taken
              exact .finish rfl
          | cons functor functors => cases taken
      | _ => cases taken
  | frame =>
      cases phase with
      | framing =>
          cases taken
          exact .frame rfl
      | _ => cases taken

theorem Acts.waiting {action : LoopAction} {next : EventLoop Task}
    (acts : loop.Acts action next) (other : action ≠ .call) : next.waiting = loop.waiting := by
  cases acts with
  | call functor functors phase => exact absurd rfl other
  | swap phase => simp [EventLoop.waiting, phase, Phase.functors]
  | enter phase | leave phase quit | goOn phase quit | handle phase | back functors phase
  | finish phase | frame phase => simp [EventLoop.waiting, phase, Phase.functors]

theorem waiting_of_call {functor : Task} {functors : List Task}
    (phase : loop.phase = .between (functor :: functors)) :
    loop.waiting = functor :: ({ loop with phase := .calling functors } :
      EventLoop Task).waiting := by
  simp [EventLoop.waiting, phase, Phase.functors]

@[simp] theorem waiting_queueInLoop (functor : Task) :
    (loop.queueInLoop functor).waiting = loop.waiting ++ [functor] := by
  simp [EventLoop.waiting, queueInLoop]

@[simp] theorem queueInLoop_phase (functor : Task) :
    (loop.queueInLoop functor).phase = loop.phase := rfl

@[simp] theorem queueInLoop_quit (functor : Task) :
    (loop.queueInLoop functor).quit = loop.quit := rfl

@[simp] theorem queueInLoop_pendingFunctors (functor : Task) :
    (loop.queueInLoop functor).pendingFunctors = loop.pendingFunctors ++ [functor] := rfl

@[simp] theorem askToQuit_phase : loop.askToQuit.phase = loop.phase := rfl

@[simp] theorem askToQuit_pendingFunctors :
    loop.askToQuit.pendingFunctors = loop.pendingFunctors := rfl

end EventLoop

end

end MyBookSources.Net
