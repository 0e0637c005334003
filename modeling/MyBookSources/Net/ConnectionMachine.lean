import MyBookSources.Foundation.Execution
import MyBookSources.Net.TcpConnection

/-! # The loop thread of one connection

The calls that run on the loop thread for a connection form a stack. A public
member function, a channel event or a posted functor enters when the stack is empty
or when the body of a callback is on top, so that calls nest through callbacks in
every possible way.
-/

namespace MyBookSources.Net

/-- `log` holds the callbacks in the order in which they ran. -/
structure Config where
  endpoint : Endpoint
  stack : List Call
  log : List Callback

/-- `ctl` answers the `epoll_ctl` call that an executed call makes. -/
inductive Label
  | enter (call : Call)
  | advance (ctl : Bool)
  | leave
  | dispatch

/-- The calls that come from outside. `sendInLoop` is posted by a `send` that has
found the connection connected, so it never runs on a connection that is still
connecting. -/
def Call.isEntry (endpoint : Endpoint) : Call → Bool
  | .sendInLoop _ _ => endpoint.state ≠ .kConnecting
  | .connectEstablished => true
  | .connectDestroyed => true
  | .handleEvent _ _ _ => true
  | .send _ _ => true
  | .shutdown => true
  | .forceClose => true
  | .forceCloseInLoop => true
  | .retrieveInput _ => true
  | _ => false

def Functor.calls : Functor → List Call
  | .forceCloseInLoop => [.forceCloseInLoop]
  | .writeCompleteCallback => [.userCode]
  | .highWaterMarkCallback _ => [.userCode]

namespace Config

def create (endpoint : Endpoint) : Config := ⟨endpoint, [], []⟩

def isOpen (config : Config) : Bool :=
  match config.stack with
  | [] => true
  | call :: _ => call == .userCode

def advance (config : Config) (platform : Platform) (ctl : Bool) (call : Call)
    (rest : List Call) : Config :=
  let outcome := config.endpoint.execute platform ctl call
  ⟨outcome.endpoint, outcome.calls ++ rest, config.log ++ outcome.delivered⟩

def step (platform : Platform) (config : Config) : Label → Option Config
  | .enter call =>
      if config.isOpen && call.isEntry config.endpoint then
        some { config with stack := call :: config.stack }
      else none
  | .advance ctl =>
      match config.stack with
      | [] => none
      | call :: rest =>
          if call = .userCode then none else some (config.advance platform ctl call rest)
  | .leave =>
      match config.stack with
      | .userCode :: rest => some { config with stack := rest }
      | _ => none
  | .dispatch =>
      match config.stack, config.endpoint.pendingFunctors with
      | [], functor :: others =>
          some { config with
            endpoint := { config.endpoint with pendingFunctors := others }
            stack := functor.calls }
      | _, _ => none

end Config

def connectionMachine (platform : Platform) : Machine Config Label :=
  .ofPartial (Config.step platform)

namespace Config

inductive Moves (platform : Platform) (before : Config) : Label → Config → Prop
  | enter (call : Call) :
      before.isOpen = true → call.isEntry before.endpoint = true →
      Moves platform before (.enter call) { before with stack := call :: before.stack }
  | advance (ctl : Bool) (call : Call) (rest : List Call) :
      before.stack = call :: rest → call ≠ .userCode →
      Moves platform before (.advance ctl) (before.advance platform ctl call rest)
  | leave (rest : List Call) :
      before.stack = .userCode :: rest →
      Moves platform before .leave { before with stack := rest }
  | dispatch (functor : Functor) (others : List Functor) :
      before.stack = [] →
      Moves platform before .dispatch { before with
        endpoint := { before.endpoint with pendingFunctors := others }
        stack := functor.calls }

theorem step_moves {platform : Platform} {before after : Config} {label : Label}
    (taken : (connectionMachine platform).Step before label after) :
    Moves platform before label after := by
  change before.step platform label = some after at taken
  cases label with
  | enter call =>
      simp only [step] at taken
      split at taken
      · next allowed =>
        rw [Bool.and_eq_true] at allowed
        cases taken
        exact .enter call allowed.1 allowed.2
      · cases taken
  | advance ctl =>
      cases stack : before.stack with
      | nil => simp [step, stack] at taken
      | cons call rest =>
          simp only [step, stack] at taken
          split at taken
          · cases taken
          · next running =>
            cases taken
            exact .advance ctl call rest stack running
  | leave =>
      simp only [step] at taken
      split at taken
      · next rest stack =>
        cases taken
        exact .leave rest stack
      · cases taken
  | dispatch =>
      simp only [step] at taken
      split at taken
      · next functor others stack _ =>
        cases taken
        exact .dispatch functor others stack
      · cases taken

theorem Moves.of_running {platform : Platform} {before after : Config} {label : Label}
    {call : Call} {rest : List Call} (moves : before.Moves platform label after)
    (stack : before.stack = call :: rest) (running : call ≠ .userCode) :
    ∃ ctl, after = before.advance platform ctl call rest := by
  cases moves with
  | enter _ idle entry => simp [isOpen, stack, running] at idle
  | advance ctl _ _ top _ =>
      rw [stack] at top
      cases top
      exact ⟨ctl, rfl⟩
  | leave _ top =>
      rw [stack] at top
      cases top
      exact absurd rfl running
  | dispatch _ _ empty =>
      rw [stack] at empty
      cases empty

theorem Moves.suffix {platform : Platform} {before after : Config} {label : Label}
    {call : Call} {rest : List Call} (moves : before.Moves platform label after)
    (stack : before.stack = call :: rest) : ∃ above, after.stack = above ++ rest := by
  cases moves with
  | enter entered _ _ => exact ⟨[entered, call], by simp [stack]⟩
  | advance ctl _ _ top _ =>
      rw [stack] at top
      cases top
      exact ⟨_, rfl⟩
  | leave _ top =>
      rw [stack] at top
      cases top
      exact ⟨[], rfl⟩
  | dispatch _ _ empty =>
      rw [stack] at empty
      cases empty

end Config

end MyBookSources.Net
