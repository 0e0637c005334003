import MyBookSources.Net.ConnectionMachine

/-! # Transient errors

A read or a write that is interrupted or would block has failed for now, which `sendInLoop`
takes into account. `handleRead` and `handleWrite` close the connection on any error.
-/

namespace MyBookSources.Net

open Machine

theorem Events.has_bits_or (mask left right : Events) :
    mask.has (left ||| right) = (mask.has left || mask.has right) := by
  have zero : mask &&& (left ||| right) = 0 ↔ mask &&& left = 0 ∧ mask &&& right = 0 := by
    rw [BitVec.and_or_distrib_left]
    exact BitVec.or_eq_zero_iff
  rw [Bool.eq_iff_iff]
  simp only [has, bne_iff_ne, ne_eq, Bool.or_eq_true, zero]
  tauto

def Errno.transient : Errno → Bool
  | .EWOULDBLOCK => true
  | .EINTR => true
  | _ => false

/-- `handleError` does nothing but call `handleClose`. -/
def Call.closes : Call → Bool
  | .handleClose => true
  | .handleError => true
  | _ => false

/-- The calls that close the connection or are asked to. -/
def Call.asks : Call → Bool
  | .forceCloseInLoop => true
  | call => call.closes

namespace Endpoint

variable (endpoint : Endpoint)

/-- `sendInLoop` tries a write before it queues anything. -/
def writesDirectly : Bool :=
  endpoint.state ≠ .kDisconnected ∧ endpoint.channel.isWriting = false ∧
    endpoint.outputBuffer.readableBytes = 0

/-- What a connection may be closed for: the end of the stream, an error that is not transient,
an event for an error or a hang-up, a failing `enableReading`, or a `forceClose`. -/
def givesCause (ctl : Bool) : Call → Bool
  | .handleRead (.failed errno) => !errno.transient
  | .handleRead read => read.count = 0
  | .handleWrite (.failed errno) => endpoint.channel.isWriting && !errno.transient
  | .sendInLoop _ (.failed errno) => endpoint.writesDirectly && !errno.transient
  | .handleEvent revents _ _ => revents.has (XPOLLHUP ||| (XPOLLERR ||| XPOLLNVAL))
  | .connectEstablished =>
      endpoint.state = .kConnecting && !((endpoint.setState .kConnected).enableReading ctl).1
  | .forceClose => true
  | _ => false

def failsTransiently : Call → Bool
  | .handleRead (.failed errno) => errno.transient
  | .handleWrite (.failed errno) => endpoint.channel.isWriting && errno.transient
  | _ => false

def writesNothing : Call → Bool
  | .handleWrite (.accepted count) => endpoint.channel.isWriting && count == 0
  | _ => false

/-- What a handler has done when it gets to a callback or its end. -/
def afterHandler (platform : Platform) (ctl : Bool) (call : Call) : Endpoint :=
  let outcome := endpoint.execute platform ctl call
  if outcome.calls.any Call.closes then (outcome.endpoint.handleClose ctl).endpoint
  else outcome.endpoint

/-- The state, the buffers and the interest of the channel are the same. -/
def Unchanged (before after : Endpoint) : Prop :=
  after.state = before.state ∧ after.inputBuffer = before.inputBuffer ∧
    after.outputBuffer = before.outputBuffer ∧ after.channel.events = before.channel.events

instance (before after : Endpoint) : Decidable (Unchanged before after) :=
  inferInstanceAs (Decidable (_ ∧ _))

theorem sendInLoop_transient {errno : Errno} (transient : errno.transient = true) (data : Bytes)
    (ctl : Bool) (alive : endpoint.state ≠ .kDisconnected) :
    endpoint.sendInLoop data (.failed errno) ctl =
      endpoint.queueOutput data ⟨0, data.length, false⟩ ctl := by
  rw [sendInLoop, if_neg alive]
  split
  · cases errno with
    | EWOULDBLOCK | EINTR => rfl
    | EPIPE | ECONNRESET | other _ => cases transient
  · rfl

/-! ## Requests to close -/

/-- A `forceCloseInLoop` is posted. -/
def closeAsked : Bool := endpoint.pendingFunctors.contains .forceCloseInLoop

theorem queueInLoop_closeAsked {functor : Functor} (other : functor ≠ .forceCloseInLoop) :
    (endpoint.queueInLoop functor).closeAsked = endpoint.closeAsked := by
  rw [closeAsked, queueInLoop, List.contains_append]
  simp [closeAsked, Ne.symm other]

theorem postWriteComplete_closeAsked :
    endpoint.postWriteComplete.closeAsked = endpoint.closeAsked := by
  unfold postWriteComplete
  split
  · exact queueInLoop_closeAsked endpoint (by simp)
  · rfl

theorem warnHighWater_closeAsked (remaining : Nat) :
    (endpoint.warnHighWater remaining).closeAsked = endpoint.closeAsked := by
  unfold warnHighWater
  dsimp only
  split
  · exact queueInLoop_closeAsked endpoint (by simp)
  · rfl

theorem writeDirectly_closeAsked (data : Bytes) (write : WriteResult) :
    (endpoint.writeDirectly data write).1.closeAsked = endpoint.closeAsked := by
  cases write with
  | failed errno => rfl
  | accepted count =>
      simp only [writeDirectly]
      split
      · rw [postWriteComplete_closeAsked]
        rfl
      · rfl

theorem queueOutput_closeAsked (data : Bytes) (progress : WriteProgress) (ctl : Bool) :
    (endpoint.queueOutput data progress ctl).closeAsked = endpoint.closeAsked := by
  unfold queueOutput
  split
  · rfl
  · split
    · rw [← warnHighWater_closeAsked endpoint progress.remaining]
      unfold ensureWriting
      dsimp only
      split
      · rfl
      · rfl
    · rfl

theorem sendInLoop_closeAsked (data : Bytes) (write : WriteResult) (ctl : Bool) :
    (endpoint.sendInLoop data write ctl).closeAsked = endpoint.closeAsked := by
  unfold sendInLoop
  split
  · rfl
  · dsimp only
    rw [queueOutput_closeAsked]
    split
    · exact writeDirectly_closeAsked endpoint data write
    · rfl

theorem outputDrained_closeAsked (ctl : Bool) :
    (endpoint.outputDrained ctl).closeAsked = endpoint.closeAsked := by
  have completed := (endpoint.disableWriting ctl).2.postWriteComplete_closeAsked
  unfold outputDrained
  dsimp only
  split
  · rcases (endpoint.disableWriting ctl).2.postWriteComplete.shutdownInLoop_eq with ⟨shut, closed⟩
    rw [closed]
    exact completed
  · exact completed

theorem handleWrite_closeAsked (write : WriteResult) (ctl : Bool) :
    (endpoint.handleWrite write ctl).endpoint.closeAsked = endpoint.closeAsked := by
  unfold handleWrite
  split
  · rfl
  · cases write with
    | failed errno => rfl
    | accepted count =>
        dsimp only
        split
        · rfl
        · split
          · exact outputDrained_closeAsked _ ctl
          · rfl

theorem shutdown_closeAsked : endpoint.shutdown.closeAsked = endpoint.closeAsked := by
  unfold shutdown
  split
  · rcases (endpoint.setState .kDisconnecting).shutdownInLoop_eq with ⟨shut, closed⟩
    rw [closed]
    rfl
  · rfl

theorem execute_closeAsked (platform : Platform) (ctl : Bool) {call : Call}
    (other : call ≠ .forceClose) :
    (endpoint.execute platform ctl call).endpoint.closeAsked = endpoint.closeAsked := by
  cases call with
  | forceClose => exact absurd rfl other
  | sendInLoop message write => exact sendInLoop_closeAsked endpoint message write ctl
  | handleWrite write => exact handleWrite_closeAsked endpoint write ctl
  | shutdown => exact shutdown_closeAsked endpoint
  | connectEstablished =>
      simp only [execute, connectEstablished]
      split
      · rfl
      · split
        · rfl
        · rfl
  | connectDestroyed =>
      simp only [execute, connectDestroyed]
      split
      · rfl
      · rfl
  | handleClose =>
      simp only [execute, handleClose]
      split
      · rfl
      · rfl
  | handleRead read =>
      simp only [execute, handleRead]
      split
      · rfl
      · split
        · rfl
        · rfl
  | removeChannel =>
      simp only [execute, removeChannel]
      split
      · rfl
      · rfl
  | handleEvent | handleError | send | forceCloseInLoop | retrieveInput | closeCallback
  | userCode => rfl

theorem handleEventWithGuard_asks {revents : Events}
    (quiet : revents.has (XPOLLHUP ||| (XPOLLERR ||| XPOLLNVAL)) = false) (read : ReadResult)
    (write : WriteResult) : (handleEventWithGuard revents read write).any Call.asks = false := by
  have parts : revents.has XPOLLHUP = false ∧ revents.has (XPOLLERR ||| XPOLLNVAL) = false := by
    rw [Events.has_bits_or] at quiet
    exact Bool.or_eq_false_iff.mp quiet
  rw [handleEventWithGuard, parts.1, parts.2]
  simp only [Bool.false_and, Bool.false_eq_true, if_false, List.nil_append, List.any_append]
  split
  · split
    · rfl
    · rfl
  · split
    · rfl
    · rfl

/-- Without a cause, a call that is not to close hands over to one only after a transient error or
a write of nothing. -/
theorem execute_asks (platform : Platform) (ctl : Bool) {call : Call} (other : call.asks = false)
    (noCause : endpoint.givesCause ctl call = false) :
    (endpoint.execute platform ctl call).calls.any Call.asks =
      (endpoint.failsTransiently call || endpoint.writesNothing call) := by
  cases call with
  | handleClose | handleError | forceCloseInLoop => cases other
  | forceClose => cases noCause
  | handleEvent revents read write => exact handleEventWithGuard_asks noCause read write
  | connectEstablished =>
      simp only [execute, connectEstablished]
      split
      · rfl
      · next connecting =>
        rw [not_not] at connecting
        have enabled : ((endpoint.setState .kConnected).enableReading ctl).1 = true := by
          simpa [givesCause, connecting] using noCause
        rw [if_neg (by simp [enabled])]
        rfl
  | connectDestroyed =>
      simp only [execute, connectDestroyed]
      split
      · rfl
      · rfl
  | handleRead read =>
      simp only [execute, handleRead, Buffer.readFd_count]
      cases read with
      | endOfStream => cases noCause
      | failed errno =>
          have transient : errno.transient = true := by simpa [givesCause] using noCause
          simp [failsTransiently, transient, ReadResult.count, Call.asks, Call.closes]
      | received data =>
          have some : 0 < (ReadResult.received data).count := by
            have count : (data.length : Int) ≠ 0 := by
              simpa [givesCause, ReadResult.count] using noCause
            rw [ReadResult.count]
            omega
          rw [if_pos some]
          rfl
  | handleWrite write =>
      simp only [execute, handleWrite]
      cases writing : endpoint.channel.isWriting with
      | false => cases write <;> simp [failsTransiently, writesNothing, writing]
      | true =>
          cases write with
          | failed errno =>
              have transient : errno.transient = true := by
                simpa [givesCause, writing] using noCause
              simp [failsTransiently, writing, transient, Call.asks, Call.closes]
          | accepted count =>
              by_cases none : count = 0
              · simp [failsTransiently, writesNothing, writing, none, Call.asks, Call.closes]
              · simp only [Bool.true_eq_false, if_false, none, failsTransiently, writesNothing,
                  writing]
                split
                · simp [none]
                · simp [none]
  | send message write =>
      simp only [execute, send]
      split
      · rfl
      · rfl
  | sendInLoop | shutdown | retrieveInput | removeChannel | closeCallback | userCode => rfl

theorem execute_closesWithoutCause (platform : Platform) (ctl : Bool) {call : Call}
    (fails : (endpoint.failsTransiently call || endpoint.writesNothing call) = true) :
    (endpoint.execute platform ctl call).calls.any Call.closes = true ∧
      endpoint.givesCause ctl call = false := by
  cases call with
  | handleRead read =>
      cases read with
      | failed errno =>
          have transient : errno.transient = true := by
            simpa [failsTransiently, writesNothing] using fails
          simp [execute, handleRead, Buffer.readFd_count, ReadResult.count, givesCause, transient,
            Call.closes]
      | received | endOfStream => cases fails
  | handleWrite write =>
      cases write with
      | failed errno =>
          have both : endpoint.channel.isWriting = true ∧ errno.transient = true := by
            simpa [failsTransiently, writesNothing] using fails
          simp [execute, handleWrite, givesCause, both.1, both.2, Call.closes]
      | accepted count =>
          have both : endpoint.channel.isWriting = true ∧ count = 0 := by
            simpa [failsTransiently, writesNothing] using fails
          simp [execute, handleWrite, givesCause, both.1, both.2, Call.closes]
  | _ => cases fails

theorem unchanged_afterHandler_iff (platform : Platform) (ctl : Bool) {call : Call}
    (fails : endpoint.failsTransiently call = true) :
    Unchanged endpoint (endpoint.afterHandler platform ctl call) ↔
      endpoint.state = .kDisconnected := by
  have closed : Unchanged endpoint (endpoint.handleClose ctl).endpoint ↔
      endpoint.state = .kDisconnected := by
    rw [handleClose]
    split
    · next gone => simp [Unchanged, gone]
    · next alive =>
      constructor
      · intro unchanged
        exact unchanged.1.symm
      · intro gone
        exact absurd gone alive
  have handler : endpoint.afterHandler platform ctl call = (endpoint.handleClose ctl).endpoint := by
    cases call with
    | handleRead read =>
        cases read with
        | failed errno => rfl
        | received | endOfStream => cases fails
    | handleWrite write =>
        cases write with
        | failed errno =>
            have writing : endpoint.channel.isWriting = true := by
              simp only [failsTransiently, Bool.and_eq_true] at fails
              exact fails.1
            simp [afterHandler, execute, handleWrite, writing, Call.closes]
        | accepted count => cases fails
    | _ => cases fails
  rw [handler, closed]

end Endpoint

/-- A connection, whether there has been a cause to close it, and whether each read and write
that failed with a transient error has left it unchanged. -/
structure WatchedConnection where
  config : Config
  caused : Bool
  orderly : Bool

namespace WatchedConnection

def create (endpoint : Endpoint) : WatchedConnection := ⟨.create endpoint, false, true⟩

def executed (platform : Platform) (watched : WatchedConnection) (next : Config) (ctl : Bool)
    (call : Call) : WatchedConnection :=
  let endpoint := watched.config.endpoint
  { config := next
    caused := watched.caused || endpoint.givesCause ctl call
    orderly := watched.orderly && (!endpoint.failsTransiently call ||
      decide (endpoint.Unchanged (endpoint.afterHandler platform ctl call))) }

/-- A `forceCloseInLoop` from outside was posted by a `forceClose` on another thread. -/
def step (platform : Platform) (watched : WatchedConnection) (label : Label) :
    Option WatchedConnection :=
  (watched.config.step platform label).map fun next =>
    match label, watched.config.stack with
    | .enter call, _ =>
        { watched with config := next, caused := watched.caused || call == .forceCloseInLoop }
    | .advance ctl, call :: _ => watched.executed platform next ctl call
    | _, _ => { watched with config := next }

/-- `handleClose` is only reached if there was a cause, and transient errors change nothing. -/
def ClosesForCause (watched : WatchedConnection) : Prop :=
  (watched.caused = false → watched.config.stack.any Call.closes = false) ∧
    watched.orderly = true

/-- A handler's read or write only fails with a transient error on a connection that was closed
for a cause, and a write that accepts nothing comes after a cause. -/
def NoTransientFailure (watched : WatchedConnection) : Label → Prop
  | .advance _ => ∀ call ∈ watched.config.stack.head?,
      (watched.config.endpoint.failsTransiently call = true →
        watched.config.endpoint.state = .kDisconnected ∧ watched.caused = true) ∧
      (watched.config.endpoint.writesNothing call = true → watched.caused = true)
  | _ => True

/-- Without a cause nothing on the way closes the connection. -/
def Accounted (watched : WatchedConnection) : Prop :=
  (watched.caused = false → watched.config.stack.any Call.asks = false ∧
    watched.config.endpoint.closeAsked = false) ∧ watched.orderly = true

theorem closes_of_asks {calls : List Call} (none : calls.any Call.asks = false) :
    calls.any Call.closes = false := by
  rw [List.any_eq_false] at none ⊢
  intro call member closes
  apply none call member
  cases call with
  | handleClose | handleError => rfl
  | _ => cases closes

theorem Accounted.closesForCause {watched : WatchedConnection} (accounted : watched.Accounted) :
    watched.ClosesForCause :=
  ⟨fun uncaused => closes_of_asks (accounted.1 uncaused).1, accounted.2⟩

theorem asks_of_entry {endpoint : Endpoint} {call : Call} (entry : call.isEntry endpoint = true)
    (other : call ≠ .forceCloseInLoop) : call.asks = false := by
  cases call with
  | forceCloseInLoop => exact absurd rfl other
  | handleClose | handleError => cases entry
  | _ => rfl

theorem asks_of_functor {functor : Functor} (other : functor ≠ .forceCloseInLoop) :
    functor.calls.any Call.asks = false := by
  cases functor with
  | forceCloseInLoop => exact absurd rfl other
  | writeCompleteCallback | highWaterMarkCallback => rfl

section Executed

variable {platform : Platform} {watched : WatchedConnection} {call : Call} {rest : List Call}

/-- A call that does not fail transiently, or only behind a cause, asks for nothing without a
cause. -/
theorem Accounted.executed (accounted : watched.Accounted)
    (stack : watched.config.stack = call :: rest) {ctl : Bool}
    (calm : watched.NoTransientFailure (.advance ctl)) :
    (watched.executed platform (watched.config.advance platform ctl call rest) ctl call).Accounted
    := by
  rcases calm call (by rw [stack]; rfl) with ⟨transient, nothing⟩
  constructor
  · intro uncaused
    rcases Bool.or_eq_false_iff.mp uncaused with ⟨before, noCause⟩
    rcases accounted.1 before with ⟨quiet, notAsked⟩
    rw [stack, List.any_cons, Bool.or_eq_false_iff] at quiet
    have noFailure : (watched.config.endpoint.failsTransiently call ||
        watched.config.endpoint.writesNothing call) = false := by
      rw [Bool.or_eq_false_iff]
      constructor
      · by_contra fails
        have caused := (transient (by simpa using fails)).2
        rw [before] at caused
        cases caused
      · by_contra fails
        have caused := nothing (by simpa using fails)
        rw [before] at caused
        cases caused
    have handed := watched.config.endpoint.execute_asks platform ctl quiet.1 noCause
    have other : call ≠ .forceClose := by
      rintro rfl
      cases noCause
    constructor
    · change (_ ++ rest).any Call.asks = false
      rw [List.any_append, handed, noFailure, quiet.2]
      rfl
    · exact (watched.config.endpoint.execute_closeAsked platform ctl other).trans notAsked
  · change (watched.orderly && _) = true
    rw [accounted.2, Bool.true_and]
    cases fails : watched.config.endpoint.failsTransiently call with
    | false => rfl
    | true =>
        have unmoved := (watched.config.endpoint.unchanged_afterHandler_iff platform ctl fails).mpr
          (transient fails).1
        simpa using unmoved

theorem ClosesForCause.calm (stack : watched.config.stack = call :: rest) {ctl : Bool}
    (closesForCause : (watched.executed platform (watched.config.advance platform ctl call rest)
      ctl call).ClosesForCause) : watched.NoTransientFailure (.advance ctl) := by
  rcases closesForCause with ⟨reached, orderly⟩
  intro other member
  rw [stack] at member
  cases Option.some.inj member
  have caused (fails : (watched.config.endpoint.failsTransiently call ||
      watched.config.endpoint.writesNothing call) = true) : watched.caused = true := by
    rcases watched.config.endpoint.execute_closesWithoutCause platform ctl fails with
      ⟨closes, noCause⟩
    by_contra before
    have uncaused : (watched.caused || watched.config.endpoint.givesCause ctl call) = false := by
      rw [noCause]
      simpa using before
    have quiet : (_ ++ rest).any Call.closes = false := reached uncaused
    rw [List.any_append, closes] at quiet
    cases quiet
  constructor
  · intro fails
    have kept : (watched.orderly && _) = true := orderly
    rw [fails] at kept
    have unchanged := (Bool.and_eq_true_iff.mp kept).2
    constructor
    · exact (watched.config.endpoint.unchanged_afterHandler_iff platform ctl fails).mp
        (by simpa using unchanged)
    · exact caused (by rw [fails]; rfl)
  · intro nothing
    exact caused (by rw [nothing, Bool.or_true])

end Executed

theorem step_keeps {platform : Platform} {watched next : WatchedConnection} {label : Label}
    (accounted : watched.Accounted) (taken : watched.step platform label = some next) :
    (watched.NoTransientFailure label → next.Accounted) ∧
      (next.ClosesForCause → watched.NoTransientFailure label) := by
  rcases Option.map_eq_some_iff.mp taken with ⟨config, stepped, rfl⟩
  cases label with
  | enter call =>
      simp only [Config.step] at stepped
      split at stepped
      · next allowed =>
        cases stepped
        refine ⟨fun _ => ⟨?_, accounted.2⟩, fun _ => trivial⟩
        intro uncaused
        rcases Bool.or_eq_false_iff.mp uncaused with ⟨before, other⟩
        rcases accounted.1 before with ⟨quiet, notAsked⟩
        refine ⟨?_, notAsked⟩
        rw [List.any_cons, asks_of_entry (Bool.and_eq_true_iff.mp allowed).2 (by simpa using other),
          quiet]
        rfl
      · cases stepped
  | advance ctl =>
      cases stack : watched.config.stack with
      | nil => simp [Config.step, stack] at stepped
      | cons call rest =>
          simp only [Config.step, stack] at stepped
          split at stepped
          · cases stepped
          · cases stepped
            exact ⟨accounted.executed stack, ClosesForCause.calm stack⟩
  | leave =>
      simp only [Config.step] at stepped
      split at stepped
      · next rest stack =>
        cases stepped
        refine ⟨fun _ => ⟨?_, accounted.2⟩, fun _ => trivial⟩
        intro before
        rcases accounted.1 before with ⟨quiet, notAsked⟩
        rw [stack, List.any_cons, Bool.or_eq_false_iff] at quiet
        exact ⟨quiet.2, notAsked⟩
      · cases stepped
  | dispatch =>
      simp only [Config.step] at stepped
      split at stepped
      · next functor others _ pending =>
        cases stepped
        refine ⟨fun _ => ⟨?_, accounted.2⟩, fun _ => trivial⟩
        intro before
        have notAsked := (accounted.1 before).2
        rw [Endpoint.closeAsked, pending, List.contains_cons, Bool.or_eq_false_iff] at notAsked
        refine ⟨asks_of_functor ?_, notAsked.2⟩
        rintro rfl
        cases notAsked.1
      · cases stepped

instance (watched : WatchedConnection) (label : Label) :
    Decidable (watched.NoTransientFailure label) :=
  match label with
  | .advance _ => by
      unfold NoTransientFailure
      infer_instance
  | .enter _ | .leave | .dispatch => isTrue trivial

/-- A direct write that fails with a transient error has the effect of no write. In every run on a
new connection, `handleClose` is only reached for a cause and the transient errors of handlers
leave the connection unchanged, exactly if no handler meets a transient error or a write of
nothing, but for what comes after the connection was closed for a cause. -/
theorem closesForCause_iff (platform : Platform) {endpoint : Endpoint}
    (fresh : endpoint.pendingFunctors = []) {labels : List Label} {last : WatchedConnection}
    (run : runPartial (step platform) (create endpoint) labels = some last) :
    (∀ (other : Endpoint) (errno : Errno) (data : Bytes) (ctl : Bool), errno.transient = true →
        other.state ≠ .kDisconnected →
        other.sendInLoop data (.failed errno) ctl =
          other.queueOutput data ⟨0, data.length, false⟩ ctl) ∧
      (RunHolds (step platform) ClosesForCause (create endpoint) labels ↔
        RunPermits (step platform) NoTransientFailure (create endpoint) labels) := by
  refine ⟨fun other errno data ctl transient alive =>
    other.sendInLoop_transient transient data ctl alive, ?_⟩
  have initial : (create endpoint).Accounted := by
    refine ⟨fun _ => ⟨rfl, ?_⟩, rfl⟩
    simp [create, Config.create, Endpoint.closeAsked, fresh]
  apply runHolds_iff_of_run _ _ initial initial.closesForCause run
  · intro watched label next accounted taken calm
    have after := (step_keeps accounted taken).1 calm
    exact ⟨after, after.closesForCause⟩
  · intro watched label next accounted taken closes
    exact (step_keeps accounted taken).2 closes

/-- A connection is established, and its first event brings `read`. -/
def readingRun (read : ReadResult) : List Label :=
  [.enter .connectEstablished, .advance true, .leave,
    .enter (.handleEvent XPOLLIN read (.accepted 1)), .advance true, .advance true, .advance true]

def newEndpoint : Endpoint := .create 1 5 .empty false false

/-- The peer closes the connection. -/
theorem closesForCause_iff_endOfStream :
    RunHolds (step .posix) ClosesForCause (create newEndpoint) (readingRun .endOfStream) := by
  have checked : (runPartial (fun watched label => if watched.NoTransientFailure label then
      step .posix watched label else none) (create newEndpoint)
      (readingRun .endOfStream)).isSome = true := by decide +kernel
  rcases runPermits_of_checked_run checked with ⟨defined, permitted⟩
  rcases Option.isSome_iff_exists.mp defined with ⟨last, run⟩
  exact (closesForCause_iff .posix rfl run).2.mpr permitted

/-- The read would block, and the connection is closed. -/
theorem spurious_readiness_closes :
    (runPartial (step .posix) (create newEndpoint)
        (readingRun (.failed .EWOULDBLOCK) ++ [.advance true])).map
      (fun last => (last.config.endpoint.state, last.caused, last.orderly)) =
        some (.kDisconnected, false, false) ∧
      ¬ RunHolds (step .posix) ClosesForCause (create newEndpoint)
        (readingRun (.failed .EWOULDBLOCK) ++ [.advance true]) := by
  have closed : (runPartial (step .posix) (create newEndpoint)
        (readingRun (.failed .EWOULDBLOCK) ++ [.advance true])).map
      (fun last => (last.config.endpoint.state, last.caused, last.orderly)) =
        some (.kDisconnected, false, false) := by decide +kernel
  refine ⟨closed, ?_⟩
  intro along
  rcases Option.map_eq_some_iff.mp closed with ⟨last, run, values⟩
  have orderly := (last_of_runHolds along run).2
  cases (congrArg (·.2.2) values).symm.trans orderly

end WatchedConnection

end MyBookSources.Net
