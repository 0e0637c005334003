import MyBookSources.Net.ConnectionLifecycle

/-! # Removing a connection

`connectDestroyed` takes the channel out of the poller's map and leaves no session
without its down callback, unless it runs on a connection that is disconnecting.
-/

namespace MyBookSources.Net

namespace Endpoint

def Tracked (endpoint : Endpoint) : Prop := endpoint.poller.Tracks endpoint.channel

/-- `Poller::hasChannel` for the channel of the connection. -/
def mapped (endpoint : Endpoint) : Bool := endpoint.poller.hasChannel endpoint.channel

structure Watched (endpoint : Endpoint) : Prop where
  reading : endpoint.channel.isReading = true
  added : endpoint.channel.index = kAdded

variable {before after : Endpoint}

theorem mapped_of_added (tracked : before.Tracked) (added : before.channel.index = kAdded) :
    before.poller.channels before.channel.fd = some before.channel.address := by
  rcases tracked with ⟨new, -⟩ | ⟨-, known⟩
  · rw [added] at new
    cases new
  · exact known

theorem Updates.tracked {changed : Channel} {ctl : Bool}
    (updates : before.Updates changed ctl after)
    (tracks : before.poller.Tracks changed) : after.Tracked := by
  rw [Tracked, updates.channel, updates.poller]
  exact EPollPoller.updateChannel_tracks tracks ctl

theorem Updates.events {changed : Channel} {ctl : Bool}
    (updates : before.Updates changed ctl after) : after.channel.events = changed.events := by
  rcases before.poller.updateChannel_channel changed ctl with ⟨index, renewed⟩
  rw [updates.channel, renewed]

theorem KeepsChannel.tracked (keeps : before.KeepsChannel after) (tracked : before.Tracked) :
    after.Tracked := by
  rw [Tracked, keeps.channel, keeps.poller]
  exact tracked

theorem KeepsChannel.watched (keeps : before.KeepsChannel after) (watched : before.Watched) :
    after.Watched :=
  ⟨by rw [keeps.channel]; exact watched.reading, by rw [keeps.channel]; exact watched.added⟩

theorem Updates.watched {changed : Channel} {ctl : Bool}
    (updates : before.Updates changed ctl after) (tracked : before.Tracked)
    (added : before.channel.index = kAdded)
    (same : changed = { before.channel with events := changed.events })
    (reading : changed.isReading = true) : after.Watched := by
  have known := mapped_of_added tracked added
  have changedAdded : changed.index = kAdded := by rw [same]; exact added
  have changedKnown : before.poller.channels changed.fd = some changed.address := by
    rw [same]
    exact known
  have kept := (EPollPoller.updateChannel_of_added changedAdded changedKnown
    (changed.isNoneEvent_of_isReading reading) ctl).1
  exact ⟨by rw [updates.channel, kept]; exact reading,
    by rw [updates.channel, kept]; exact changedAdded⟩

theorem removeChannel_of_enabled (enabled : before.channel.isNoneEvent = false)
    (ctl : Bool) : before.removeChannel ctl = before := by
  simp [removeChannel, enabled]

theorem removeChannel_state (ctl : Bool) : (before.removeChannel ctl).state = before.state := by
  unfold removeChannel
  split <;> rfl

theorem removeChannel_tracked (tracked : before.Tracked) (ctl : Bool) :
    (before.removeChannel ctl).Tracked := by
  unfold removeChannel
  split
  · exact tracked
  · next none =>
    exact (EPollPoller.removeChannel_of_none tracked ((Bool.not_eq_false _).mp none) ctl).2

theorem removeChannel_detaches (tracked : before.Tracked)
    (none : before.channel.isNoneEvent = true) (ctl : Bool) :
    (before.removeChannel ctl).mapped = false := by
  rcases before.poller.removeChannel_channel before.channel ctl with ⟨index, renewed⟩
  have absent := (EPollPoller.removeChannel_of_none tracked none ctl).1
  simp [removeChannel, none, mapped, EPollPoller.hasChannel, renewed, absent]

theorem removeChannel_isNoneEvent (ctl : Bool) :
    (before.removeChannel ctl).channel.isNoneEvent = before.channel.isNoneEvent := by
  rcases before.poller.removeChannel_channel before.channel ctl with ⟨index, renewed⟩
  unfold removeChannel
  split
  · rfl
  · simp [renewed, Channel.isNoneEvent]

theorem removeChannel_new (new : before.channel.index = kNew) (ctl : Bool) :
    (before.removeChannel ctl).channel.index = kNew := by
  unfold removeChannel EPollPoller.removeChannel
  split
  · exact new
  · dsimp only
    split
    · exact new
    · split
      · exact new
      · rfl

end Endpoint

namespace Config

/-- Whether `connectEstablished` has failed to enable reading and is about to close. -/
def Failing (config : Config) : Prop :=
  config.endpoint.state = .kConnected ∧ ∃ rest, config.stack = .handleClose :: rest

/-- The poller's index is right in every state; the channel is unused before the
connection is up, watched while it is, and asks for nothing afterwards. -/
structure Coherent (config : Config) : Prop where
  tracked : config.endpoint.Tracked
  connecting : config.endpoint.state = .kConnecting →
    config.endpoint.channel.isNoneEvent = true ∧ config.endpoint.channel.index = kNew ∧
      ∀ message write, .sendInLoop message write ∉ config.stack
  live : config.endpoint.state = .kConnected ∨ config.endpoint.state = .kDisconnecting →
    config.Failing ∨ config.endpoint.Watched
  ended : config.endpoint.state = .kDisconnected →
    config.endpoint.channel.isNoneEvent = true

end Config

open Config

theorem handleEventWithGuard_not_sendInLoop (revents : Events) (read : ReadResult)
    (write : WriteResult) (message : Bytes) (answer : WriteResult) :
    .sendInLoop message answer ∉ Endpoint.handleEventWithGuard revents read write := by
  simp only [Endpoint.handleEventWithGuard]
  repeat' split
  all_goals simp

/-- What is left to show of a step that neither opens nor closes the connection. -/
structure Preserves (before after : Config) : Prop where
  tracked : before.endpoint.Tracked → after.endpoint.Tracked
  state : after.endpoint.state = before.endpoint.state ∨
    before.endpoint.state = .kConnected ∧ after.endpoint.state = .kDisconnecting
  connecting : before.endpoint.state = .kConnecting →
    before.endpoint.channel.isNoneEvent = true → before.endpoint.channel.index = kNew →
    (∀ message write, .sendInLoop message write ∉ before.stack) →
    after.endpoint.channel.isNoneEvent = true ∧ after.endpoint.channel.index = kNew ∧
      ∀ message write, .sendInLoop message write ∉ after.stack
  failing : ¬ before.Failing
  watched : before.endpoint.Tracked → before.endpoint.Watched → after.endpoint.Watched
  ended : before.endpoint.state = .kDisconnected →
    before.endpoint.channel.isNoneEvent = true → after.endpoint.channel.isNoneEvent = true

theorem Preserves.coherent {before after : Config} (preserves : Preserves before after)
    (coherent : before.Coherent) : after.Coherent := by
  rcases coherent with ⟨tracked, connecting, live, ended⟩
  have state := preserves.state
  refine ⟨preserves.tracked tracked, fun opening => ?_, fun alive => ?_, fun gone => ?_⟩
  · have same : before.endpoint.state = .kConnecting := by
      rcases state with kept | left
      · rw [← kept, opening]
      · rw [left.2] at opening
        cases opening
    rcases connecting same with ⟨none, new, sends⟩
    exact preserves.connecting same none new sends
  · have same : before.endpoint.state = .kConnected ∨
        before.endpoint.state = .kDisconnecting := by
      rcases state with kept | left
      · rw [← kept]
        exact alive
      · exact .inl left.1
    rcases live same with failing | watched
    · exact absurd failing preserves.failing
    · exact .inr (preserves.watched tracked watched)
  · have same : before.endpoint.state = .kDisconnected := by
      rcases state with kept | left
      · rw [← kept, gone]
      · rw [left.2] at gone
        cases gone
    exact preserves.ended same (ended same)

private theorem not_failing {config : Config} {call : Call} {rest : List Call}
    (stack : config.stack = call :: rest) (other : call ≠ .handleClose) :
    ¬ config.Failing := by
  rintro ⟨-, others, top⟩
  rw [stack] at top
  cases top
  exact other rfl

private theorem preserves_of_keeps {before after : Config}
    (kept : before.endpoint.KeepsChannel after.endpoint)
    (state : after.endpoint.state = before.endpoint.state ∨
      before.endpoint.state = .kConnected ∧ after.endpoint.state = .kDisconnecting)
    (sends : before.endpoint.state = .kConnecting → ∀ message write,
      .sendInLoop message write ∈ after.stack → .sendInLoop message write ∈ before.stack)
    (failing : ¬ before.Failing) : Preserves before after where
  tracked := kept.tracked
  state := state
  connecting opening none new absent :=
    ⟨by rw [kept.channel]; exact none, by rw [kept.channel]; exact new,
      fun message write member => absent message write (sends opening message write member)⟩
  failing := failing
  watched _ := kept.watched
  ended _ none := by rw [kept.channel]; exact none

theorem advance_coherent {platform : Platform} {config : Config} {call : Call}
    {rest : List Call} (coherent : config.Coherent) (stack : config.stack = call :: rest)
    (ctl : Bool) : (config.advance platform ctl call rest).Coherent := by
  have change := config.endpoint.execute_change platform ctl call
  unfold Config.advance
  generalize config.endpoint.execute platform ctl call = outcome at change ⊢
  cases change with
  | event revents read write =>
      refine Preserves.coherent ?_ coherent
      exact
        { tracked := id
          state := .inl rfl
          connecting := fun _ none new absent => ⟨none, new, fun message answer member => by
            rcases List.mem_append.mp member with lined | other
            · exact handleEventWithGuard_not_sendInLoop revents read write message answer lined
            · exact absent message answer (by rw [stack]; exact .tail _ other)⟩
          failing := not_failing stack (by simp)
          watched := fun _ watched => ⟨watched.reading, watched.added⟩
          ended := fun _ none => none }
  | message data after kept state =>
      refine (preserves_of_keeps kept (.inl state) (fun _ message write member => ?_)
        (not_failing stack (by simp))).coherent coherent
      rw [stack]
      simpa using member
  | quiet _ after calls kept state handed closing =>
      have failing : ¬ config.Failing := by
        by_cases close : call = .handleClose
        · rintro ⟨connected, -⟩
          rw [closing close] at connected
          cases connected
        · exact not_failing stack close
      refine (preserves_of_keeps kept state (fun opening message write member => ?_)
        failing).coherent coherent
      rw [stack]
      rcases List.mem_append.mp member with lined | other
      · cases handed _ lined with
        | sendInLoop message write connected =>
            rw [connected] at opening
            cases opening
      · exact .tail _ other
  | queued message write after updated state alive =>
      refine Preserves.coherent ?_ coherent
      exact
        { tracked := fun tracked => updated.tracked tracked
          state := .inl state
          connecting := fun _ _ _ absent => absurd (by rw [stack]; exact .head _)
            (absent message write)
          failing := not_failing stack (by simp)
          watched := fun tracked watched =>
            updated.watched tracked watched.added rfl (by simpa using watched.reading)
          ended := fun gone => absurd gone alive }
  | drained write after writing updated state =>
      have notNone : config.endpoint.channel.isNoneEvent ≠ true := fun none => by
        have empty : config.endpoint.channel.events = 0 := by
          simpa [Channel.isNoneEvent, Channel.kNoneEvent] using none
        simp [Channel.isWriting, Events.has, empty] at writing
      refine Preserves.coherent ?_ coherent
      exact
        { tracked := fun tracked => updated.tracked tracked
          state := .inl state
          connecting := fun _ none _ _ => absurd none notNone
          failing := not_failing stack (by simp)
          watched := fun tracked watched =>
            updated.watched tracked watched.added rfl (by simpa using watched.reading)
          ended := fun _ none => absurd none notNone }
  | removed =>
      refine Preserves.coherent ?_ coherent
      exact
        { tracked := fun tracked => Endpoint.removeChannel_tracked tracked ctl
          state := .inl (Endpoint.removeChannel_state ctl)
          connecting := fun _ none new absent =>
            ⟨(Endpoint.removeChannel_isNoneEvent ctl).trans none,
              Endpoint.removeChannel_new new ctl,
              fun message write member =>
                absent message write (by rw [stack]; exact .tail _ member)⟩
          failing := not_failing stack (by simp)
          watched := fun _ watched => by
            dsimp only
            rw [Endpoint.removeChannel_of_enabled
              (Channel.isNoneEvent_of_isReading _ watched.reading)]
            exact watched
          ended := fun _ none => (Endpoint.removeChannel_isNoneEvent ctl).trans none }
  | opened after opening connected updated answer =>
      rcases coherent with ⟨tracked, connecting, live, ended⟩
      rcases connecting opening with ⟨none, new, absent⟩
      have renewed : config.endpoint.channel.withReading.index = kNew := new
      have accepted := (EPollPoller.updateChannel_of_new renewed answer).1
      have watched : after.Watched := by
        constructor
        · rw [updated.channel, accepted]
          exact Channel.isReading_withReading _
        · rw [updated.channel, accepted]
      exact
        { tracked := updated.tracked tracked
          connecting := fun other => by rw [connected] at other; cases other
          live := fun _ => .inr watched
          ended := fun other => by rw [connected] at other; cases other }
  | openingFailed after opening connected updated =>
      exact
        { tracked := updated.tracked coherent.tracked
          connecting := fun other => by rw [connected] at other; cases other
          live := fun _ => .inl ⟨connected, rest, rfl⟩
          ended := fun other => by rw [connected] at other; cases other }
  | closed _ after last alive disconnected updated origin =>
      exact
        { tracked := updated.tracked coherent.tracked
          connecting := fun other => by rw [disconnected] at other; cases other
          live := fun other => by rw [disconnected] at other; simp at other
          ended := fun _ => by simp [Channel.isNoneEvent, updated.events, Channel.withoutAll] }
  | closeDelivered =>
      refine Preserves.coherent ?_ coherent
      refine preserves_of_keeps (Endpoint.KeepsChannel.refl _) (.inl rfl)
        (fun _ message write member => ?_) (not_failing stack (by simp))
      rw [stack]
      simpa using member

theorem isEntry_sendInLoop {endpoint : Endpoint} {message : Bytes} {write : WriteResult}
    (entry : (Call.sendInLoop message write).isEntry endpoint = true) :
    endpoint.state ≠ .kConnecting := by
  simpa [Call.isEntry] using entry

/-- One step of the loop thread keeps channel and poller coherent. -/
theorem step_coherent {platform : Platform} {before after : Config} {label : Label}
    (coherent : before.Coherent) (moves : before.Moves platform label after) : after.Coherent := by
  cases moves with
  | advance ctl call rest stack running => exact advance_coherent coherent stack ctl
  | enter call idle entry =>
      have failing : ¬ before.Failing := by
        rintro ⟨-, others, top⟩
        simp [isOpen, top] at idle
      refine Preserves.coherent ?_ coherent
      refine preserves_of_keeps (Endpoint.KeepsChannel.refl _) (.inl rfl)
        (fun opening message write member => ?_) failing
      rcases List.mem_cons.mp member with entered | other
      · rw [← entered] at entry
        exact absurd opening (isEntry_sendInLoop entry)
      · exact other
  | leave rest stack =>
      refine Preserves.coherent ?_ coherent
      refine preserves_of_keeps (Endpoint.KeepsChannel.refl _) (.inl rfl)
        (fun _ message write member => ?_) (not_failing stack (by simp))
      rw [stack]
      exact .tail _ member
  | dispatch functor others stack =>
      have failing : ¬ before.Failing := by
        rintro ⟨-, others, top⟩
        rw [stack] at top
        cases top
      refine Preserves.coherent ?_ coherent
      refine preserves_of_keeps ⟨rfl, rfl⟩ (.inl rfl) (fun _ message write member => ?_)
        failing
      cases functor <;> simp [Functor.calls] at member

theorem create_coherent {address : Nat} {fd : Int} {poller : EPollPoller}
    (unknown : poller.channels fd ≠ some address) (writeComplete highWaterMark : Bool) :
    (Config.create (.create address fd poller writeComplete highWaterMark)).Coherent where
  tracked := .inl ⟨rfl, unknown⟩
  connecting _ := ⟨rfl, rfl, fun _ _ member => by cases member⟩
  live alive := by rcases alive with connected | disconnecting <;> contradiction
  ended gone := by cases gone

/-- A run from `start`, where a call stands on top of `rest`, up to the return of that
call. -/
def Returns (platform : Platform) (start finish : Config) (rest : List Call) : Prop :=
  ((connectionMachine platform).restrict fun config _ =>
    rest.length < config.stack.length).Reaches start finish ∧ finish.stack = rest

/-- The channel is out of the map, and nobody who was told up has not been told down. -/
def Detached (config : Config) : Prop :=
  config.endpoint.mapped = false ∧ (0 < config.ups → 0 < config.downs)

section Destroying

variable {platform : Platform} {start finish : Config} {rest : List Call}

/-- How far `connectDestroyed` has come, when it runs on a connection that is not
disconnecting. Callbacks nest only once the connection is disconnected. -/
private inductive Detaching (start : Config) (rest : List Call) : Config → Prop
  | calling : Detaching start rest start
  | removing (config : Config) (above : List Call) :
      config.stack = above ++ .removeChannel :: rest → (above = [] ∨ config.Disconnected) →
      config.endpoint.channel.isNoneEvent = true → (0 < config.ups → 0 < config.downs) →
      Detaching start rest config
  | returned (config : Config) : config.stack = rest → Detached config →
      Detaching start rest config

private theorem detaching_call (lifecycle : start.Lifecycle) (coherent : start.Coherent)
    (settled : start.endpoint.state ≠ .kDisconnecting) {ctl : Bool}
    (coherentAfter : (start.advance platform ctl .connectDestroyed rest).Coherent)
    (lifecycleAfter : (start.advance platform ctl .connectDestroyed rest).Lifecycle) :
    Detaching start rest (start.advance platform ctl .connectDestroyed rest) := by
  by_cases connected : start.endpoint.state = .kConnected
  · have gone : (start.advance platform ctl .connectDestroyed rest).Disconnected := by
      simp [Disconnected, Config.advance, Endpoint.execute, Endpoint.connectDestroyed, connected,
        Endpoint.connectionCallback, Endpoint.disableAll, Endpoint.setState]
    refine .removing _ [.userCode] ?_ (.inr gone) (coherentAfter.ended gone) fun _ =>
      lifecycleAfter.downs_ended gone
    simp [Config.advance, Endpoint.execute, Endpoint.connectDestroyed, connected,
      Endpoint.connectionCallback]
  · have unfolded : start.advance platform ctl .connectDestroyed rest =
        { start with stack := .removeChannel :: rest } := by
      simp [Config.advance, Endpoint.execute, Endpoint.connectDestroyed, connected]
    rw [unfolded]
    cases state : start.endpoint.state with
    | kConnected => exact absurd state connected
    | kDisconnecting => exact absurd state settled
    | kConnecting =>
        refine .removing _ [] rfl (.inl rfl) (coherent.connecting state).1 fun up => ?_
        have noUps : start.ups = 0 := lifecycle.ups_connecting state
        exact absurd up (by simp only [Config.ups] at noUps ⊢; omega)
    | kDisconnected =>
        exact .removing _ [] rfl (.inl rfl) (coherent.ended state) fun _ =>
          lifecycle.downs_ended state

private theorem detaching_step {before after : Config} {label : Label} (lifecycle : start.Lifecycle)
    (top : start.stack = .connectDestroyed :: rest)
    (settled : start.endpoint.state ≠ .kDisconnecting)
    (beforeCoherent : before.Coherent) (afterCoherent : after.Coherent)
    (afterLifecycle : after.Lifecycle)
    (inside : rest.length < before.stack.length) (moves : before.Moves platform label after)
    (detaching : Detaching start rest before) : Detaching start rest after := by
  cases detaching with
  | calling =>
      rcases moves.of_running top (by simp) with ⟨ctl, rfl⟩
      exact detaching_call lifecycle beforeCoherent settled afterCoherent afterLifecycle
  | removing _ above stack nested none told =>
      cases above with
      | nil =>
          rcases moves.of_running stack (by simp) with ⟨ctl, rfl⟩
          refine .returned _ rfl
            ⟨Endpoint.removeChannel_detaches beforeCoherent.tracked none ctl, ?_⟩
          simpa [Config.advance, Config.ups, Config.downs, Endpoint.execute] using told
      | cons call above =>
          have gone : before.Disconnected := by simpa using nested
          have afterGone := step_disconnected gone moves
          rcases moves.suffix stack with ⟨pushed, afterStack⟩
          exact .removing _ (pushed ++ above) (by simpa using afterStack) (.inr afterGone)
            (afterCoherent.ended afterGone) fun _ => afterLifecycle.downs_ended afterGone
  | returned _ stack detached =>
      rw [stack] at inside
      exact absurd inside (Nat.lt_irrefl _)

/-- How far `connectDestroyed` has come on a connection that is disconnecting: it
changes nothing. -/
private inductive Stuck (start : Config) (rest : List Call) : Config → Prop
  | calling : Stuck start rest start
  | removing : Stuck start rest { start with stack := .removeChannel :: rest }
  | returned : Stuck start rest { start with stack := rest }

private theorem stuck_step {before after : Config} {label : Label}
    (top : start.stack = .connectDestroyed :: rest)
    (disconnecting : start.endpoint.state = .kDisconnecting)
    (enabled : start.endpoint.channel.isNoneEvent = false)
    (inside : rest.length < before.stack.length) (moves : before.Moves platform label after)
    (stuck : Stuck start rest before) : Stuck start rest after := by
  cases stuck with
  | calling =>
      rcases moves.of_running top (by simp) with ⟨ctl, rfl⟩
      have unfolded : start.advance platform ctl .connectDestroyed rest =
          { start with stack := .removeChannel :: rest } := by
        simp [Config.advance, Endpoint.execute, Endpoint.connectDestroyed, disconnecting]
      rw [unfolded]
      exact .removing
  | removing =>
      rcases moves.of_running rfl (by simp) with ⟨ctl, rfl⟩
      have unfolded : Config.advance { start with stack := .removeChannel :: rest } platform ctl
          .removeChannel rest = { start with stack := rest } := by
        simp [Config.advance, Endpoint.execute, Endpoint.removeChannel_of_enabled enabled]
      rw [unfolded]
      exact .returned
  | returned => exact absurd inside (Nat.lt_irrefl _)

theorem returns_of_not_connected (platform : Platform) (ctl : Bool)
    (top : start.stack = .connectDestroyed :: rest)
    (other : start.endpoint.state ≠ .kConnected) :
    Returns platform start
      (Config.advance { start with stack := .removeChannel :: rest } platform ctl
        .removeChannel rest) rest := by
  have called : start.advance platform ctl .connectDestroyed rest =
      { start with stack := .removeChannel :: rest } := by
    simp [Config.advance, Endpoint.execute, Endpoint.connectDestroyed, other]
  have first : (connectionMachine platform).Step start (.advance ctl)
      { start with stack := .removeChannel :: rest } := by
    change start.step platform (.advance ctl) = _
    simp [Config.step, top, called]
  have second : (connectionMachine platform).Step { start with stack := .removeChannel :: rest }
      (.advance ctl) (Config.advance { start with stack := .removeChannel :: rest } platform ctl
        .removeChannel rest) := by
    change Config.step platform { start with stack := .removeChannel :: rest } (.advance ctl) = _
    simp [Config.step]
  refine ⟨⟨[.advance ctl, .advance ctl], ?_⟩, rfl⟩
  exact .cons ⟨first, by simp [top]⟩ (.cons ⟨second, by simp⟩ (.nil _))

end Destroying

/-- In every reachable state in which `connectDestroyed` runs: after its return the
channel is out of the map and the down callback has followed the up callback exactly
if the connection was not disconnecting. -/
theorem connectDestroyed_detaches_iff (platform : Platform) (address : Nat) (fd : Int)
    (poller : EPollPoller) (unknown : poller.channels fd ≠ some address)
    (writeComplete highWaterMark : Bool) (labels : List Label) (start finish : Config)
    (rest : List Call)
    (run : (connectionMachine platform).Transitions
      (.create (.create address fd poller writeComplete highWaterMark)) labels start)
    (top : start.stack = .connectDestroyed :: rest)
    (returns : Returns platform start finish rest) :
    Detached finish ↔ start.endpoint.state ≠ .kDisconnecting := by
  rcases returns with ⟨⟨inner, within⟩, finished⟩
  have lifecycle := run_lifecycle run
  have coherent : start.Coherent :=
    run.invariant (fun _ _ _ holds taken => step_coherent holds (step_moves taken))
      (create_coherent unknown writeComplete highWaterMark)
  have lengths {above : List Call} {call : Call} : finish.stack ≠ above ++ call :: rest := by
    intro same
    have length := congrArg List.length same
    rw [finished, List.length_append, List.length_cons] at length
    omega
  refine ⟨fun detached disconnecting => ?_, fun settled => ?_⟩
  · have watched : start.endpoint.Watched := by
      rcases coherent.live (.inr disconnecting) with failing | watched
      · rw [failing.1] at disconnecting
        cases disconnecting
      · exact watched
    have enabled := Channel.isNoneEvent_of_isReading _ watched.reading
    have stuck : Stuck start rest finish := by
      refine within.invariant ?_ .calling
      rintro before label after holds ⟨taken, inside⟩
      exact stuck_step top disconnecting enabled inside (step_moves taken) holds
    cases stuck with
    | calling => exact lengths (top.trans (List.nil_append _).symm)
    | removing => exact absurd finished (by simp)
    | returned =>
        have known := Endpoint.mapped_of_added coherent.tracked watched.added
        have mapped := detached.1
        simp [Endpoint.mapped, EPollPoller.hasChannel, known] at mapped
  · have detaching : Detaching start rest finish := by
      have kept (before : Config) (label : Label) (after : Config)
          (known : before.Lifecycle ∧ before.Coherent)
          (taken : ((connectionMachine platform).restrict fun config _ =>
            rest.length < config.stack.length).Step before label after) :
          after.Lifecycle ∧ after.Coherent :=
        have moves := step_moves taken.1
        ⟨step_lifecycle known.1 moves, step_coherent known.2 moves⟩
      refine within.invariant_of_invariant kept ?_ ⟨lifecycle, coherent⟩ .calling
      rintro before label after known knownAfter holds ⟨taken, inside⟩
      exact detaching_step lifecycle top settled known.2 knownAfter.2 knownAfter.1 inside
        (step_moves taken) holds
    cases detaching with
    | calling => exact absurd (top.trans (List.nil_append _).symm) lengths
    | removing _ above stack nested none told => exact absurd stack lengths
    | returned _ stack detached => exact detached

/-- An established connection that is destroyed is out of the map, and has been told down. -/
theorem connectDestroyed_detaches_iff_established : ∃ start finish : Config,
    start.endpoint.state = .kConnected ∧ start.endpoint.mapped = true ∧ 0 < start.ups ∧
      Returns .posix start finish [] ∧ Detached finish := by
  have facts : ((Machine.runPartial (Config.step .posix)
      (.create (.create 1 5 .empty false false))
      [.enter .connectEstablished, .advance true, .leave, .enter .connectDestroyed]).bind
        fun start => (Machine.runPartial (fun config label =>
          if 0 < config.stack.length then Config.step .posix config label else none) start
          [.advance true, .leave, .advance true]).map fun finish => (start.stack,
            start.endpoint.state, start.endpoint.mapped, start.ups, finish.stack)) =
      some ([.connectDestroyed], .kConnected, true, 1, []) := by decide +kernel
  rcases Option.bind_eq_some_iff.mp facts with ⟨start, ran, facts⟩
  rcases Option.map_eq_some_iff.mp facts with ⟨finish, returned, facts⟩
  simp only [Prod.mk.injEq] at facts
  rcases facts with ⟨top, state, mapped, told, finished⟩
  have returns : Returns .posix start finish [] :=
    ⟨⟨_, Machine.transitions_of_checked_run returned⟩, finished⟩
  have detached := (connectDestroyed_detaches_iff .posix 1 5 .empty (by simp [EPollPoller.empty])
    false false _ start finish [] (Machine.transitions_of_runPartial ran) top returns).mpr
      (by simp [state])
  exact ⟨start, finish, state, mapped, by omega, returns, detached⟩

/-- A connection that is shut down and then destroyed keeps its channel in the map, and
its down callback is never run. -/
theorem shutdown_then_connectDestroyed_not_detached :
    ¬ ∀ (platform : Platform) (address : Nat) (fd : Int) (poller : EPollPoller),
      poller.channels fd ≠ some address → ∀ (writeComplete highWaterMark : Bool)
        (labels : List Label) (start finish : Config) (rest : List Call),
        (connectionMachine platform).Transitions
          (.create (.create address fd poller writeComplete highWaterMark)) labels start →
        start.stack = .connectDestroyed :: rest →
        Returns platform start finish rest → Detached finish := by
  intro law
  have facts : (Machine.runPartial (Config.step .posix)
      (.create (.create 1 5 .empty false false))
      [.enter .connectEstablished, .advance true, .leave, .enter .shutdown, .advance true,
        .enter .connectDestroyed]).map (fun start => (start.stack, start.endpoint.state,
          (Config.advance { start with stack := [.removeChannel] } .posix true
            .removeChannel []).endpoint.mapped)) =
      some ([.connectDestroyed], .kDisconnecting, true) := by decide +kernel
  rcases Option.map_eq_some_iff.mp facts with ⟨start, ran, facts⟩
  simp only [Prod.mk.injEq] at facts
  rcases facts with ⟨top, state, known⟩
  have detached := law .posix 1 5 .empty (by simp [EPollPoller.empty]) false false _ start _ []
    (Machine.transitions_of_runPartial ran) top
    (returns_of_not_connected .posix true top (by simp [state]))
  rw [detached.1] at known
  cases known

end MyBookSources.Net
