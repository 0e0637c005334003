import MyBookSources.Net.ConnectionLifecycle

/-! # Closing from other threads

`shutdown` and `forceClose` test the state and set it in two steps. On another thread than that
of the loop there can be anything between the two, a whole `handleClose` too. The loop's own calls
are the steps of the connection: `connectEstablished` sets the state, enables reading and delivers
the up callback in one, so that nothing is said of a call that falls between these. A server hands
its connections on in that callback; `TcpClient::disconnect` could make such a call.
-/

namespace MyBookSources.Net

open Machine

/-- The member functions that other threads close a connection with. -/
inductive CloseCall
  | shutdown
  | forceClose
  deriving DecidableEq

def CloseCall.passes : CloseCall → StateE → Bool
  | .shutdown, state => state = .kConnected
  | .forceClose, state => state = .kConnected ∨ state = .kDisconnecting

/-- The loop thread, the calls of other threads that have passed their test, those that have set
the state, those whose functors are posted, and whether the loop thread has disconnected. -/
structure ConcurrentConnection where
  config : Config
  tested : List CloseCall
  set : List CloseCall
  posted : List CloseCall
  disconnected : Bool

/-- `overwritten` is a `setState` of another thread between the test and the `setState` of the call
that the loop thread executes. -/
inductive ConcurrentLabel
  | loop (label : Label)
  | test (call : CloseCall)
  | setState (call : CloseCall)
  | overwritten (call : CloseCall) (ctl : Bool)
  | post (call : CloseCall)
  | runPosted

/-- A `forceCloseInLoop` from outside, for which there is a step of its own. -/
def Label.runsPosted : Label → Bool
  | .enter .forceCloseInLoop => true
  | _ => false

namespace ConcurrentConnection

def create (endpoint : Endpoint) : ConcurrentConnection := ⟨.create endpoint, [], [], [], false⟩

/-- The loop thread goes on to `config`. -/
def moveTo (connection : ConcurrentConnection) (config : Config) : ConcurrentConnection :=
  { connection with
    config := config
    disconnected := connection.disconnected || config.endpoint.state = .kDisconnected }

/-- Another thread's call sets the state, or has set it in vain. -/
def markSet (connection : ConcurrentConnection) (call : CloseCall) : ConcurrentConnection :=
  { connection with tested := connection.tested.erase call, set := call :: connection.set }

def runFunctor (config : Config) : CloseCall → Config
  | .shutdown => { config with endpoint := config.endpoint.shutdownInLoop }
  | .forceClose => { config with stack := .forceCloseInLoop :: config.stack }

def step (platform : Platform) (connection : ConcurrentConnection) :
    ConcurrentLabel → Option ConcurrentConnection
  | .loop label =>
      if label.runsPosted then none
      else (connection.config.step platform label).map connection.moveTo
  | .test call =>
      if call.passes connection.config.endpoint.state then
        some { connection with tested := call :: connection.tested }
      else some connection
  | .setState call =>
      if call ∈ connection.tested then
        let endpoint := connection.config.endpoint.setState .kDisconnecting
        some (markSet { connection with config := { connection.config with endpoint := endpoint } }
          call)
      else none
  | .overwritten call ctl =>
      if call ∈ connection.tested then
        (connection.config.step platform (.advance ctl)).bind fun config =>
          if config.endpoint.state = connection.config.endpoint.state then none
          else some ((connection.moveTo config).markSet call)
      else none
  | .post call =>
      if call ∈ connection.set then
        some { connection with
          set := connection.set.erase call, posted := connection.posted ++ [call] }
      else none
  | .runPosted =>
      match connection.config.stack, connection.posted with
      | [], call :: others =>
          some { connection with config := runFunctor connection.config call, posted := others }
      | _, _ => none

/-- A disconnected connection stays so, and down and close are delivered at most once. -/
def StaysDisconnected (connection : ConcurrentConnection) : Prop :=
  (connection.disconnected = true → connection.config.Disconnected) ∧
    connection.config.downs ≤ 1 ∧ connection.config.closes ≤ 1

/-- A call of another thread sets the state while the connection is not disconnected. -/
def SetsInTime (connection : ConcurrentConnection) : ConcurrentLabel → Prop
  | .setState _ => ¬ connection.config.Disconnected
  | _ => True

instance (connection : ConcurrentConnection) (label : ConcurrentLabel) :
    Decidable (connection.SetsInTime label) :=
  match label with
  | .setState _ => inferInstanceAs (Decidable (¬ _ = _))
  | .loop _ | .test _ | .overwritten _ _ | .post _ | .runPosted => isTrue trivial

/-- The loop thread's own account, and what it knows of the state. -/
structure Sound (connection : ConcurrentConnection) : Prop where
  lifecycle : connection.config.Lifecycle
  disconnected : connection.disconnected = true ↔ connection.config.Disconnected

theorem Sound.staysDisconnected {connection : ConcurrentConnection} (sound : connection.Sound) :
    connection.StaysDisconnected := by
  have closes := sound.lifecycle.closes_le
  have downs := sound.lifecycle.downs_le
  exact ⟨sound.disconnected.mp, downs, by omega⟩

theorem lifecycle_of_same {before after : Config} (lifecycle : before.Lifecycle)
    (state : after.endpoint.state = before.endpoint.state) (stack : after.stack = before.stack)
    (log : after.log = before.log) : after.Lifecycle := by
  rcases before with ⟨endpoint, calls, callbacks⟩
  rcases after with ⟨endpointAfter, callsAfter, callbacksAfter⟩
  cases stack
  cases log
  rcases lifecycle with ⟨upsLe, upsConnecting, downsLe, downsAlive, downsEnded, closesLe, ordered⟩
  refine ⟨upsLe, ?_, downsLe, ?_, ?_, closesLe, ordered⟩
  · intro connecting
    exact upsConnecting (state.symm.trans connecting)
  · intro alive
    exact downsAlive (fun ended => alive (state.trans ended))
  · intro ended
    exact downsEnded (state.symm.trans ended)

theorem lifecycle_of_set {config : Config} (lifecycle : config.Lifecycle)
    (alive : ¬ config.Disconnected) :
    { config with endpoint := config.endpoint.setState .kDisconnecting }.Lifecycle := by
  rcases lifecycle with ⟨upsLe, upsConnecting, downsLe, downsAlive, downsEnded, closesLe, ordered⟩
  refine ⟨upsLe, ?_, downsLe, fun _ => downsAlive alive, ?_, closesLe, ordered⟩
  · intro connecting
    cases connecting
  · intro ended
    cases ended

theorem sound_moveTo {platform : Platform} {connection : ConcurrentConnection} {label : Label}
    {config : Config} (sound : connection.Sound)
    (stepped : connection.config.step platform label = some config) :
    (connection.moveTo config).Sound := by
  have moves := Config.step_moves stepped
  refine ⟨step_lifecycle sound.lifecycle moves, ?_⟩
  simp only [moveTo, Bool.or_eq_true, decide_eq_true_eq]
  constructor
  · rintro (before | now)
    · exact step_disconnected (sound.disconnected.mp before) moves
    · exact now
  · exact .inr

theorem sound_runFunctor {connection : ConcurrentConnection} (sound : connection.Sound)
    (call : CloseCall) (others : List CloseCall) :
    Sound { connection with
      config := runFunctor connection.config call, posted := others } := by
  cases call with
  | shutdown =>
      rcases connection.config.endpoint.shutdownInLoop_eq with ⟨shut, closed⟩
      rw [runFunctor, closed]
      exact ⟨lifecycle_of_same sound.lifecycle rfl rfl rfl, sound.disconnected⟩
  | forceClose =>
      rcases sound.lifecycle with
        ⟨upsLe, upsConnecting, downsLe, downsAlive, downsEnded, closesLe, ordered⟩
      refine ⟨⟨upsLe, upsConnecting, downsLe, downsAlive, downsEnded, ?_, ordered⟩,
        sound.disconnected⟩
      have pending : Config.pendingCloses { connection.config with
          stack := .forceCloseInLoop :: connection.config.stack } =
          connection.config.pendingCloses :=
        List.count_cons_of_ne (by simp)
      rw [runFunctor, pending]
      exact closesLe

theorem step_sound {platform : Platform} {connection next : ConcurrentConnection}
    {label : ConcurrentLabel} (sound : connection.Sound)
    (taken : connection.step platform label = some next)
    (inTime : connection.SetsInTime label) : next.Sound := by
  cases label with
  | loop label =>
      rw [step] at taken
      split at taken
      · cases taken
      · rcases Option.map_eq_some_iff.mp taken with ⟨config, stepped, rfl⟩
        exact sound_moveTo sound stepped
  | test call =>
      rw [step] at taken
      split at taken
      · cases taken
        exact ⟨sound.lifecycle, sound.disconnected⟩
      · cases taken
        exact sound
  | setState call =>
      rw [step] at taken
      split at taken
      · cases taken
        refine ⟨lifecycle_of_set sound.lifecycle inTime, ?_⟩
        constructor
        · intro disconnected
          exact absurd (sound.disconnected.mp disconnected) inTime
        · intro ended
          cases ended
      · cases taken
  | overwritten call ctl =>
      rw [step] at taken
      split at taken
      · rcases Option.bind_eq_some_iff.mp taken with ⟨config, stepped, taken⟩
        split at taken
        · cases taken
        · cases taken
          have moved := sound_moveTo sound stepped
          exact ⟨moved.lifecycle, moved.disconnected⟩
      · cases taken
  | post call =>
      rw [step] at taken
      split at taken
      · cases taken
        exact ⟨sound.lifecycle, sound.disconnected⟩
      · cases taken
  | runPosted =>
      rw [step] at taken
      split at taken
      · next call others _ _ =>
        cases taken
        exact sound_runFunctor sound call others
      · cases taken

/-- A step after which the connection is still disconnected, if it ever was, has set the state
in time. -/
theorem setsInTime_of_stays {platform : Platform} {connection next : ConcurrentConnection}
    {label : ConcurrentLabel} (sound : connection.Sound)
    (taken : connection.step platform label = some next) (stays : next.StaysDisconnected) :
    connection.SetsInTime label := by
  cases label with
  | setState call =>
      rw [step] at taken
      split at taken
      · cases taken
        intro ended
        cases stays.1 (sound.disconnected.mpr ended)
      · cases taken
  | loop | test | overwritten | post | runPosted => exact trivial

/-- In every interleaving of the loop thread with calls of `shutdown` and `forceClose` on other
threads, a disconnected connection stays so and down and close are delivered at most once,
exactly if no call of another thread sets the state of a connection that is disconnected. -/
theorem staysDisconnected_iff (platform : Platform) (address : Nat) (fd : Int)
    (poller : EPollPoller) (writeComplete highWaterMark : Bool) {labels : List ConcurrentLabel}
    {last : ConcurrentConnection}
    (run : runPartial (step platform)
      (create (.create address fd poller writeComplete highWaterMark)) labels = some last) :
    RunHolds (step platform) StaysDisconnected
        (create (.create address fd poller writeComplete highWaterMark)) labels ↔
      RunPermits (step platform) SetsInTime
        (create (.create address fd poller writeComplete highWaterMark)) labels := by
  have initial : (create (.create address fd poller writeComplete highWaterMark)).Sound := by
    refine ⟨create_lifecycle address fd poller writeComplete highWaterMark, ?_⟩
    simp [create, Config.create, Config.Disconnected, Endpoint.create]
  apply runHolds_iff_of_run _ _ initial initial.staysDisconnected run
  · intro connection label next sound taken inTime
    have after := step_sound sound taken inTime
    exact ⟨after, after.staysDisconnected⟩
  · intro connection label next sound taken stays
    exact setsInTime_of_stays sound taken stays

def newConnection : ConcurrentConnection := create (.create 1 5 .empty false false)

/-- The connection is established, and another thread is about to force it closed. -/
def established : List ConcurrentLabel :=
  [.loop (.enter .connectEstablished), .loop (.advance true), .loop .leave, .test .forceClose]

def closedByPeer : List ConcurrentLabel :=
  [.loop (.enter (.handleEvent XPOLLIN .endOfStream (.accepted 1))), .loop (.advance true),
    .loop (.advance true), .loop (.advance true), .loop .leave, .loop (.advance true), .loop .leave]

/-- What the other thread and then the loop thread do for the call. -/
def forcedClosed : List ConcurrentLabel :=
  [.setState .forceClose, .post .forceClose, .runPosted, .loop (.advance true),
    .loop (.advance true), .loop .leave, .loop (.advance true), .loop .leave]

theorem staysDisconnected_iff_forced :
    RunHolds (step .posix) StaysDisconnected newConnection (established ++ forcedClosed) := by
  have checked : (runPartial (fun connection label => if connection.SetsInTime label then
      step .posix connection label else none) newConnection
      (established ++ forcedClosed)).isSome = true := by decide +kernel
  rcases runPermits_of_checked_run checked with ⟨defined, permitted⟩
  rcases Option.isSome_iff_exists.mp defined with ⟨last, run⟩
  exact (staysDisconnected_iff .posix 1 5 .empty false false run).mpr permitted

/-- The peer's close comes between the test and the write of `forceClose`: down and close are
delivered twice. -/
theorem late_write_revives :
    (runPartial (step .posix) newConnection (established ++ closedByPeer ++ forcedClosed)).map
      (fun last => last.config.log) = some [.connectionCallback true, .connectionCallback false,
        .closeCallback, .connectionCallback false, .closeCallback] ∧
      ¬ RunHolds (step .posix) StaysDisconnected newConnection
        (established ++ closedByPeer ++ forcedClosed) := by
  have logged : (runPartial (step .posix) newConnection
        (established ++ closedByPeer ++ forcedClosed)).map
      (fun last => last.config.log) = some [.connectionCallback true, .connectionCallback false,
        .closeCallback, .connectionCallback false, .closeCallback] := by decide +kernel
  refine ⟨logged, ?_⟩
  intro along
  rcases Option.map_eq_some_iff.mp logged with ⟨last, run, log⟩
  have downs := (last_of_runHolds along run).2.1
  rw [Config.downs, log] at downs
  exact absurd downs (by decide)

end ConcurrentConnection

end MyBookSources.Net
