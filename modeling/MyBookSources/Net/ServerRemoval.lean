import MyBookSources.Net.ConnectionLifecycle
import MyBookSources.Net.TcpServer

/-! # Removal of connections

Who posts `connectDestroyed` for a connection: `stop` for those it finds in
`connections_`, `removeConnectionInLoop` for those that closed by themselves. Both
come to the same map, so each connection has one standing in it at a time.
-/

namespace MyBookSources.Net

def Call.isQuiet : Call → Bool
  | .connectDestroyed => true
  | .send _ _ => true
  | .sendInLoop _ _ => true
  | .shutdown => true
  | .forceClose => true
  | .retrieveInput _ => true
  | .removeChannel => true
  | .userCode => true
  | _ => false

theorem Call.isQuiet_of_isPublic {call : Call} (public_call : call.isPublic = true) :
    call.isQuiet = true := by
  cases call with
  | send message write => rfl
  | shutdown => rfl
  | forceClose => rfl
  | retrieveInput len => rfl
  | _ => cases public_call

namespace Config

def Quiet (config : Config) : Prop := ∀ call ∈ config.stack, call.isQuiet = true

end Config

theorem Endpoint.execute_quiet (endpoint : Endpoint) (platform : Platform) (ctl : Bool)
    {call : Call} (quiet : call.isQuiet = true) :
    ∀ next ∈ (endpoint.execute platform ctl call).calls, next.isQuiet = true := by
  intro next member
  cases call with
  | connectDestroyed =>
      simp only [execute, connectDestroyed] at member
      split at member
      · simp only [connectionCallback, List.mem_cons, List.not_mem_nil, or_false] at member
        rcases member with rfl | rfl
        · rfl
        · rfl
      · rw [List.mem_singleton.mp member]
        rfl
  | send message write =>
      simp only [execute, send] at member
      split at member
      · rw [List.mem_singleton.mp member]
        rfl
      · cases member
  | sendInLoop message write => cases member
  | shutdown => cases member
  | forceClose => cases member
  | retrieveInput len => cases member
  | removeChannel => cases member
  | userCode => cases member
  | _ => cases quiet

theorem Endpoint.execute_closes (endpoint : Endpoint) (platform : Platform) (ctl : Bool)
    {call : Call} (other : call ≠ .closeCallback) :
    (endpoint.execute platform ctl call).delivered.count .closeCallback = 0 := by
  have change := endpoint.execute_change platform ctl call
  generalize endpoint.execute platform ctl call = outcome at change ⊢
  cases change with
  | closeDelivered => exact absurd rfl other
  | _ => simp

namespace Config

variable {platform : Platform} {before after : Config} {label : Label}

theorem Moves.quiet (moves : before.Moves platform label after) (quiet : before.Quiet)
    (entered : ∀ call, label = .enter call → call.isQuiet = true)
    (other : label ≠ .dispatch) : after.Quiet := by
  cases moves with
  | enter call idle entry =>
      intro next member
      rcases List.mem_cons.mp member with rfl | below
      · exact entered _ rfl
      · exact quiet next below
  | advance ctl call rest stack running =>
      intro next member
      rcases List.mem_append.mp member with handed | below
      · apply before.endpoint.execute_quiet platform ctl _ next handed
        apply quiet
        rw [stack]
        exact List.mem_cons_self
      · apply quiet
        rw [stack]
        exact List.mem_cons_of_mem _ below
  | leave rest stack =>
      intro next member
      apply quiet
      rw [stack]
      exact List.mem_cons_of_mem _ member
  | dispatch functor others stack => exact absurd rfl other

theorem Moves.closes (moves : before.Moves platform label after)
    (other : ∀ ctl, label = .advance ctl → before.stack.head? ≠ some .closeCallback) :
    after.closes = before.closes := by
  cases moves with
  | advance ctl call rest stack running =>
      have notClose : call ≠ .closeCallback := by
        intro same
        apply other ctl rfl
        rw [stack, same]
        rfl
      have none := before.endpoint.execute_closes platform ctl notClose
      simp [Config.closes, Config.advance, none]
  | _ => rfl

theorem Moves.delivers (moves : before.Moves platform (.advance true) after)
    (top : before.stack.head? = some .closeCallback) :
    ∃ rest, before.stack = .closeCallback :: rest ∧ after.stack = .userCode :: rest ∧
      after.closes = before.closes + 1 := by
  cases moves with
  | advance ctl call rest stack running =>
      rw [stack] at top
      cases Option.some.inj top
      apply Exists.intro rest
      constructor
      · exact stack
      · constructor
        · rfl
        · simp [Config.closes, Config.advance, Endpoint.execute]

theorem Lifecycle.closes_le_one (lifecycle : before.Lifecycle) : before.closes ≤ 1 := by
  have paid := lifecycle.closes_le
  have once := lifecycle.downs_le
  omega

end Config

namespace TcpServer

variable (server : TcpServer)

/-- The connection for which the step runs `removeConnectionInLoop`. -/
def removing : ServerLabel → Option Nat
  | .call loop =>
      match (server.loops loop).nextFunctor with
      | some (.removeConnectionInLoop id) => some id
      | _ => none
  | .advance id _ =>
      match server.created id with
      | some connection => if server.closing id && connection.loop == 0 then some id else none
      | none => none
  | _ => none

/-- `stop` has reset the entry of the connection. -/
def isReset (id : Nat) : Bool :=
  match server.created id with
  | some connection => server.connections connection.name == some none
  | none => false

def naming : ServerLabel → Option String
  | .newConnection _ _ _ _ _ => some server.connName
  | _ => none

/-- The condition: no removal runs for a connection whose entry `stop` has reset, and a
new connection finds its name free. -/
def FindsEntries (server : TcpServer) (label : ServerLabel) : Prop :=
  (∀ id ∈ server.removing label, server.isReset id = false) ∧
    ∀ name ∈ server.naming label, server.connections name = none

instance (server : TcpServer) (label : ServerLabel) : Decidable (server.FindsEntries label) :=
  inferInstanceAs (Decidable ((∀ id ∈ server.removing label, server.isReset id = false) ∧
    ∀ name ∈ server.naming label, server.connections name = none))

/-- The removals of a connection that are under way to the base loop. -/
def removals (id : Nat) : Nat :=
  (server.loops 0).waiting.count (.removeConnectionInLoop id)

def postings (id : Nat) : Nat := (server.posted.map Posting.connection).count id

/-- How the map stands to a connection: it holds the connection, or `stop` has reset the
pointer and posted, or a removal has erased the key and posted. -/
inductive Standing (id : Nat) (entry : Option (Option Nat)) (removals closes postings : Nat) :
    Prop
  | held : entry = some (some id) → postings = 0 → Standing id entry removals closes postings
  | reset : entry = some none → postings = 1 → Standing id entry removals closes postings
  | removed : entry ≠ some (some id) → removals = 0 → closes = 1 → postings = 1 →
      Standing id entry removals closes postings

/-- Each removal is paid for by a close, and each connection has its standing. -/
structure Accounted : Prop where
  unborn : ∀ id, server.nextConnId ≤ id → server.created id = none
  unknown : ∀ id, server.created id = none → server.removals id = 0 ∧ server.postings id = 0
  lifecycle : ∀ id connection, server.created id = some connection →
    connection.config.Lifecycle
  paid : ∀ id connection, server.created id = some connection →
    server.removals id ≤ connection.config.closes
  standing : ∀ id connection, server.created id = some connection →
    Standing id (server.connections connection.name) (server.removals id)
      connection.config.closes (server.postings id)
  named : ∀ key id, server.connections key = some (some id) →
    ∃ connection, server.created id = some connection ∧ connection.name = key

structure Owed (id : Nat) (connection : ServerConnection) : Prop where
  created : server.created id = some connection
  unpaid : server.removals id < connection.config.closes
  mapped : server.connections connection.name = some (some id) ∧ server.postings id = 0 ∨
    server.connections connection.name = some none ∧ server.postings id = 1

variable {server} {next : TcpServer} {platform : Platform}

theorem create_accounted (name hostport : String) (numThreads : Nat) :
    (create name hostport numThreads).Accounted where
  unborn _ _ := rfl
  unknown _ _ := ⟨rfl, rfl⟩
  lifecycle _ _ here := by cases here
  paid _ _ here := by cases here
  standing _ _ here := by cases here
  named _ _ here := by cases here

theorem created_setConfig {id other : Nat} {connection found : ServerConnection}
    {config : Config}
    (there : (server.setConfig id connection config).created other = some found) :
    other = id ∧ found = { connection with config := config } ∨
      server.created other = some found := by
  simp only [setConfig, Function.update_apply] at there
  split at there
  · next same => exact .inl ⟨same, (Option.some.inj there).symm⟩
  · exact .inr there

theorem created_addConnection {loop id : Nat} {endpoint : Endpoint} {found : ServerConnection}
    (there : (server.addConnection loop endpoint).created id = some found) :
    id = server.nextConnId ∧ found = ⟨server.connName, loop, .create endpoint⟩ ∨
      id ≠ server.nextConnId ∧ server.created id = some found := by
  simp only [addConnection, Function.update_apply] at there
  split at there
  · next same => exact .inl ⟨same, (Option.some.inj there).symm⟩
  · next different => exact .inr ⟨different, there⟩

theorem Accounted.born (accounted : server.Accounted) {id : Nat} {connection : ServerConnection}
    (here : server.created id = some connection) : id < server.nextConnId := by
  apply Nat.lt_of_not_le
  intro unborn
  rw [accounted.unborn id unborn] at here
  cases here

theorem Accounted.postings_le (accounted : server.Accounted) (id : Nat) :
    server.postings id ≤ 1 := by
  cases here : server.created id with
  | none =>
      rw [(accounted.unknown id here).2]
      exact Nat.zero_le 1
  | some connection =>
      cases accounted.standing id connection here with
      | held _ postings => omega
      | reset _ postings => omega
      | removed _ _ _ postings => omega

/-! ## Steps -/

inductive Moves (platform : Platform) (server : TcpServer) : ServerLabel → TcpServer → Prop
  | act {loop : Nat} {action : LoopAction} {state : EventLoop ServerFunctor}
      (free : server.free loop = true) (other : action ≠ .call)
      (acts : (server.loops loop).Acts action state) :
      Moves platform server (.act loop action) (server.setLoop loop state)
  | call {loop : Nat} {functor : ServerFunctor} {functors : List ServerFunctor}
      {next : TcpServer} (free : server.free loop = true)
      (phase : (server.loops loop).phase = .between (functor :: functors))
      (called : (server.setLoop loop
        { server.loops loop with phase := .calling functors }).callFunctor platform loop
          functor = some next) :
      Moves platform server (.call loop) next
  | event {id : Nat} {revents : Events} {read : ReadResult} {write : WriteResult}
      {connection : ServerConnection} {next : TcpServer}
      (here : server.created id = some connection)
      (handling : (server.loops connection.loop).isHandling = true)
      (taken : server.stepConnection platform id (.enter (.handleEvent revents read write)) =
        some next) : Moves platform server (.event id revents read write) next
  | use {id : Nat} {call : Call} {connection : ServerConnection} {next : TcpServer}
      (here : server.created id = some connection) (public_call : call.isPublic = true)
      (runs : server.runsCallbacks connection.loop = true)
      (taken : server.stepConnection platform id (.enter call) = some next) :
      Moves platform server (.use id call) next
  | dispatch {id : Nat} {connection : ServerConnection} {next : TcpServer}
      (here : server.created id = some connection)
      (between : (server.loops connection.loop).isBetween = true)
      (taken : server.stepConnection platform id .dispatch = some next) :
      Moves platform server (.dispatch id) next
  | close {id : Nat} {ctl : Bool} {next : TcpServer} (closing : server.closing id = true)
      (taken : server.close platform id = some next) :
      Moves platform server (.advance id ctl) next
  | advance {id : Nat} {ctl : Bool} {next : TcpServer} (closing : server.closing id = false)
      (taken : server.stepConnection platform id (.advance ctl) = some next) :
      Moves platform server (.advance id ctl) next
  | leave {id : Nat} {next : TcpServer}
      (taken : server.stepConnection platform id .leave = some next) :
      Moves platform server (.leave id) next
  | newConnection {address : Nat} {sockfd : Int} {poller : EPollPoller}
      {writeCompleteCallback highWaterMarkCallback : Bool} {next : TcpServer}
      (free : server.free 0 = true) (handling : (server.loops 0).isHandling = true)
      (taken : server.newConnection platform
        (.create address sockfd poller writeCompleteCallback highWaterMarkCallback) =
          some next) :
      Moves platform server
        (.newConnection address sockfd poller writeCompleteCallback highWaterMarkCallback) next
  | stop (running : server.stopPhase = .running) :
      Moves platform server .stop { server with stopPhase := .walking }
  | stopAgain : Moves platform server .stop server
  | destroy {key : String} {next : TcpServer} (walking : server.stopPhase = .walking)
      (taken : server.destroy platform key = some next) :
      Moves platform server (.destroy key) next
  | endWalk (reset : server.allReset = true) :
      Moves platform server .endWalk { server with stopPhase := server.stopFrom 1 }
  | quitLoop {loop : Nat} (joining : server.stopPhase = .joining loop false) :
      Moves platform server .quitLoop
        { server.setLoop loop (server.loops loop).askToQuit with
          stopPhase := .joining loop true }
  | joinLoop {loop : Nat} (joining : server.stopPhase = .joining loop true)
      (returned : (server.loops loop).hasReturned = true) :
      Moves platform server .joinLoop { server with stopPhase := server.stopFrom (loop + 1) }
  | quitBase : Moves platform server .quitBase (server.setLoop 0 (server.loops 0).askToQuit)

theorem step_moves {label : ServerLabel} (taken : server.step platform label = some next) :
    server.Moves platform label next := by
  cases label with
  | act loop action =>
      simp only [step] at taken
      split at taken
      · next free =>
          rcases Option.map_eq_some_iff.mp taken with ⟨state, acted, rfl⟩
          simp only [Bool.and_eq_true, bne_iff_ne] at free
          exact .act free.1 free.2 (EventLoop.acts_of_act acted)
      · cases taken
  | call loop =>
      simp only [step] at taken
      split at taken
      · next free =>
          split at taken
          · next called functor acted named =>
              cases EventLoop.acts_of_act acted with
              | call first functors phase =>
                  simp only [EventLoop.nextFunctor, phase, Option.some.injEq] at named
                  cases named
                  exact .call free phase taken
          · cases taken
      · cases taken
  | event id revents read write =>
      simp only [step] at taken
      split at taken
      · cases taken
      · next connection here =>
          split at taken
          · next place => exact .event here ((Bool.and_eq_true _ _).mp place).2 taken
          · cases taken
  | use id call =>
      simp only [step] at taken
      split at taken
      · cases taken
      · next connection here =>
          split at taken
          · next place =>
              simp only [Bool.and_eq_true] at place
              exact .use here place.1.1 place.1.2 taken
          · cases taken
  | dispatch id =>
      simp only [step] at taken
      split at taken
      · cases taken
      · next connection here =>
          split at taken
          · next place => exact .dispatch here ((Bool.and_eq_true _ _).mp place).2 taken
          · cases taken
  | advance id ctl =>
      simp only [step] at taken
      split at taken
      · next closing => exact .close closing taken
      · next other => exact .advance ((Bool.not_eq_true _).mp other) taken
  | leave id => exact .leave taken
  | newConnection address sockfd poller writeCompleteCallback highWaterMarkCallback =>
      simp only [step] at taken
      split at taken
      · next place =>
          rcases (Bool.and_eq_true _ _).mp place with ⟨free, handling⟩
          exact .newConnection free handling taken
      · cases taken
  | stop =>
      simp only [step] at taken
      split at taken
      · split at taken
        · next running =>
            cases taken
            exact .stop running
        · cases taken
          exact .stopAgain
      · cases taken
  | destroy key =>
      simp only [step] at taken
      split at taken
      · next walking =>
          split at taken
          · exact .destroy walking taken
          · cases taken
      · cases taken
  | endWalk =>
      simp only [step] at taken
      split at taken
      · split at taken
        · next place =>
            cases taken
            exact .endWalk ((Bool.and_eq_true _ _).mp place).2
        · cases taken
      · cases taken
  | quitLoop =>
      simp only [step] at taken
      split at taken
      · next joining =>
          cases taken
          exact .quitLoop joining
      · cases taken
  | joinLoop =>
      simp only [step] at taken
      split at taken
      · next joining =>
          split at taken
          · next returned =>
              cases taken
              exact .joinLoop joining returned
          · cases taken
      · cases taken
  | quitBase =>
      cases taken
      exact .quitBase

/-! ## What the operations do to the accounts -/

theorem removals_setLoop (loop : Nat) (state : EventLoop ServerFunctor) (id : Nat) :
    (server.setLoop loop state).removals id =
      if loop = 0 then state.waiting.count (.removeConnectionInLoop id)
      else server.removals id := by
  split
  · next base => simp only [removals, setLoop, base, Function.update_self]
  · next other => simp only [removals, setLoop, Function.update_of_ne (Ne.symm other)]

theorem removals_queueInLoop (loop : Nat) (functor : ServerFunctor) (id : Nat) :
    (server.queueInLoop loop functor).removals id =
      server.removals id +
        if loop = 0 ∧ functor = .removeConnectionInLoop id then 1 else 0 := by
  simp only [queueInLoop, removals_setLoop]
  by_cases base : loop = 0
  · by_cases same : functor = .removeConnectionInLoop id
    · simp [base, same, removals]
    · simp [base, same, removals]
  · simp [base]

theorem Accounted.setLoop (accounted : server.Accounted) (loop : Nat)
    (state : EventLoop ServerFunctor)
    (fewer : ∀ id, (server.setLoop loop state).removals id ≤ server.removals id) :
    (server.setLoop loop state).Accounted where
  unborn := accounted.unborn
  unknown id here := by
    rcases accounted.unknown id here with ⟨none, postings⟩
    constructor
    · exact Nat.le_zero.mp (none ▸ fewer id)
    · exact postings
  lifecycle := accounted.lifecycle
  paid id connection here := Nat.le_trans (fewer id) (accounted.paid id connection here)
  standing id connection here := by
    cases accounted.standing id connection here with
    | held mapped postings => exact .held mapped postings
    | reset mapped postings => exact .reset mapped postings
    | removed gone none closes postings =>
        exact .removed gone (Nat.le_zero.mp (none ▸ fewer id)) closes postings
  named := accounted.named

theorem Accounted.setConfig (accounted : server.Accounted) {id : Nat}
    {connection : ServerConnection} {config : Config}
    (here : server.created id = some connection) (lifecycle : config.Lifecycle)
    (closes : connection.config.closes ≤ config.closes) :
    (server.setConfig id connection config).Accounted := by
  constructor
  · intro other unborn
    have missing := accounted.unborn other unborn
    simp only [TcpServer.setConfig, Function.update_apply]
    split
    · next same =>
        rw [same, here] at missing
        cases missing
    · exact missing
  · intro other missing
    apply accounted.unknown other
    simp only [TcpServer.setConfig, Function.update_apply] at missing
    split at missing
    · cases missing
    · exact missing
  · intro other found there
    rcases created_setConfig there with ⟨rfl, rfl⟩ | before
    · exact lifecycle
    · exact accounted.lifecycle other found before
  · intro other found there
    rcases created_setConfig there with ⟨rfl, rfl⟩ | before
    · exact Nat.le_trans (accounted.paid other connection here) closes
    · exact accounted.paid other found before
  · intro other found there
    rcases created_setConfig there with ⟨rfl, rfl⟩ | before
    · cases accounted.standing other connection here with
      | held mapped postings => exact .held mapped postings
      | reset mapped postings => exact .reset mapped postings
      | removed gone none closed postings =>
          have once := lifecycle.closes_le_one
          exact .removed gone none (by dsimp only; omega) postings
    · exact accounted.standing other found before
  · intro key other mapped
    rcases accounted.named key other mapped with ⟨found, there, name⟩
    simp only [TcpServer.setConfig, Function.update_apply]
    split
    · next same =>
        rw [same, here] at there
        cases there
        exact ⟨_, rfl, name⟩
    · exact ⟨found, there, name⟩

theorem Accounted.owed_of_close (accounted : server.Accounted) {id : Nat}
    {connection : ServerConnection} {config : Config}
    (here : server.created id = some connection) (lifecycle : config.Lifecycle)
    (closes : config.closes = connection.config.closes + 1) :
    (server.setConfig id connection config).Owed id { connection with config := config } where
  created := by simp only [TcpServer.setConfig, Function.update_self]
  unpaid := by
    have paid := accounted.paid id connection here
    change server.removals id < config.closes
    omega
  mapped := by
    cases accounted.standing id connection here with
    | held mapped postings => exact .inl ⟨mapped, postings⟩
    | reset mapped postings => exact .inr ⟨mapped, postings⟩
    | removed gone none closed postings =>
        have once := lifecycle.closes_le_one
        omega

theorem Accounted.owed_of_call (accounted : server.Accounted) {id : Nat}
    {functors : List ServerFunctor}
    (phase : (server.loops 0).phase = .between (.removeConnectionInLoop id :: functors)) :
    ∃ connection, (server.setLoop 0
      { server.loops 0 with phase := .calling functors }).Owed id connection := by
  have removals : (server.setLoop 0
      { server.loops 0 with phase := .calling functors }).removals id + 1 =
      server.removals id := by
    rw [removals_setLoop, if_pos rfl]
    rw [TcpServer.removals, EventLoop.waiting_of_call phase, List.count_cons_self]
  cases here : server.created id with
  | none =>
      have none := (accounted.unknown id here).1
      omega
  | some connection =>
      apply Exists.intro connection
      constructor
      · exact here
      · have paid := accounted.paid id connection here
        omega
      · cases accounted.standing id connection here with
        | held mapped postings => exact .inl ⟨mapped, postings⟩
        | reset mapped postings => exact .inr ⟨mapped, postings⟩
        | removed gone none closed postings => omega

theorem Accounted.queueRemoval (accounted : server.Accounted) {id : Nat}
    {connection : ServerConnection} (owed : server.Owed id connection) :
    (server.queueInLoop 0 (.removeConnectionInLoop id)).Accounted := by
  have removals (other : Nat) :
      (server.queueInLoop 0 (.removeConnectionInLoop id)).removals other =
        server.removals other + if other = id then 1 else 0 := by
    simp [removals_queueInLoop, eq_comm]
  have same (found : ServerConnection) (there : server.created id = some found) :
      found = connection := by
    rw [owed.created] at there
    exact (Option.some.inj there).symm
  constructor
  · exact accounted.unborn
  · intro other missing
    rw [removals]
    have different : other ≠ id := by
      intro this
      have created := owed.created
      rw [← this, show server.created other = none from missing] at created
      cases created
    rw [if_neg different]
    exact accounted.unknown other missing
  · exact accounted.lifecycle
  · intro other found there
    rw [removals]
    split
    · next this =>
        rw [this] at there ⊢
        rw [same found there]
        exact owed.unpaid
    · exact accounted.paid other found there
  · intro other found there
    by_cases this : other = id
    · rw [this] at there ⊢
      rw [same found there]
      rcases owed.mapped with ⟨mapped, postings⟩ | ⟨mapped, postings⟩
      · exact .held mapped postings
      · exact .reset mapped postings
    · cases accounted.standing other found there with
      | held mapped postings => exact .held mapped postings
      | reset mapped postings => exact .reset mapped postings
      | removed gone none closed postings =>
          exact .removed gone (by rw [removals, if_neg this]; exact none) closed postings
  · exact accounted.named

/-- The entry of `key` is changed and a connection is posted for. -/
def settle (server : TcpServer) (key : String) (entry : Option (Option Nat))
    (loops : Nat → EventLoop ServerFunctor) (posting : Posting) : TcpServer :=
  { server with
    connections := Function.update server.connections key entry
    loops := loops
    posted := server.posted ++ [posting] }

theorem postings_settle (key : String) (entry : Option (Option Nat))
    (loops : Nat → EventLoop ServerFunctor) (posting : Posting) (id : Nat) :
    (server.settle key entry loops posting).postings id =
      server.postings id + if posting.connection = id then 1 else 0 := by
  change ((server.posted ++ [posting]).map Posting.connection).count id = _
  rw [List.map_append, List.count_append, List.map_singleton, List.count_singleton]
  simp only [beq_iff_eq]
  rfl

/-- The entry of a connection that was not posted for is reset or erased, and the
connection is posted for. -/
theorem Accounted.settle (accounted : server.Accounted) {id : Nat}
    {connection : ServerConnection} (here : server.created id = some connection)
    (mapped : server.connections connection.name = some (some id))
    (unposted : server.postings id = 0) {entry : Option (Option Nat)}
    {loops : Nat → EventLoop ServerFunctor} {posting : Posting}
    (about : posting.connection = id)
    (removals : ∀ other, (server.settle connection.name entry loops posting).removals other =
      server.removals other)
    (settled : entry = some none ∨
      entry = none ∧ server.removals id = 0 ∧ connection.config.closes = 1) :
    (server.settle connection.name entry loops posting).Accounted := by
  have entry_empty (other : Nat) : entry ≠ some (some other) := by
    rcases settled with reset | erased
    · rw [reset]
      simp
    · rw [erased.1]
      simp
  have postings (other : Nat) :
      (server.settle connection.name entry loops posting).postings other =
        server.postings other + if id = other then 1 else 0 := by
    rw [postings_settle, about]
  have at_key : (server.settle connection.name entry loops posting).connections
      connection.name = entry := Function.update_self ..
  have off_key (key : String) (different : key ≠ connection.name) :
      (server.settle connection.name entry loops posting).connections key =
        server.connections key := Function.update_of_ne different ..
  constructor
  · exact accounted.unborn
  · intro other missing
    have different : id ≠ other := by
      intro this
      rw [this, show server.created other = none from missing] at here
      cases here
    rw [removals, postings, if_neg different]
    exact accounted.unknown other missing
  · exact accounted.lifecycle
  · intro other found there
    rw [removals]
    exact accounted.paid other found there
  · intro other found there
    by_cases this : id = other
    · rw [this, show server.created other = some found from there] at here
      cases here
      have once := postings other
      rw [if_pos this, ← this, unposted] at once
      rcases settled with reset | ⟨erased, none, closed⟩
      · exact .reset (at_key.trans reset) (this ▸ once)
      · apply Standing.removed
        · rw [at_key]
          exact entry_empty other
        · rw [removals, ← this]
          exact none
        · exact closed
        · exact this ▸ once
    · have unchanged := postings other
      rw [if_neg this, Nat.add_zero] at unchanged
      by_cases same : found.name = connection.name
      · cases accounted.standing other found there with
        | held mappedOther _ =>
            rw [same, mapped] at mappedOther
            exact absurd (Option.some.inj (Option.some.inj mappedOther)) this
        | reset mappedOther _ =>
            rw [same, mapped] at mappedOther
            cases mappedOther
        | removed gone none closed posted =>
            apply Standing.removed
            · rw [same, at_key]
              exact entry_empty other
            · exact (removals other).trans none
            · exact closed
            · exact unchanged.trans posted
      · cases accounted.standing other found there with
        | held mappedOther posted =>
            exact .held ((off_key _ same).trans mappedOther) (unchanged.trans posted)
        | reset mappedOther posted =>
            exact .reset ((off_key _ same).trans mappedOther) (unchanged.trans posted)
        | removed gone none closed posted =>
            apply Standing.removed
            · rw [off_key _ same]
              exact gone
            · exact (removals other).trans none
            · exact closed
            · exact unchanged.trans posted
  · intro key other named
    by_cases same : key = connection.name
    · rw [same, at_key] at named
      exact absurd named (entry_empty other)
    · rw [off_key key same] at named
      exact accounted.named key other named

theorem postDestroyed_eq (key : String) (entry : Option (Option Nat)) (id loop : Nat) :
    ({ server with connections := Function.update server.connections key entry } :
      TcpServer).postDestroyed id loop =
      server.settle key entry (server.queueInLoop loop (.connectDestroyed id)).loops
        ⟨id, (server.loops loop).hasReturned⟩ := rfl

theorem removals_settle (key : String) (entry : Option (Option Nat)) (posting : Posting)
    (id loop other : Nat) :
    (server.settle key entry (server.queueInLoop loop (.connectDestroyed id)).loops
      posting).removals other = server.removals other := by
  change (server.queueInLoop loop (.connectDestroyed id)).removals other = _
  simp [removals_queueInLoop]

theorem removeConnectionInLoop_eq {id : Nat} {connection : ServerConnection}
    (here : server.created id = some connection)
    (mapped : server.connections connection.name = some (some id)) :
    server.removeConnectionInLoop id =
      server.settle connection.name none
        (server.queueInLoop connection.loop (.connectDestroyed id)).loops
        ⟨id, (server.loops connection.loop).hasReturned⟩ := by
  simp only [removeConnectionInLoop, here, mapped]
  rfl

theorem Owed.held {id : Nat} {connection : ServerConnection}
    (owed : server.Owed id connection)
    (kept : server.connections connection.name ≠ some none) :
    server.connections connection.name = some (some id) ∧ server.postings id = 0 :=
  owed.mapped.resolve_right fun reset => kept reset.1

theorem Accounted.remove (accounted : server.Accounted) {id : Nat}
    {connection : ServerConnection} (owed : server.Owed id connection)
    (kept : server.connections connection.name ≠ some none) :
    (server.removeConnectionInLoop id).Accounted := by
  rcases owed.held kept with ⟨mapped, unposted⟩
  rw [removeConnectionInLoop_eq owed.created mapped]
  have once := (accounted.lifecycle id connection owed.created).closes_le_one
  have unpaid := owed.unpaid
  apply accounted.settle owed.created mapped unposted rfl
  · exact removals_settle _ _ _ _ _
  · exact .inr ⟨rfl, by omega, by omega⟩

theorem stepConnection_moves {id : Nat} {label : Label}
    (taken : server.stepConnection platform id label = some next) :
    ∃ connection config, server.created id = some connection ∧
      connection.config.Moves platform label config ∧
      next = server.setConfig id connection config := by
  simp only [stepConnection] at taken
  split at taken
  · cases taken
  · next connection here =>
      rcases Option.map_eq_some_iff.mp taken with ⟨config, moved, rfl⟩
      exact ⟨connection, config, here, Config.step_moves moved, rfl⟩

theorem Accounted.stepConnection (accounted : server.Accounted) {id : Nat} {label : Label}
    (taken : server.stepConnection platform id label = some next)
    (other : ∀ ctl, label = .advance ctl → server.closing id = false) : next.Accounted := by
  rcases stepConnection_moves taken with ⟨connection, config, here, moves, rfl⟩
  apply accounted.setConfig here
  · exact step_lifecycle (accounted.lifecycle id connection here) moves
  · apply Nat.le_of_eq
    symm
    apply moves.closes
    intro ctl advances top
    have notClosing := other ctl advances
    simp only [closing, here, top] at notClosing
    cases notClosing

theorem enter_eq {loop id : Nat} {call : Call}
    (taken : server.enter platform loop id call = some next) :
    server.stepConnection platform id (.enter call) = some next ∧
      ∃ connection, server.created id = some connection ∧ connection.loop = loop := by
  simp only [enter] at taken
  split at taken
  · cases taken
  · next connection here =>
      split at taken
      · next same => exact ⟨taken, connection, here, same⟩
      · cases taken

theorem Accounted.enter (accounted : server.Accounted) {loop id : Nat} {call : Call}
    (taken : server.enter platform loop id call = some next) : next.Accounted :=
  accounted.stepConnection (enter_eq taken).1 (fun _ advances => by cases advances)

theorem Accounted.queueOther (accounted : server.Accounted) (loop : Nat)
    {functor : ServerFunctor} (other : ∀ id, functor ≠ .removeConnectionInLoop id) :
    (server.queueInLoop loop functor).Accounted := by
  apply accounted.setLoop
  intro id
  rw [← queueInLoop, removals_queueInLoop, if_neg (fun both => other id both.2)]
  exact Nat.le_refl _

theorem Accounted.add (accounted : server.Accounted) (loop : Nat) {endpoint : Endpoint}
    (lifecycle : (Config.create endpoint).Lifecycle)
    (free : server.connections server.connName = none) :
    (server.addConnection loop endpoint).Accounted := by
  have unborn := accounted.unborn server.nextConnId (Nat.le_refl _)
  rcases accounted.unknown server.nextConnId unborn with ⟨noRemovals, noPostings⟩
  have mapped (key : String) : (server.addConnection loop endpoint).connections key =
      if key = server.connName then some (some server.nextConnId)
      else server.connections key := Function.update_apply ..
  constructor
  · intro id later
    have different : id ≠ server.nextConnId := by
      simp only [addConnection] at later
      omega
    simp only [addConnection, Function.update_of_ne different]
    apply accounted.unborn
    simp only [addConnection] at later
    omega
  · intro id missing
    apply accounted.unknown id
    simp only [addConnection, Function.update_apply] at missing
    split at missing
    · cases missing
    · exact missing
  · intro id found there
    rcases created_addConnection there with ⟨_, rfl⟩ | ⟨_, before⟩
    · exact lifecycle
    · exact accounted.lifecycle id found before
  · intro id found there
    rcases created_addConnection there with ⟨rfl, rfl⟩ | ⟨_, before⟩
    · rw [show (server.addConnection loop endpoint).removals server.nextConnId = 0 from
        noRemovals]
      exact Nat.zero_le _
    · exact accounted.paid id found before
  · intro id found there
    rcases created_addConnection there with ⟨rfl, rfl⟩ | ⟨different, before⟩
    · apply Standing.held
      · rw [mapped, if_pos rfl]
      · exact noPostings
    · have occupied (entry : Option Nat) (here : server.connections found.name = some entry) :
          found.name ≠ server.connName := by
        intro same
        rw [same, free] at here
        cases here
      cases accounted.standing id found before with
      | held here postings =>
          exact .held (by rw [mapped, if_neg (occupied _ here)]; exact here) postings
      | reset here postings =>
          exact .reset (by rw [mapped, if_neg (occupied _ here)]; exact here) postings
      | removed gone none closed postings =>
          refine .removed ?_ none closed postings
          rw [mapped]
          split
          · intro this
            exact different (Option.some.inj (Option.some.inj this)).symm
          · exact gone
  · intro key id here
    rw [mapped] at here
    split at here
    · next same =>
        cases here
        apply Exists.intro ⟨server.connName, loop, .create endpoint⟩
        exact ⟨Function.update_self .., same.symm⟩
    · rcases accounted.named key id here with ⟨found, there, name⟩
      have different : id ≠ server.nextConnId := by
        intro same
        rw [same, unborn] at there
        cases there
      apply Exists.intro found
      exact ⟨(Function.update_of_ne different ..).trans there, name⟩

theorem getNextLoop_eq : ∃ next, server.getNextLoop.2 = { server with next := next } := by
  simp only [getNextLoop]
  split
  · exact ⟨server.next, rfl⟩
  · exact ⟨_, rfl⟩

theorem Accounted.newConnection (accounted : server.Accounted) {endpoint : Endpoint}
    (lifecycle : (Config.create endpoint).Lifecycle)
    (free : server.connections server.connName = none)
    (taken : server.newConnection platform endpoint = some next) : next.Accounted := by
  rcases getNextLoop_eq with ⟨turn, chosen⟩
  simp only [TcpServer.newConnection] at taken
  rw [chosen] at taken
  have before : ({ server with next := turn } : TcpServer).Accounted :=
    ⟨accounted.unborn, accounted.unknown, accounted.lifecycle, accounted.paid,
      accounted.standing, accounted.named⟩
  have added := before.add server.getNextLoop.1 lifecycle free
  simp only [establish] at taken
  split at taken
  · exact added.enter taken
  · cases taken
    exact added.queueOther _ (by simp)

theorem Accounted.unposted (accounted : server.Accounted) {id : Nat}
    {connection : ServerConnection} (here : server.created id = some connection)
    (mapped : server.connections connection.name = some (some id)) : server.postings id = 0 := by
  cases accounted.standing id connection here with
  | held _ postings => exact postings
  | reset other _ =>
      rw [mapped] at other
      cases other
  | removed gone _ _ _ => exact absurd mapped gone

theorem Accounted.destroy_cases (accounted : server.Accounted) {key : String}
    (taken : server.destroy platform key = some next) :
    ∃ id connection, server.created id = some connection ∧ connection.name = key ∧
      server.connections connection.name = some (some id) ∧
      (connection.loop = 0 ∧ (server.settle connection.name (some none) server.loops
          ⟨id, false⟩).enter platform 0 id .connectDestroyed = some next ∨
        connection.loop ≠ 0 ∧ next = server.settle connection.name (some none)
          (server.queueInLoop connection.loop (.connectDestroyed id)).loops
          ⟨id, (server.loops connection.loop).hasReturned⟩) := by
  simp only [destroy] at taken
  split at taken
  · next id mapped =>
      rcases accounted.named key id mapped with ⟨connection, here, rfl⟩
      simp only [here] at taken
      apply Exists.intro id
      apply Exists.intro connection
      refine ⟨here, rfl, mapped, ?_⟩
      split at taken
      · next base => exact .inl ⟨base, taken⟩
      · next other =>
          cases taken
          exact .inr ⟨other, rfl⟩
  · cases taken

theorem Accounted.destroy (accounted : server.Accounted) {key : String}
    (taken : server.destroy platform key = some next) : next.Accounted := by
  rcases accounted.destroy_cases taken with ⟨id, connection, here, _, mapped, entered | posted⟩
  · have unposted := accounted.unposted here mapped
    apply Accounted.enter _ entered.2
    exact accounted.settle here mapped unposted rfl (fun _ => rfl) (.inl rfl)
  · have unposted := accounted.unposted here mapped
    rw [posted.2]
    exact accounted.settle here mapped unposted rfl (removals_settle _ _ _ _ _) (.inl rfl)

theorem Accounted.setStopPhase (accounted : server.Accounted) (stopPhase : StopPhase) :
    ({ server with stopPhase := stopPhase } : TcpServer).Accounted :=
  ⟨accounted.unborn, accounted.unknown, accounted.lifecycle, accounted.paid,
    accounted.standing, accounted.named⟩

theorem close_moves {id : Nat} (taken : server.close platform id = some next)
    (closing : server.closing id = true) :
    ∃ connection config rest, server.created id = some connection ∧
      (connection.config.Lifecycle → config.Lifecycle) ∧
      config.closes = connection.config.closes + 1 ∧
      connection.config.stack = .closeCallback :: rest ∧
      next = (server.setConfig id connection config).removeConnection id := by
  rcases Option.map_eq_some_iff.mp taken with ⟨left, both, rfl⟩
  rcases Option.bind_eq_some_iff.mp both with ⟨delivered, first, second⟩
  rcases stepConnection_moves first with ⟨connection, config, here, moves, rfl⟩
  rcases stepConnection_moves second with ⟨same, last, there, leaves, rfl⟩
  simp only [setConfig, Function.update_self, Option.some.injEq] at there
  cases there
  simp only [TcpServer.closing, here, beq_iff_eq] at closing
  rcases moves.delivers closing with ⟨rest, top, _, closes⟩
  apply Exists.intro connection
  apply Exists.intro last
  apply Exists.intro rest
  refine ⟨here, ?_, ?_, top, ?_⟩
  · intro lifecycle
    exact step_lifecycle (step_lifecycle lifecycle moves) leaves
  · rw [leaves.closes (fun _ advances => by cases advances), ← closes]
  · simp [setConfig, Function.update_idem]

theorem removeConnection_eq {id : Nat} {connection : ServerConnection}
    (here : server.created id = some connection) :
    server.removeConnection id =
      if connection.loop = 0 then server.removeConnectionInLoop id
      else server.queueInLoop 0 (.removeConnectionInLoop id) := by
  simp only [removeConnection, here]

theorem Accounted.close (accounted : server.Accounted) {id : Nat}
    (taken : server.close platform id = some next) (closing : server.closing id = true)
    (kept : ∀ connection, server.created id = some connection → connection.loop = 0 →
      server.connections connection.name ≠ some none) : next.Accounted := by
  rcases close_moves taken closing with
    ⟨connection, config, rest, here, lifecycle, closes, top, rfl⟩
  have alive := lifecycle (accounted.lifecycle id connection here)
  have owed := accounted.owed_of_close here alive closes
  have closed := accounted.setConfig here alive (by omega)
  rw [removeConnection_eq owed.created]
  split
  · next base => exact closed.remove owed (kept connection here base)
  · exact closed.queueRemoval owed

theorem FindsEntries.kept {label : ServerLabel} (finds : server.FindsEntries label) {id : Nat}
    {connection : ServerConnection} (here : server.created id = some connection)
    (removing : server.removing label = some id) :
    server.connections connection.name ≠ some none := by
  have other := finds.1 id removing
  simp only [isReset, here] at other
  intro reset
  rw [reset] at other
  cases other

/-! ## Every step keeps the accounts -/

theorem Accounted.act (accounted : server.Accounted) {loop : Nat} {action : LoopAction}
    {state : EventLoop ServerFunctor} (acts : (server.loops loop).Acts action state)
    (other : action ≠ .call) : (server.setLoop loop state).Accounted := by
  apply accounted.setLoop
  intro id
  rw [removals_setLoop]
  split
  · next base =>
      rw [acts.waiting other, base]
      exact Nat.le_refl _
  · exact Nat.le_refl _

theorem Accounted.call (accounted : server.Accounted) {loop : Nat} {functor : ServerFunctor}
    {functors : List ServerFunctor}
    (phase : (server.loops loop).phase = .between (functor :: functors))
    (called : (server.setLoop loop
      { server.loops loop with phase := .calling functors }).callFunctor platform loop functor =
        some next) (finds : server.FindsEntries (.call loop)) : next.Accounted := by
  have popped : (server.setLoop loop
      { server.loops loop with phase := .calling functors }).Accounted := by
    apply accounted.setLoop
    intro id
    rw [removals_setLoop]
    split
    · next base =>
        rw [removals, ← base, EventLoop.waiting_of_call phase, List.count_cons]
        exact Nat.le_add_right _ _
    · exact Nat.le_refl _
  cases functor with
  | connectEstablished id => exact popped.enter called
  | connectDestroyed id => exact popped.enter called
  | removeConnectionInLoop id =>
      simp only [callFunctor] at called
      split at called
      · next base =>
          cases called
          cases base
          rcases accounted.owed_of_call phase with ⟨connection, owed⟩
          apply popped.remove owed
          apply finds.kept owed.created
          simp only [removing, EventLoop.nextFunctor, phase]
      · cases called

theorem Accounted.askToQuit (accounted : server.Accounted) (loop : Nat) :
    (server.setLoop loop (server.loops loop).askToQuit).Accounted := by
  apply accounted.setLoop
  intro id
  rw [removals_setLoop]
  split
  · next base =>
      rw [base]
      exact Nat.le_refl _
  · exact Nat.le_refl _

/-- Every step that meets the condition keeps the accounts. -/
theorem step_accounted {label : ServerLabel} (accounted : server.Accounted)
    (finds : server.FindsEntries label)
    (taken : (serverMachine platform).Step server label next) : next.Accounted := by
  cases step_moves taken with
  | act free other acts => exact accounted.act acts other
  | call free phase called => exact accounted.call phase called finds
  | event here handling moved =>
      exact accounted.stepConnection moved (fun _ advances => by cases advances)
  | use here public_call runs moved =>
      exact accounted.stepConnection moved (fun _ advances => by cases advances)
  | dispatch here between moved =>
      exact accounted.stepConnection moved (fun _ advances => by cases advances)
  | close closing closed =>
      apply accounted.close closed closing
      intro connection here base
      apply finds.kept here
      simp only [removing, here, closing, base]
      rfl
  | advance closing moved => exact accounted.stepConnection moved (fun _ _ => closing)
  | leave moved => exact accounted.stepConnection moved (fun _ advances => by cases advances)
  | newConnection free handling created =>
      exact accounted.newConnection (create_lifecycle ..) (finds.2 _ rfl) created
  | stop running => exact accounted.setStopPhase _
  | stopAgain => exact accounted
  | destroy walking destroyed => exact accounted.destroy destroyed
  | endWalk reset => exact accounted.setStopPhase _
  | @quitLoop loop joining => exact (accounted.askToQuit loop).setStopPhase _
  | joinLoop joining returned => exact accounted.setStopPhase _
  | quitBase => exact accounted.askToQuit 0

end TcpServer

end MyBookSources.Net
