import MyBookSources.Net.Connector

/-! # The client

`net::TcpClient` over its connector. It makes a connection of each socket that the connector
passes to it, and with `retry_` it restarts the connector when its connection is removed. The
connections close when they will, and every thread may call `connect`, `disconnect` and `stop`.
-/

namespace MyBookSources.Net

/-- `shouldConnect` is `connect_`. `created` lists the connections with their sockets,
`destroyed` those whose `connectDestroyed` was queued, `shut` those that were asked to shut
down. A connection is known by its number here; the source knows it by its pointer and prints
`nextConnId_`, an int, into its name only. -/
structure TcpClient where
  connector : Connector
  retry : Bool
  shouldConnect : Bool
  nextConnId : Nat
  connection : Option Nat
  created : List (Nat × Nat)
  destroyed : List Nat
  shut : List Nat

namespace TcpClient

def create : TcpClient where
  connector := .create
  retry := false
  shouldConnect := true
  nextConnId := 1
  connection := none
  created := []
  destroyed := []
  shut := []

variable (client : TcpClient)

def newConnection (sockfd : Nat) : TcpClient :=
  { client with
    nextConnId := client.nextConnId + 1
    connection := some client.nextConnId
    created := client.created ++ [(client.nextConnId, sockfd)] }

/-- The callback of the connector is `newConnection`. -/
def callBack (connector : Connector) : TcpClient :=
  let called := { client with connector := connector }
  match connector.passed.drop client.connector.passed.length with
  | [] => called
  | sockfd :: _ => called.newConnection sockfd

def removeConnection (conn : Nat) (attempt : Attempt) : TcpClient :=
  if client.connection ≠ some conn then client
  else
    let removed := { client with connection := none, destroyed := client.destroyed ++ [conn] }
    if client.retry && client.shouldConnect then
      { removed with connector := client.connector.restart attempt }
    else removed

/-- What is left of `disconnect` behind the assignment of `connect_`. -/
def shutdown : TcpClient :=
  match client.connection with
  | none => client
  | some conn => { client with shut := client.shut ++ [conn] }

/-- `connect`, `disconnect` and `stop` assign `connect_` in `setConnect` and go on with
`shutdown` or with steps of the connector. -/
inductive Label
  | setConnect (value : Bool)
  | enableRetry
  | shutdown
  | connector (label : Connector.Label)
  | removeConnection (conn : Nat) (attempt : Attempt)
  deriving DecidableEq

/-- Nobody but `removeConnection` restarts the connector. -/
def restarts : Connector.Label → Bool
  | .restart _ | .queueInLoop .restart => true
  | _ => false

def step : Label → Option TcpClient
  | .setConnect value => some { client with shouldConnect := value }
  | .enableRetry => some { client with retry := true }
  | .shutdown => some client.shutdown
  | .connector label =>
      if restarts label then none
      else (client.connector.step label).map client.callBack
  | .removeConnection conn attempt =>
      if conn < client.nextConnId then some (client.removeConnection conn attempt) else none

end TcpClient

/-- Every order of the calls, of the connector's steps and of closes. -/
def clientMachine : Machine TcpClient TcpClient.Label :=
  .ofPartial TcpClient.step

/-! ## What the connector does by itself -/

namespace Connector

variable {connector next : Connector}

/-- What a step that does not restart does: it queues no restart, passes a socket only at the end
of an attempt, and does nothing to a connector that is connected. -/
structure Goes (connector next : Connector) : Prop where
  queue : ∀ functor ∈ next.pending, functor ∈ connector.pending ∨ functor ≠ .restart
  connected : connector.state = .kConnected →
    next.state = .kConnected ∧ next.created = connector.created
  passed : next.passed = connector.passed ∨
    connector.state = .kConnecting ∧ next.state = .kConnected ∧
      ∃ sockfd, next.passed = connector.passed ++ [sockfd]

theorem Goes.refl (connector : Connector) : connector.Goes connector where
  queue _ member := .inl member
  connected state := ⟨state, rfl⟩
  passed := .inl rfl

theorem Goes.of_state {state : States} (before : connector.state = state)
    (other : state ≠ .kConnected) (passed : next.passed = connector.passed)
    (queue : ∀ functor ∈ next.pending, functor ∈ connector.pending ∨ functor ≠ .restart) :
    connector.Goes next where
  queue := queue
  connected connected := absurd (before.symm.trans connected) other
  passed := .inl passed

theorem connect_keeps (connector : Connector) (attempt : Attempt) :
    (connector.connect attempt).passed = connector.passed ∧
      (connector.connect attempt).pending = connector.pending := by
  rcases connector.connect_cases attempt with ⟨_, went⟩ | ⟨_, retried | closed⟩
  · rw [went]
    exact ⟨rfl, rfl⟩
  · rw [retried]
    exact ⟨rfl, rfl⟩
  · rw [closed]
    exact ⟨rfl, rfl⟩

theorem startInLoop_goes (connector : Connector) (attempt : Attempt) :
    connector.Goes (connector.startInLoop attempt) := by
  rw [startInLoop]
  split
  · exact .refl connector
  · next state =>
    split
    · rcases connect_keeps connector attempt with ⟨passed, pending⟩
      apply Goes.of_state (Decidable.not_not.mp state) (by decide) passed
      rw [pending]
      exact fun _ member => .inl member
    · exact .refl connector

theorem queue_reset (connector : Connector) (functor : Functor)
    (member : functor ∈ connector.pending ++ [.resetChannel]) :
    functor ∈ connector.pending ∨ functor ≠ .restart := by
  rcases List.mem_append.mp member with old | new
  · exact .inl old
  · rw [List.mem_singleton.mp new]
    exact .inr (by decide)

theorem stopInLoop_goes (stopped : connector.stopInLoop = some next) : connector.Goes next := by
  rw [stopInLoop] at stopped
  split at stopped
  · next connecting =>
    rcases Option.map_eq_some_iff.mp stopped with ⟨⟨sockfd, removed⟩, taken, rfl⟩
    rcases Option.map_eq_some_iff.mp taken with ⟨socket, _, same⟩
    cases same
    exact .of_state connecting (by decide) rfl (queue_reset connector)
  · cases stopped
    exact .refl connector

theorem handleError_goes (handled : connector.handleError = some next) :
    connector.Goes next := by
  rw [handleError] at handled
  split at handled
  · next connecting =>
    rcases Option.map_eq_some_iff.mp handled with ⟨⟨sockfd, removed⟩, taken, rfl⟩
    rcases Option.map_eq_some_iff.mp taken with ⟨socket, _, same⟩
    cases same
    exact .of_state connecting (by decide) rfl (queue_reset connector)
  · cases handled
    exact .refl connector

theorem handleWrite_goes {err : Int} {isSelfConnect : Bool}
    (handled : connector.handleWrite err isSelfConnect = some next) : connector.Goes next := by
  rw [handleWrite] at handled
  split at handled
  · next connecting =>
    rcases Option.map_eq_some_iff.mp handled with ⟨⟨sockfd, removed⟩, taken, went⟩
    rcases Option.map_eq_some_iff.mp taken with ⟨socket, _, same⟩
    cases same
    have queue := queue_reset connector
    dsimp only at went
    split at went
    · cases went
      exact .of_state connecting (by decide) rfl queue
    · split at went
      · cases went
        exact .of_state connecting (by decide) rfl queue
      · split at went
        · cases went
          exact {
            queue := queue
            connected := fun connected => by
              rw [connecting] at connected
              cases connected
            passed := .inr ⟨connecting, rfl, _, rfl⟩ }
        · cases went
          exact .of_state connecting (by decide) rfl queue
  · cases handled
    exact .refl connector

theorem Goes.of_pending {shouldConnect : Bool} {pending : List Functor}
    (fewer : ∀ functor ∈ pending, functor ∈ connector.pending)
    (goes : Goes { connector with shouldConnect := shouldConnect, pending := pending } next) :
    connector.Goes next where
  queue functor member := by
    rcases goes.queue functor member with old | other
    · exact .inl (fewer functor old)
    · exact .inr other
  connected := goes.connected
  passed := goes.passed

theorem perform_goes {attempt : Attempt} {functor : Functor} (other : functor ≠ .restart)
    (performed : connector.perform attempt functor = some next) : connector.Goes next := by
  cases functor with
  | startInLoop =>
      cases performed
      exact startInLoop_goes connector attempt
  | stopInLoop => exact stopInLoop_goes performed
  | restart => exact absurd rfl other
  | resetChannel =>
      cases performed
      exact { queue := fun _ member => .inl member, connected := fun state => ⟨state, rfl⟩,
              passed := .inl rfl }

theorem step_goes {label : Label} (other : TcpClient.restarts label = false)
    (unrestarted : .restart ∉ connector.pending) (taken : connector.step label = some next) :
    connector.Goes next := by
  cases label with
  | start attempt =>
      cases taken
      exact (startInLoop_goes _ attempt).of_pending (fun _ member => member)
  | restart attempt => cases other
  | setConnect value =>
      cases taken
      exact (Goes.refl _).of_pending (fun _ member => member)
  | queueInLoop request =>
      cases taken
      refine { queue := ?_, connected := fun state => ⟨state, rfl⟩, passed := .inl rfl }
      intro functor member
      rcases List.mem_append.mp member with old | new
      · exact .inl old
      · rw [List.mem_singleton.mp new]
        cases request with
        | startInLoop => exact .inr (by decide)
        | stopInLoop => exact .inr (by decide)
        | restart => cases other
  | doFunctor position attempt =>
      rw [step] at taken
      split at taken
      · cases taken
        exact .refl connector
      · next functor queued =>
        have different : functor ≠ .restart := by
          rintro rfl
          exact unrestarted (List.mem_of_getElem? queued)
        exact (perform_goes different taken).of_pending
          (fun _ member => List.mem_of_mem_eraseIdx member)
  | handleWrite err isSelfConnect => exact handleWrite_goes taken
  | handleError => exact handleError_goes taken

end Connector

namespace TcpClient

variable {client next : TcpClient}

/-- The connection is the last one that was made, of a socket that was passed; every other one
has been destroyed. -/
structure Sound (client : TcpClient) : Prop where
  unrestarted : .restart ∉ client.connector.pending
  current : ∀ conn, client.connection = some conn →
    client.connector.state = .kConnected ∧ conn + 1 = client.nextConnId
  started : 1 ≤ client.nextConnId
  ids : client.created.map Prod.fst = (List.range (client.nextConnId - 1)).map (· + 1)
  sockets : client.created.map Prod.snd = client.connector.passed
  left : ∀ conn, client.destroyed.count conn + (if client.connection = some conn then 1 else 0) =
    if 1 ≤ conn ∧ conn < client.nextConnId then 1 else 0

theorem create_sound : create.Sound where
  unrestarted member := by cases member
  current _ none := by cases none
  started := Nat.le_refl 1
  ids := rfl
  sockets := rfl
  left conn := by
    change 0 + 0 = _
    rw [if_neg (by change ¬ (1 ≤ conn ∧ conn < 1); omega)]

theorem restart_keeps (connector : Connector) (attempt : Attempt) :
    (connector.restart attempt).passed = connector.passed ∧
      (connector.restart attempt).pending = connector.pending :=
  Connector.connect_keeps { connector.setState .kDisconnected with shouldConnect := true } attempt

theorem Sound.newConnection (sound : client.Sound) (none : client.connection = none)
    {connector : Connector} {sockfd : Nat} (state : connector.state = .kConnected)
    (unrestarted : .restart ∉ connector.pending)
    (passed : connector.passed = client.connector.passed ++ [sockfd]) :
    (TcpClient.newConnection { client with connector := connector } sockfd).Sound := by
  have started := sound.started
  constructor
  · exact unrestarted
  · intro conn made
    cases made
    exact ⟨state, rfl⟩
  · exact Nat.le_add_left 1 _
  · change (client.created ++ [(client.nextConnId, sockfd)]).map Prod.fst = _
    rw [List.map_append, sound.ids]
    change _ = (List.range (client.nextConnId + 1 - 1)).map (· + 1)
    rw [show client.nextConnId + 1 - 1 = client.nextConnId - 1 + 1 by omega, List.range_succ,
      List.map_append]
    congr 1
    change [client.nextConnId] = [client.nextConnId - 1 + 1]
    rw [Nat.sub_add_cancel started]
  · change (client.created ++ [(client.nextConnId, sockfd)]).map Prod.snd = connector.passed
    rw [List.map_append, sound.sockets, passed]
    rfl
  · intro conn
    have before := sound.left conn
    rw [none] at before
    change client.destroyed.count conn + (if some client.nextConnId = some conn then 1 else 0) =
      if 1 ≤ conn ∧ conn < client.nextConnId + 1 then 1 else 0
    by_cases new : conn = client.nextConnId
    · rw [if_neg (by simp), if_neg (by omega)] at before
      rw [if_pos (congrArg some new.symm), if_pos (by omega)]
      omega
    · rw [if_neg (by simp)] at before
      rw [if_neg (by simpa using Ne.symm new), before]
      apply if_congr _ rfl rfl
      omega

theorem Sound.callBack (sound : client.Sound) {connector : Connector}
    (goes : client.connector.Goes connector) : (client.callBack connector).Sound := by
  have unrestarted : .restart ∉ connector.pending := by
    intro member
    rcases goes.queue .restart member with old | other
    · exact sound.unrestarted old
    · exact other rfl
  rcases goes.passed with same | ⟨connecting, connected, sockfd, passed⟩
  · rw [TcpClient.callBack, same, List.drop_length]
    exact {
      unrestarted := unrestarted
      current := fun conn here =>
        ⟨(goes.connected (sound.current conn here).1).1, (sound.current conn here).2⟩
      started := sound.started
      ids := sound.ids
      sockets := sound.sockets.trans same.symm
      left := sound.left }
  · have none : client.connection = none := by
      cases here : client.connection with
      | none => rfl
      | some conn =>
          have state := (sound.current conn here).1
          rw [connecting] at state
          cases state
    have called : client.callBack connector =
        TcpClient.newConnection { client with connector := connector } sockfd := by
      rw [TcpClient.callBack, passed, List.drop_left]
    rw [called]
    exact sound.newConnection none connected unrestarted passed

theorem Sound.removeConnection (sound : client.Sound) (conn : Nat) (attempt : Attempt) :
    (client.removeConnection conn attempt).Sound := by
  rw [TcpClient.removeConnection]
  split
  · exact sound
  · next here =>
    have here := Decidable.not_not.mp here
    have left : ∀ other, (client.destroyed ++ [conn]).count other + 0 =
        if 1 ≤ other ∧ other < client.nextConnId then 1 else 0 := by
      intro other
      rw [← sound.left other, here, List.count_append, List.count_singleton]
      simp
    have removed : Sound { client with
        connection := none, destroyed := client.destroyed ++ [conn] } :=
      { unrestarted := sound.unrestarted, current := nofun, started := sound.started,
        ids := sound.ids, sockets := sound.sockets, left := left }
    dsimp only
    split
    · rcases restart_keeps client.connector attempt with ⟨passed, pending⟩
      exact { removed with
        unrestarted := by rw [pending]; exact sound.unrestarted
        current := nofun
        sockets := sound.sockets.trans passed.symm }
    · exact removed

theorem Sound.shutdown (sound : client.Sound) : client.shutdown.Sound := by
  rw [TcpClient.shutdown]
  split
  · exact sound
  · exact ⟨sound.unrestarted, sound.current, sound.started, sound.ids, sound.sockets, sound.left⟩

theorem step_sound {label : Label} (sound : client.Sound)
    (taken : clientMachine.Step client label next) : next.Sound := by
  change client.step label = some next at taken
  cases label with
  | setConnect value =>
      cases taken
      exact ⟨sound.unrestarted, sound.current, sound.started, sound.ids, sound.sockets,
        sound.left⟩
  | enableRetry =>
      cases taken
      exact ⟨sound.unrestarted, sound.current, sound.started, sound.ids, sound.sockets,
        sound.left⟩
  | shutdown =>
      cases taken
      exact sound.shutdown
  | connector label =>
      rw [step] at taken
      split at taken
      · cases taken
      · next own =>
        rcases Option.map_eq_some_iff.mp taken with ⟨connector, moved, rfl⟩
        exact sound.callBack
          (Connector.step_goes (by simpa using own) sound.unrestarted moved)
  | removeConnection conn attempt =>
      rw [step] at taken
      split at taken
      · cases taken
        exact sound.removeConnection conn attempt
      · cases taken

theorem sound_of_transitions {labels : List Label}
    (transitions : clientMachine.Transitions create labels client) : client.Sound :=
  transitions.invariant (fun _ _ _ sound taken => step_sound sound taken) create_sound

/-- In every order of calls, events, functors and closes the client makes one connection of each
socket that its connector passes, never while it has one, and gives them the numbers from 1 on;
each but the one that it has is destroyed, and only once. -/
theorem connections_destroyed_once {labels : List Label}
    (transitions : clientMachine.Transitions create labels client) :
    client.created.map Prod.snd = client.connector.passed ∧
    client.created.map Prod.fst = (List.range client.created.length).map (· + 1) ∧
    ∀ conn ∈ client.created.map Prod.fst,
      if client.connection = some conn
      then conn = client.created.length ∧ conn ∉ client.destroyed
      else client.destroyed.count conn = 1 := by
  have sound := sound_of_transitions transitions
  have number : client.created.length = client.nextConnId - 1 := by
    rw [← List.length_map Prod.fst, sound.ids]
    simp
  refine ⟨sound.sockets, number ▸ sound.ids, ?_⟩
  intro conn made
  have inside : 1 ≤ conn ∧ conn < client.nextConnId := by
    rw [sound.ids] at made
    rcases List.mem_map.mp made with ⟨index, bound, rfl⟩
    have below := List.mem_range.mp bound
    omega
  have left := sound.left conn
  rw [if_pos inside] at left
  split
  · next here =>
    rw [if_pos here] at left
    have last := (sound.current conn here).2
    exact ⟨by omega, List.count_eq_zero.mp (by omega)⟩
  · next other =>
    rw [if_neg other] at left
    omega

/-- With `retry_` the second connection comes after the first has closed. -/
theorem connections_destroyed_once_two : ∃ client : TcpClient,
    (client.connection, client.created, client.destroyed) = (some 2, [(1, 0), (2, 1)], [1]) ∧
      client.created.map Prod.snd = client.connector.passed := by
  have facts : (Machine.runPartial step create [.enableRetry,
      .connector (.start ⟨.EINPROGRESS, true⟩), .connector (.handleWrite 0 false),
      .connector (.doFunctor 0 ⟨.none, true⟩), .removeConnection 1 ⟨.EINPROGRESS, true⟩,
      .connector (.handleWrite 0 false)]).map
      (fun client => (client.connection, client.created, client.destroyed)) =
        some (some 2, [(1, 0), (2, 1)], [1]) := by rfl
  rcases Option.map_eq_some_iff.mp facts with ⟨client, ran, reached⟩
  have each := (connections_destroyed_once (Machine.transitions_of_runPartial ran)).1
  exact ⟨client, reached, each⟩

/-! ## A client that does not retry -/

/-- The connection was removed, and the connector was not restarted. -/
structure Spent (client : TcpClient) : Prop where
  unrestarted : .restart ∉ client.connector.pending
  connected : client.connector.state = .kConnected
  gone : client.connection = none

/-- The client is spent as before, and has made no connection and tried no socket since. -/
structure StillSpent (before client : TcpClient) : Prop extends Spent client where
  made : client.created = before.created
  tried : client.connector.created = before.connector.created

theorem Spent.callBack (spent : client.Spent) {connector : Connector}
    (goes : client.connector.Goes connector) : StillSpent client (client.callBack connector) := by
  rcases goes.connected spent.connected with ⟨connected, created⟩
  rcases goes.passed with same | ⟨connecting, _⟩
  · rw [TcpClient.callBack, same, List.drop_length]
    refine ⟨⟨?_, connected, spent.gone⟩, rfl, created⟩
    intro member
    rcases goes.queue .restart member with old | other
    · exact spent.unrestarted old
    · exact other rfl
  · rw [spent.connected] at connecting
    cases connecting

theorem Spent.step {label : Label} (spent : client.Spent)
    (taken : clientMachine.Step client label next) : StillSpent client next := by
  have same : StillSpent client client := ⟨spent, rfl, rfl⟩
  change client.step label = some next at taken
  cases label with
  | setConnect value =>
      cases taken
      exact ⟨⟨spent.unrestarted, spent.connected, spent.gone⟩, rfl, rfl⟩
  | enableRetry =>
      cases taken
      exact ⟨⟨spent.unrestarted, spent.connected, spent.gone⟩, rfl, rfl⟩
  | shutdown =>
      cases taken
      rw [TcpClient.shutdown, spent.gone]
      exact same
  | connector label =>
      rw [TcpClient.step] at taken
      split at taken
      · cases taken
      · next own =>
        rcases Option.map_eq_some_iff.mp taken with ⟨connector, moved, rfl⟩
        exact spent.callBack (Connector.step_goes (by simpa using own) spent.unrestarted moved)
  | removeConnection conn attempt =>
      rw [TcpClient.step] at taken
      split at taken
      · cases taken
        rw [TcpClient.removeConnection, spent.gone, if_pos (by simp)]
        exact same
      · cases taken

/-- Once a connection has closed while `retry_` or `connect_` was off, the client never has a
connection again and tries no socket, whatever is called: the connector remains in
`kConnected`, in which `connect` does nothing. -/
theorem never_connects_again {conn : Nat} {attempt : Attempt} {gone last : TcpClient}
    {labels later : List Label} (transitions : clientMachine.Transitions create labels client)
    (here : client.connection = some conn)
    (alone : (client.retry && client.shouldConnect) = false)
    (removed : client.step (.removeConnection conn attempt) = some gone)
    (onward : clientMachine.Transitions gone later last) :
    last.connection = none ∧ last.created = client.created ∧
      last.connector.created = client.connector.created := by
  have sound := sound_of_transitions transitions
  have here' : ¬ client.connection ≠ some conn := not_not.mpr here
  have taken : client.removeConnection conn attempt = gone := by
    rw [TcpClient.step] at removed
    split at removed
    · exact Option.some.inj removed
    · cases removed
  rw [TcpClient.removeConnection, if_neg here', alone] at taken
  have still : StillSpent gone last := by
    apply onward.invariant
    · intro before label after still step
      have once := still.toSpent.step step
      exact ⟨once.toSpent, once.made.trans still.made, once.tried.trans still.tried⟩
    · cases taken
      exact ⟨⟨sound.unrestarted, (sound.current conn here).1, rfl⟩, rfl, rfl⟩
  refine ⟨still.gone, still.made.trans ?_, still.tried.trans ?_⟩
  · rw [← taken]
    rfl
  · rw [← taken]
    rfl

/-- After the connection has closed, `connect` is called in vain, even with `retry_`. -/
theorem never_connects_again_called : ∃ last : TcpClient,
    (last.retry, last.connector.shouldConnect) = (true, true) ∧ last.connection = none ∧
      last.connector.created = 1 := by
  have first : (Machine.runPartial step create [.connector (.start ⟨.EINPROGRESS, true⟩),
      .connector (.handleWrite 0 false), .connector (.doFunctor 0 ⟨.none, true⟩)]).map
      (fun client => (client.connection, client.retry && client.shouldConnect,
        client.connector.created)) = some (some 1, false, 1) := by rfl
  rcases Option.map_eq_some_iff.mp first with ⟨client, ran, reached⟩
  simp only [Prod.mk.injEq] at reached
  have second : ((client.step (.removeConnection 1 ⟨.none, true⟩)).bind fun gone =>
      Machine.runPartial step gone [.setConnect true, .enableRetry,
        .connector (.start ⟨.EINPROGRESS, true⟩)]).map
      (fun last => (last.retry, last.connector.shouldConnect)) = some (true, true) := by
    cases ran
    rfl
  rcases Option.map_eq_some_iff.mp second with ⟨last, both, calls⟩
  rcases Option.bind_eq_some_iff.mp both with ⟨gone, removed, onward⟩
  have never := never_connects_again (Machine.transitions_of_runPartial ran) reached.1 reached.2.1
    removed (Machine.transitions_of_runPartial onward)
  exact ⟨last, calls, never.1, never.2.2.trans reached.2.2⟩

end TcpClient

end MyBookSources.Net
