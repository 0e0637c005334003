import MyBookSources.Net.ServerRemoval
import Mathlib.Data.Bool.Count

/-! # The list of sessions

`MyWebSocketServer` keeps a session for each connection in a list, from `onConnection` to `onClose`.
Every loop calls them for its own connections, and the list is under a mutex.
-/

namespace MyBookSources.WebSocket

open Net

/-- `listSessions` holds the connection of each session. `waiting` are the calls of `onConnection`
for a connection that are on their way to the mutex, with what `connected` has said, and `handled`
those that have had it. `disconnected` are the calls of `onDisconnect`, `missed` the connections
that no session was found for. -/
structure MyWebSocketServer where
  server : TcpServer
  listSessions : List Nat
  waiting : Nat → List Bool
  handled : Nat → List Bool
  disconnected : List Nat
  missed : List Nat

def connectedOf : Callback → Option Bool
  | .connectionCallback connected => some connected
  | _ => none

/-- What `onConnection` has been called with for a connection. -/
def announced (server : TcpServer) (id : Nat) : List Bool :=
  match server.created id with
  | some connection => connection.config.log.filterMap connectedOf
  | none => []

namespace MyWebSocketServer

def create (name hostport : String) (threadCount : Nat) : MyWebSocketServer where
  server := .create name hostport threadCount
  listSessions := []
  waiting _ := []
  handled _ := []
  disconnected := []
  missed := []

variable (server : MyWebSocketServer)

def onClose (id : Nat) : MyWebSocketServer :=
  if id ∈ server.listSessions then
    { server with
      listSessions := server.listSessions.erase id
      disconnected := server.disconnected ++ [id] }
  else { server with missed := server.missed ++ [id] }

def onConnection (id : Nat) : Bool → MyWebSocketServer
  | true => { server with listSessions := server.listSessions ++ [id] }
  | false => server.onClose id

inductive Label
  | server (label : ServerLabel)
  | lock (id : Nat)

/-- A step of `m_server`, with what it calls `onConnection` for. -/
def serve (platform : Net.Platform) (label : ServerLabel) : Option MyWebSocketServer :=
  (server.server.step platform label).map fun next => { server with
    server := next
    waiting := fun id =>
      server.waiting id ++ (announced next id).drop (announced server.server id).length }

/-- The next call of `onConnection` for the connection gets the mutex. -/
def take (id : Nat) (connected : Bool) (rest : List Bool) : MyWebSocketServer :=
  { server with
    waiting := Function.update server.waiting id rest
    handled := Function.update server.handled id (server.handled id ++ [connected]) }

/-- `onConnection` is not left before it has had the mutex. -/
def step (platform : Net.Platform) (server : MyWebSocketServer) : Label → Option MyWebSocketServer
  | .server (.leave id) =>
      if server.waiting id = [] then server.serve platform (.leave id) else none
  | .server label => server.serve platform label
  | .lock id =>
      match server.waiting id with
      | connected :: rest => some ((server.take id connected rest).onConnection id connected)
      | [] => none

end MyWebSocketServer

def sessionMachine (platform : Net.Platform) : Machine MyWebSocketServer MyWebSocketServer.Label :=
  .ofPartial fun server => server.step platform

/-! ## What the loops call -/

theorem log_of_moves {platform : Net.Platform} {before after : Config} {label : Net.Label}
    (moves : before.Moves platform label after) :
    ∃ callbacks, after.log = before.log ++ callbacks := by
  cases moves with
  | advance ctl call rest stack running => exact ⟨_, rfl⟩
  | enter call idle entry => exact ⟨[], (List.append_nil _).symm⟩
  | leave rest stack => exact ⟨[], (List.append_nil _).symm⟩
  | dispatch functor others stack => exact ⟨[], (List.append_nil _).symm⟩

/-- A connection is up once at most, and down once at most and then for good. -/
inductive Lived : List Bool → Prop
  | unborn : Lived []
  | up : Lived [true]
  | ended : Lived [true, false]
  | failed : Lived [false]

theorem eq_of_connectedOf {callback : Callback} {connected : Bool}
    (calls : connectedOf callback = some connected) :
    callback = .connectionCallback connected := by
  cases callback with
  | connectionCallback same =>
      cases calls
      rfl
  | messageCallback input => cases calls
  | closeCallback => cases calls

theorem count_announced (log : List Callback) (connected : Bool) :
    (log.filterMap connectedOf).count connected = log.count (.connectionCallback connected) := by
  induction log with
  | nil => rfl
  | cons callback log induction =>
      cases callback with
      | connectionCallback same =>
          change (same :: log.filterMap connectedOf).count connected = _
          rw [List.count_cons, List.count_cons, induction]
          cases same <;> cases connected <;> rfl
      | messageCallback input =>
          rw [List.filterMap_cons_none rfl, List.count_cons_of_ne (by simp), induction]
      | closeCallback =>
          rw [List.filterMap_cons_none rfl, List.count_cons_of_ne (by simp), induction]

theorem lived_of_lifecycle {config : Config} (lifecycle : config.Lifecycle) :
    Lived (config.log.filterMap connectedOf) := by
  have ups : (config.log.filterMap connectedOf).count true ≤ 1 := by
    rw [count_announced]
    exact lifecycle.ups_le
  have downs : (config.log.filterMap connectedOf).count false ≤ 1 := by
    rw [count_announced]
    exact lifecycle.downs_le
  have ordered : (config.log.filterMap connectedOf).Pairwise fun earlier later =>
      earlier = false → later ≠ true := by
    refine lifecycle.ordered.filterMap connectedOf ?_
    rintro earlier later order first firstOf second secondOf rfl rfl
    exact order (eq_of_connectedOf firstOf) (eq_of_connectedOf secondOf)
  have length := List.count_true_add_count_false (config.log.filterMap connectedOf)
  generalize config.log.filterMap connectedOf = calls at *
  match calls with
  | [] => exact .unborn
  | [true] => exact .up
  | [false] => exact .failed
  | [true, false] => exact .ended
  | [false, true] => exact absurd rfl ((List.pairwise_pair.mp ordered) rfl)
  | [true, true] => exact absurd ups (by decide)
  | [false, false] => exact absurd downs (by decide)
  | first :: second :: third :: rest =>
      have long : (first :: second :: third :: rest).length = rest.length + 3 := rfl
      omega

theorem Lived.cut {earlier rest : List Bool} {connected : Bool}
    (lived : Lived (earlier ++ connected :: rest)) :
    earlier = [] ∧ connected = true ∨ earlier = [true] ∧ connected = false ∨
      earlier = [] ∧ connected = false := by
  generalize equal : earlier ++ connected :: rest = calls at lived
  cases lived with
  | unborn => exact absurd equal (List.append_ne_nil_of_right_ne_nil _ (List.cons_ne_nil _ _))
  | up =>
      rcases List.append_eq_singleton_iff.mp equal with ⟨none, same⟩ | ⟨_, none⟩
      · cases same
        exact .inl ⟨none, rfl⟩
      · cases none
  | ended =>
      rcases List.append_eq_cons_iff.mp equal with ⟨none, same⟩ | ⟨later, first, same⟩
      · cases same
        exact .inl ⟨none, rfl⟩
      · rcases List.append_eq_singleton_iff.mp same.symm with ⟨none, last⟩ | ⟨_, none⟩
        · cases last
          rw [none] at first
          exact .inr (.inl ⟨first, rfl⟩)
        · cases none
  | failed =>
      rcases List.append_eq_singleton_iff.mp equal with ⟨none, same⟩ | ⟨_, none⟩
      · cases same
        exact .inr (.inr ⟨none, rfl⟩)
      · cases none

/-! ## What a step of the server leaves of the connections -/

def Living (server : TcpServer) : Prop :=
  (∀ id, server.nextConnId ≤ id → server.created id = none) ∧
    ∀ id connection, server.created id = some connection → connection.config.Lifecycle

/-- Every connection goes on from where it was, and a new one begins with nothing. -/
def Continues (server next : TcpServer) : Prop :=
  Living server → Living next ∧ ∀ id, announced server id <+: announced next id

section

variable {platform : Net.Platform} {server next : TcpServer}

theorem Continues.refl (server : TcpServer) : Continues server server := by
  intro living
  exact ⟨living, fun id => List.prefix_refl _⟩

theorem Continues.trans {last : TcpServer} (first : Continues server next)
    (second : Continues next last) : Continues server last := by
  intro living
  have one := first living
  have two := second one.1
  exact ⟨two.1, fun id => (one.2 id).trans (two.2 id)⟩

theorem Continues.of_created (number : next.nextConnId = server.nextConnId)
    (created : next.created = server.created) : Continues server next := by
  intro living
  refine ⟨?_, ?_⟩
  · rw [Living, number, created]
    exact living
  · intro id
    rw [announced, announced, created]

theorem announced_of_created {id : Nat} {connection : ServerConnection}
    (here : server.created id = some connection) :
    announced server id = connection.config.log.filterMap connectedOf := by
  rw [announced, here]

theorem Continues.stepConnection {id : Nat} {label : Net.Label}
    (taken : server.stepConnection platform id label = some next) : Continues server next := by
  rcases TcpServer.stepConnection_moves taken with ⟨connection, config, here, moves, rfl⟩
  intro living
  refine ⟨⟨?_, ?_⟩, ?_⟩
  · intro other unborn
    have none := living.1 other unborn
    have different : other ≠ id := by
      rintro rfl
      rw [none] at here
      cases here
    exact (Function.update_of_ne different _ _).trans none
  · intro other found there
    rcases TcpServer.created_setConfig there with ⟨_, rfl⟩ | there
    · exact step_lifecycle (living.2 id connection here) moves
    · exact living.2 other found there
  · intro other
    by_cases same : other = id
    · subst same
      rcases log_of_moves moves with ⟨callbacks, grown⟩
      rw [announced_of_created here, announced_of_created (Function.update_self _ _ _), grown,
        List.filterMap_append]
      exact List.prefix_append _ _
    · have kept : (server.setConfig id connection config).created other = server.created other :=
        Function.update_of_ne same _ _
      rw [announced, announced, kept]

theorem Continues.enter {loop id : Nat} {call : Call}
    (taken : server.enter platform loop id call = some next) : Continues server next :=
  .stepConnection (TcpServer.enter_eq taken).1

theorem Continues.removeConnectionInLoop (server : TcpServer) (id : Nat) :
    Continues server (server.removeConnectionInLoop id) := by
  rw [TcpServer.removeConnectionInLoop]
  split
  · exact .refl server
  · split
    · exact .refl server
    · exact .of_created rfl rfl

theorem Continues.removeConnection (server : TcpServer) (id : Nat) :
    Continues server (server.removeConnection id) := by
  rw [TcpServer.removeConnection]
  split
  · exact .refl server
  · split
    · exact .removeConnectionInLoop server id
    · exact .of_created rfl rfl

theorem Continues.close {id : Nat} (taken : server.close platform id = some next) :
    Continues server next := by
  rcases Option.map_eq_some_iff.mp taken with ⟨left, both, rfl⟩
  rcases Option.bind_eq_some_iff.mp both with ⟨delivered, first, second⟩
  have stepped := (Continues.stepConnection first).trans (.stepConnection second)
  exact stepped.trans (.removeConnection left id)

theorem Continues.callFunctor {loop : Nat} {functor : ServerFunctor}
    (called : server.callFunctor platform loop functor = some next) : Continues server next := by
  cases functor with
  | connectEstablished id => exact .enter called
  | connectDestroyed id => exact .enter called
  | removeConnectionInLoop id =>
      rw [TcpServer.callFunctor] at called
      split at called
      · cases called
        exact .removeConnectionInLoop server id
      · cases called

theorem Continues.destroy {key : String} (taken : server.destroy platform key = some next) :
    Continues server next := by
  rw [TcpServer.destroy] at taken
  split at taken
  · split at taken
    · cases taken
    · split at taken
      · have entered := Continues.enter taken
        exact .trans (.of_created rfl rfl) entered
      · cases taken
        exact .of_created rfl rfl
  · cases taken

theorem Continues.addConnection (server : TcpServer) (loop : Nat) (address : Nat) (sockfd : Int)
    (poller : EPollPoller) (writeComplete highWaterMark : Bool) :
    Continues server (server.addConnection loop
      (.create address sockfd poller writeComplete highWaterMark)) := by
  intro living
  refine ⟨⟨?_, ?_⟩, ?_⟩
  · intro id unborn
    have later : server.nextConnId < id := unborn
    exact (Function.update_of_ne (Nat.ne_of_gt later) _ _).trans
      (living.1 id (Nat.le_of_lt later))
  · intro id found there
    rcases TcpServer.created_addConnection there with ⟨_, rfl⟩ | ⟨_, there⟩
    · exact create_lifecycle ..
    · exact living.2 id found there
  · intro id
    by_cases new : id = server.nextConnId
    · rw [new, announced, living.1 _ (Nat.le_refl _)]
      exact List.nil_prefix
    · have kept : (server.addConnection loop (.create address sockfd poller writeComplete
          highWaterMark)).created id = server.created id := Function.update_of_ne new _ _
      rw [announced, announced, kept]

theorem Continues.newConnection {address : Nat} {sockfd : Int} {poller : EPollPoller}
    {writeComplete highWaterMark : Bool}
    (taken : server.newConnection platform
      (.create address sockfd poller writeComplete highWaterMark) = some next) :
    Continues server next := by
  have chosen : Continues server server.getNextLoop.2 := by
    rcases server.getNextLoop_eq with ⟨turn, chosen⟩
    rw [chosen]
    exact .of_created rfl rfl
  refine (chosen.trans (.addConnection _ server.getNextLoop.1 address sockfd poller writeComplete
    highWaterMark)).trans ?_
  rw [TcpServer.newConnection, TcpServer.establish] at taken
  split at taken
  · exact .enter taken
  · cases taken
    exact .of_created rfl rfl

theorem step_continues {label : ServerLabel} (taken : server.step platform label = some next) :
    Continues server next := by
  cases TcpServer.step_moves taken with
  | call free phase called =>
      have ran := Continues.callFunctor called
      exact .trans (.of_created rfl rfl) ran
  | event here handling moved => exact .stepConnection moved
  | use here public_call runs moved => exact .stepConnection moved
  | dispatch here between moved => exact .stepConnection moved
  | close closing closed => exact .close closed
  | advance closing moved => exact .stepConnection moved
  | leave moved => exact .stepConnection moved
  | newConnection free handling created => exact .newConnection created
  | destroy walking destroyed => exact .destroy destroyed
  | stopAgain => exact .refl server
  | _ => exact .of_created rfl rfl

theorem lived_announced (living : Living server) (id : Nat) : Lived (announced server id) := by
  rw [announced]
  split
  · next connection here => exact lived_of_lifecycle (living.2 id connection here)
  · exact .unborn

end

namespace MyWebSocketServer

/-! ## The list in all runs -/

variable {platform : Net.Platform} {server next : MyWebSocketServer}

/-- How often a connection is to be found where, for the calls that have had the mutex. -/
structure Listed (server : MyWebSocketServer) (id : Nat) : Prop where
  calls : server.handled id ++ server.waiting id = announced server.server id
  sessions : server.listSessions.count id = if server.handled id = [true] then 1 else 0
  disconnected : server.disconnected.count id =
    if server.handled id = [true, false] then 1 else 0
  missed : server.missed.count id = if server.handled id = [false] then 1 else 0

structure Tidy (server : MyWebSocketServer) : Prop where
  living : Living server.server
  listed : ∀ id, server.Listed id

theorem tidy_create (name hostport : String) (threadCount : Nat) :
    (create name hostport threadCount).Tidy where
  living := ⟨fun _ _ => rfl, fun _ _ here => absurd here (Option.some_ne_none _).symm⟩
  listed _ := ⟨rfl, rfl, rfl, rfl⟩

theorem Tidy.serve {label : ServerLabel} (tidy : server.Tidy)
    (taken : server.serve platform label = some next) : next.Tidy := by
  rcases Option.map_eq_some_iff.mp taken with ⟨after, stepped, rfl⟩
  rcases step_continues stepped tidy.living with ⟨living, grows⟩
  refine ⟨living, ?_⟩
  intro id
  have listed := tidy.listed id
  refine ⟨?_, listed.sessions, listed.disconnected, listed.missed⟩
  rw [← List.append_assoc, listed.calls]
  exact (List.prefix_iff_eq_append.mp (grows id))

theorem count_concat_of_ne {id other : Nat} (different : other ≠ id) (list : List Nat) :
    (list ++ [id]).count other = list.count other := by
  rw [List.count_append, List.count_singleton, if_neg, Nat.add_zero]
  exact fun same => different (beq_iff_eq.mp same).symm

theorem count_concat_self (id : Nat) (list : List Nat) :
    (list ++ [id]).count id = list.count id + 1 := by
  rw [List.count_append, List.count_singleton_self]

theorem Listed.other {id other : Nat} {connected : Bool} (listed : server.Listed other)
    (different : other ≠ id) : (server.onConnection id connected).Listed other := by
  cases connected with
  | true =>
      refine ⟨listed.calls, ?_, listed.disconnected, listed.missed⟩
      exact (count_concat_of_ne different _).trans listed.sessions
  | false =>
      rw [onConnection, onClose]
      split
      · refine ⟨listed.calls, ?_, ?_, listed.missed⟩
        · exact (List.count_erase_of_ne different).trans listed.sessions
        · exact (count_concat_of_ne different _).trans listed.disconnected
      · refine ⟨listed.calls, listed.sessions, listed.disconnected, ?_⟩
        exact (count_concat_of_ne different _).trans listed.missed

theorem Listed.own {id : Nat} {connected : Bool} {rest : List Bool} (listed : server.Listed id)
    (waiting : server.waiting id = connected :: rest) (lived : Lived (announced server.server id)) :
    ((server.take id connected rest).onConnection id connected).Listed id := by
  rw [← listed.calls, waiting] at lived
  have handled : (server.take id connected rest).handled id = server.handled id ++ [connected] :=
    Function.update_self _ _ _
  have calls : (server.take id connected rest).handled id ++
      (server.take id connected rest).waiting id = announced server.server id := by
    have left : (server.take id connected rest).waiting id = rest := Function.update_self _ _ _
    rw [handled, left, List.append_assoc, List.singleton_append, ← waiting]
    exact listed.calls
  have sessions := listed.sessions
  have disconnected := listed.disconnected
  have missed := listed.missed
  rcases lived.cut with ⟨first, rfl⟩ | ⟨first, rfl⟩ | ⟨first, rfl⟩
  · rw [first] at sessions disconnected missed handled
    refine ⟨calls, ?_, ?_, ?_⟩
    · change (server.listSessions ++ [id]).count id =
        if (server.take id true rest).handled id = [true] then 1 else 0
      rw [handled, count_concat_self, sessions]
      rfl
    · change server.disconnected.count id =
        if (server.take id true rest).handled id = [true, false] then 1 else 0
      rw [handled, disconnected]
      rfl
    · change server.missed.count id =
        if (server.take id true rest).handled id = [false] then 1 else 0
      rw [handled, missed]
      rfl
  · rw [first] at sessions disconnected missed handled
    have there : id ∈ (server.take id false rest).listSessions :=
      List.count_pos_iff.mp (sessions.symm ▸ Nat.one_pos)
    rw [onConnection, onClose, if_pos there]
    refine ⟨calls, ?_, ?_, ?_⟩
    · change (server.listSessions.erase id).count id =
        if (server.take id false rest).handled id = [true] then 1 else 0
      rw [handled, List.count_erase_self, sessions]
      rfl
    · change (server.disconnected ++ [id]).count id =
        if (server.take id false rest).handled id = [true, false] then 1 else 0
      rw [handled, count_concat_self, disconnected]
      rfl
    · change server.missed.count id =
        if (server.take id false rest).handled id = [false] then 1 else 0
      rw [handled, missed]
      rfl
  · rw [first] at sessions disconnected missed handled
    have missing : id ∉ (server.take id false rest).listSessions :=
      List.count_eq_zero.mp sessions
    rw [onConnection, onClose, if_neg missing]
    refine ⟨calls, ?_, ?_, ?_⟩
    · change server.listSessions.count id =
        if (server.take id false rest).handled id = [true] then 1 else 0
      rw [handled, sessions]
      rfl
    · change server.disconnected.count id =
        if (server.take id false rest).handled id = [true, false] then 1 else 0
      rw [handled, disconnected]
      rfl
    · change (server.missed ++ [id]).count id =
        if (server.take id false rest).handled id = [false] then 1 else 0
      rw [handled, count_concat_self, missed]
      rfl

theorem Listed.take {id other : Nat} {connected : Bool} {rest : List Bool}
    (listed : server.Listed other) (different : other ≠ id) :
    (server.take id connected rest).Listed other := by
  have handled : (server.take id connected rest).handled other = server.handled other :=
    Function.update_of_ne different _ _
  have waiting : (server.take id connected rest).waiting other = server.waiting other :=
    Function.update_of_ne different _ _
  constructor
  · rw [handled, waiting]
    exact listed.calls
  · rw [handled]
    exact listed.sessions
  · rw [handled]
    exact listed.disconnected
  · rw [handled]
    exact listed.missed

theorem server_onConnection (server : MyWebSocketServer) (id : Nat) (connected : Bool) :
    (server.onConnection id connected).server = server.server := by
  cases connected with
  | true => rfl
  | false =>
      rw [onConnection, onClose]
      split
      · rfl
      · rfl

theorem Tidy.lock {id : Nat} {connected : Bool} {rest : List Bool} (tidy : server.Tidy)
    (waiting : server.waiting id = connected :: rest) :
    ((server.take id connected rest).onConnection id connected).Tidy := by
  constructor
  · rw [server_onConnection]
    exact tidy.living
  · intro other
    by_cases same : other = id
    · subst same
      exact (tidy.listed other).own waiting (lived_announced tidy.living other)
    · exact ((tidy.listed other).take same).other same

theorem step_tidy {label : Label} (tidy : server.Tidy)
    (taken : server.step platform label = some next) : next.Tidy := by
  cases label with
  | server label =>
      cases label with
      | leave id =>
          rw [step] at taken
          split at taken
          · exact tidy.serve taken
          · cases taken
      | _ => exact tidy.serve taken
  | lock id =>
      rw [step] at taken
      split at taken
      · next connected rest waiting =>
          cases taken
          exact tidy.lock waiting
      · cases taken

/-- In every run, with the calls of all loops in any order, a connection has a session in the list
exactly while `onConnection` has been called for its being up and not yet for its being down; no
connection has two, `onDisconnect` is called once for each session that was there, and none is
missed but that of a connection that has never been up. -/
theorem sessions_listed_once {name hostport : String} {threadCount : Nat} {labels : List Label}
    (run : (sessionMachine platform).Transitions (create name hostport threadCount) labels
      server) (id : Nat) :
    server.handled id ++ server.waiting id = announced server.server id ∧
      server.listSessions.count id = (if server.handled id = [true] then 1 else 0) ∧
      server.disconnected.count id = (if server.handled id = [true, false] then 1 else 0) ∧
      server.missed.count id = if server.handled id = [false] then 1 else 0 :=
  have tidy : server.Tidy := run.invariant (fun _ _ _ tidy taken => step_tidy tidy taken)
    (tidy_create name hostport threadCount)
  have listed := tidy.listed id
  ⟨listed.calls, listed.sessions, listed.disconnected, listed.missed⟩

/-- Two connections come and one of them goes. -/
theorem sessions_listed_once_two : ∃ server : MyWebSocketServer,
    (server.listSessions, server.disconnected) = ([2], [1]) ∧
      server.missed.count 1 = if server.handled 1 = [false] then 1 else 0 := by
  have facts : (Machine.runPartial (fun server label => step .posix server label)
      (create "S" "H" 0)
      [.server (.act 0 .enter), .server (.act 0 .test),
        .server (.newConnection 1 5 .empty false false), .server (.advance 1 true), .lock 1,
        .server (.leave 1), .server (.newConnection 2 6 .empty false false),
        .server (.advance 2 true), .lock 2, .server (.leave 2),
        .server (.event 1 XPOLLHUP .endOfStream (.accepted 0)), .server (.advance 1 true),
        .server (.advance 1 true), .lock 1]).map
      (fun server => (server.listSessions, server.disconnected)) = some ([2], [1]) := by
    decide +kernel
  rcases Option.map_eq_some_iff.mp facts with ⟨server, ran, lists⟩
  exact ⟨server, lists, (sessions_listed_once (Machine.transitions_of_runPartial ran) 1).2.2.2⟩

end MyWebSocketServer

end MyBookSources.WebSocket
