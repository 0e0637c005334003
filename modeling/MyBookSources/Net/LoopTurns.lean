import MyBookSources.Net.ServerRemoval
import Mathlib.Data.Int.CardIntervalMod

/-! # The loops of the pool in turn

`getNextLoop` goes round the loops of the pool, and only `newConnection` calls it. So the loop of a
connection follows from how many connections came before it, whatever happened between, and
no loop of the pool gets more than one connection more than another.
-/

namespace MyBookSources.Net.TcpServer

/-- The loop that the connection with the number `id` lives on. -/
def loopOf (server : TcpServer) (id : Nat) : Option Nat :=
  (server.created id).map ServerConnection.loop

def load (server : TcpServer) (loop : Nat) : Nat :=
  Nat.count (fun id => server.loopOf id = some loop) server.nextConnId

/-- The loop whose turn it is for the connection with the number `id`. -/
def turn (numThreads id : Nat) : Nat := if numThreads = 0 then 0 else (id - 1) % numThreads + 1

/-- The connections so far live on the loops in turn, and `next_` is the next one. -/
structure InTurn (numThreads : Nat) (server : TcpServer) : Prop where
  threads : server.numThreads = numThreads
  started : 1 ≤ server.nextConnId
  next : numThreads ≠ 0 → server.next = (server.nextConnId - 1) % numThreads
  loops : ∀ id, server.loopOf id =
    if 1 ≤ id ∧ id < server.nextConnId then some (turn numThreads id) else none

variable {server next : TcpServer} {platform : Platform} {numThreads : Nat}

theorem create_inTurn (name hostport : String) (numThreads : Nat) :
    (create name hostport numThreads).InTurn numThreads where
  threads := rfl
  started := Nat.le_refl 1
  next _ := (Nat.zero_mod _).symm
  loops id := by
    change (none : Option Nat) = _
    rw [if_neg]
    change ¬ (1 ≤ id ∧ id < 1)
    omega

/-! ## What leaves the turns alone -/

/-- No connection is created and none moves to another loop. -/
structure SamePlaces (server next : TcpServer) : Prop where
  threads : next.numThreads = server.numThreads
  turn : next.next = server.next
  number : next.nextConnId = server.nextConnId
  loops : ∀ id, next.loopOf id = server.loopOf id

theorem SamePlaces.refl (server : TcpServer) : SamePlaces server server :=
  ⟨rfl, rfl, rfl, fun _ => rfl⟩

theorem SamePlaces.trans {last : TcpServer} (first : SamePlaces server next)
    (second : SamePlaces next last) : SamePlaces server last where
  threads := second.threads.trans first.threads
  turn := second.turn.trans first.turn
  number := second.number.trans first.number
  loops id := (second.loops id).trans (first.loops id)

theorem InTurn.of_samePlaces (inTurn : server.InTurn numThreads)
    (same : SamePlaces server next) : next.InTurn numThreads where
  threads := same.threads.trans inTurn.threads
  started := same.number ▸ inTurn.started
  next some_thread := by
    rw [same.turn, same.number]
    exact inTurn.next some_thread
  loops id := by
    rw [same.loops, same.number]
    exact inTurn.loops id

theorem SamePlaces.of_created (threads : next.numThreads = server.numThreads)
    (turn : next.next = server.next) (number : next.nextConnId = server.nextConnId)
    (created : next.created = server.created) : SamePlaces server next where
  threads := threads
  turn := turn
  number := number
  loops id := by rw [loopOf, loopOf, created]

theorem SamePlaces.setConfig {id : Nat} {connection : ServerConnection}
    (here : server.created id = some connection) (config : Config) :
    SamePlaces server (server.setConfig id connection config) where
  threads := rfl
  turn := rfl
  number := rfl
  loops other := by
    rw [loopOf, loopOf, TcpServer.setConfig]
    dsimp only
    by_cases same : other = id
    · rw [same, Function.update_self, here]
      rfl
    · rw [Function.update_of_ne same]

theorem SamePlaces.stepConnection {id : Nat} {label : Label}
    (taken : server.stepConnection platform id label = some next) : SamePlaces server next := by
  rcases stepConnection_moves taken with ⟨connection, config, here, _, rfl⟩
  exact .setConfig here config

theorem SamePlaces.enter {loop id : Nat} {call : Call}
    (taken : server.enter platform loop id call = some next) : SamePlaces server next :=
  .stepConnection (enter_eq taken).1

theorem SamePlaces.removeConnectionInLoop (server : TcpServer) (id : Nat) :
    SamePlaces server (server.removeConnectionInLoop id) := by
  rw [TcpServer.removeConnectionInLoop]
  split
  · exact .refl server
  · split
    · exact .refl server
    · exact .of_created rfl rfl rfl rfl

theorem SamePlaces.removeConnection (server : TcpServer) (id : Nat) :
    SamePlaces server (server.removeConnection id) := by
  rw [TcpServer.removeConnection]
  split
  · exact .refl server
  · split
    · exact .removeConnectionInLoop server id
    · exact .of_created rfl rfl rfl rfl

theorem SamePlaces.close {id : Nat} (taken : server.close platform id = some next) :
    SamePlaces server next := by
  rcases Option.map_eq_some_iff.mp taken with ⟨left, both, rfl⟩
  rcases Option.bind_eq_some_iff.mp both with ⟨delivered, first, second⟩
  have stepped := (SamePlaces.stepConnection first).trans (.stepConnection second)
  exact stepped.trans (.removeConnection left id)

theorem SamePlaces.callFunctor {loop : Nat} {functor : ServerFunctor}
    (called : server.callFunctor platform loop functor = some next) : SamePlaces server next := by
  cases functor with
  | connectEstablished id => exact .enter called
  | connectDestroyed id => exact .enter called
  | removeConnectionInLoop id =>
      rw [TcpServer.callFunctor] at called
      split at called
      · cases called
        exact .removeConnectionInLoop server id
      · cases called

theorem SamePlaces.destroy {key : String} (taken : server.destroy platform key = some next) :
    SamePlaces server next := by
  rw [TcpServer.destroy] at taken
  split at taken
  · split at taken
    · cases taken
    · split at taken
      · have entered := SamePlaces.enter taken
        exact ⟨entered.threads, entered.turn, entered.number, entered.loops⟩
      · cases taken
        exact .of_created rfl rfl rfl rfl
  · cases taken

/-! ## `newConnection` -/

theorem newConnection_places {endpoint : Endpoint}
    (taken : server.newConnection platform endpoint = some next) :
    SamePlaces (server.getNextLoop.2.addConnection server.getNextLoop.1 endpoint) next := by
  rw [newConnection, establish] at taken
  split at taken
  · exact .enter taken
  · cases taken
    exact .of_created rfl rfl rfl rfl

theorem getNextLoop_turn (inTurn : server.InTurn numThreads) :
    server.getNextLoop.1 = turn numThreads server.nextConnId ∧
      (numThreads ≠ 0 → server.getNextLoop.2.next = server.nextConnId % numThreads) := by
  have number : server.nextConnId = server.nextConnId - 1 + 1 := by
    have started := inTurn.started
    omega
  rw [getNextLoop, turn, inTurn.threads]
  split
  · next none => exact ⟨rfl, fun some_thread => absurd none some_thread⟩
  · next some_thread =>
      constructor
      · rw [inTurn.next some_thread]
      · intro _
        dsimp only
        have here := inTurn.next some_thread
        have small := Nat.mod_lt (server.nextConnId - 1) (Nat.pos_of_ne_zero some_thread)
        have next : server.nextConnId % numThreads =
            ((server.nextConnId - 1) % numThreads + 1) % numThreads := by
          rw [Nat.mod_add_mod, ← number]
        rw [next, here]
        split
        · next last =>
            have full : (server.nextConnId - 1) % numThreads + 1 = numThreads := by omega
            rw [full, Nat.mod_self]
        · next inside => exact (Nat.mod_eq_of_lt (Nat.lt_of_not_le inside)).symm

theorem InTurn.addConnection (inTurn : server.InTurn numThreads) (endpoint : Endpoint) :
    (server.getNextLoop.2.addConnection server.getNextLoop.1 endpoint).InTurn numThreads := by
  rcases getNextLoop_turn inTurn with ⟨loop, turned⟩
  have same : server.getNextLoop.2.numThreads = server.numThreads ∧
      server.getNextLoop.2.nextConnId = server.nextConnId ∧
      server.getNextLoop.2.created = server.created := by
    rcases server.getNextLoop_eq with ⟨next, chosen⟩
    rw [chosen]
    exact ⟨rfl, rfl, rfl⟩
  rcases same with ⟨threads, number, created⟩
  constructor
  · exact threads.trans inTurn.threads
  · exact Nat.le_add_left 1 _
  · intro some_thread
    change server.getNextLoop.2.next = (server.getNextLoop.2.nextConnId + 1 - 1) % numThreads
    rw [turned some_thread, number, Nat.add_sub_cancel]
  · intro id
    rw [loopOf, TcpServer.addConnection]
    dsimp only
    rw [number, created]
    by_cases added : id = server.nextConnId
    · rw [added, Function.update_self, if_pos ⟨inTurn.started, Nat.lt_succ_self _⟩, ← loop]
      rfl
    · rw [Function.update_of_ne added]
      refine (inTurn.loops id).trans (if_congr ?_ rfl rfl)
      omega

theorem InTurn.newConnection (inTurn : server.InTurn numThreads) {endpoint : Endpoint}
    (taken : server.newConnection platform endpoint = some next) : next.InTurn numThreads :=
  (inTurn.addConnection endpoint).of_samePlaces (newConnection_places taken)

theorem step_inTurn {label : ServerLabel} (inTurn : server.InTurn numThreads)
    (taken : (serverMachine platform).Step server label next) : next.InTurn numThreads := by
  cases step_moves taken with
  | act => exact inTurn.of_samePlaces (.of_created rfl rfl rfl rfl)
  | call free phase called =>
      have same := SamePlaces.callFunctor called
      exact inTurn.of_samePlaces ⟨same.threads, same.turn, same.number, same.loops⟩
  | event here handling moved => exact inTurn.of_samePlaces (.stepConnection moved)
  | use here public_call runs moved => exact inTurn.of_samePlaces (.stepConnection moved)
  | dispatch here between moved => exact inTurn.of_samePlaces (.stepConnection moved)
  | close closing closed => exact inTurn.of_samePlaces (.close closed)
  | advance closing moved => exact inTurn.of_samePlaces (.stepConnection moved)
  | leave moved => exact inTurn.of_samePlaces (.stepConnection moved)
  | newConnection free handling created => exact inTurn.newConnection created
  | destroy walking destroyed => exact inTurn.of_samePlaces (.destroy destroyed)
  | stopAgain => exact inTurn
  | _ => exact inTurn.of_samePlaces (.of_created rfl rfl rfl rfl)

theorem inTurn_of_transitions {name hostport : String} {labels : List ServerLabel}
    (transitions : (serverMachine platform).Transitions (.create name hostport numThreads) labels
      server) : server.InTurn numThreads :=
  transitions.invariant (fun _ _ _ inTurn taken => step_inTurn inTurn taken)
    (create_inTurn name hostport numThreads)

/-! ## How many connections a loop gets -/

theorem InTurn.load (inTurn : server.InTurn numThreads) {loop : Nat} (pool : loop < numThreads) :
    server.load (loop + 1) = (server.nextConnId - 1) / numThreads +
      if loop < (server.nextConnId - 1) % numThreads then 1 else 0 := by
  have some_thread : 0 < numThreads := by omega
  have number : server.nextConnId = server.nextConnId - 1 + 1 := by
    have started := inTurn.started
    omega
  have counted : ∀ bound, bound + 1 ≤ server.nextConnId →
      Nat.count (fun id => server.loopOf id = some (loop + 1)) (bound + 1) =
        Nat.count (· ≡ loop [MOD numThreads]) bound := by
    intro bound
    induction bound with
    | zero =>
        intro _
        rw [Nat.count_succ, if_neg, Nat.count_zero, Nat.count_zero]
        rw [inTurn.loops, if_neg (by omega)]
        simp
    | succ bound induction =>
        intro inside
        rw [Nat.count_succ, induction (by omega), Nat.count_succ]
        congr 1
        apply if_congr _ rfl rfl
        rw [inTurn.loops, if_pos ⟨by omega, by omega⟩, turn, if_neg (by omega)]
        simp [Nat.ModEq, Nat.mod_eq_of_lt pool]
  rw [TcpServer.load, number, counted _ (by omega), Nat.count_modEq_card _ some_thread,
    Nat.mod_eq_of_lt pool, Nat.add_sub_cancel]

/-- In every run of the server, whatever is accepted, removed and stopped in any order, the
connection with the number `id` lives on the loop whose turn it was, and of any two loops of the
pool one has been given at most one connection more than the other. -/
theorem connections_in_turn {name hostport : String} {labels : List ServerLabel}
    (transitions : (serverMachine platform).Transitions (.create name hostport numThreads) labels
      server) :
    (∀ id connection, server.created id = some connection →
      connection.loop = turn numThreads id) ∧
    ∀ first second, 1 ≤ first → first ≤ numThreads → 1 ≤ second → second ≤ numThreads →
      server.load first ≤ server.load second + 1 := by
  have inTurn := inTurn_of_transitions transitions
  constructor
  · intro id connection here
    have place := inTurn.loops id
    rw [loopOf, here] at place
    split at place
    · exact Option.some.inj place
    · cases place
  · intro first second some_first bound some_second bound'
    rw [show first = first - 1 + 1 by omega, show second = second - 1 + 1 by omega,
      inTurn.load (show first - 1 < numThreads by omega),
      inTurn.load (show second - 1 < numThreads by omega)]
    split <;> split <;> omega

/-- Three connections on a pool of two threads. -/
theorem connections_in_turn_three : ∃ server : TcpServer,
    (server.loopOf 1, server.loopOf 2, server.loopOf 3) = (some 1, some 2, some 1) ∧
      server.load 1 ≤ server.load 2 + 1 := by
  have facts : (Machine.runPartial (fun server label => TcpServer.step server .posix label)
      (create "S" "H" 2)
      [.act 0 .enter, .act 0 .test, .newConnection 1 5 .empty false false,
        .newConnection 2 6 .empty false false, .newConnection 3 7 .empty false false]).map
      (fun server => (server.loopOf 1, server.loopOf 2, server.loopOf 3)) =
        some (some 1, some 2, some 1) := by
    decide +kernel
  rcases Option.map_eq_some_iff.mp facts with ⟨server, ran, places⟩
  have even := (connections_in_turn (Machine.transitions_of_runPartial ran)).2
  exact ⟨server, places, even 1 2 (by decide) (by decide) (by decide) (by decide)⟩

end MyBookSources.Net.TcpServer
