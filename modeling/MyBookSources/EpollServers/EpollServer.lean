import Mathlib.Logic.Function.Basic
import MyBookSources.Foundation.Execution
import MyBookSources.Foundation.Readiness

/-! # The epoll servers

Five servers with one loop. They differ in what they watch a client for, in how much they receive
at a time, and in what they do behind that: nothing, or `EPOLL_CTL_MOD` with new events.
-/

namespace MyBookSources.EpollServers

open Readiness (Events Entry)

/-- `again` are the events of `EPOLL_CTL_MOD` after data was received, and `closesUnlessAgain`
tells whether the client is closed if that call fails. -/
structure Program where
  clientEvents : Events
  bufferSize : Nat
  again : Option Events
  closesUnlessAgain : Bool

def epollServer : Program where
  clientEvents := ⟨true, false, false, false⟩
  bufferSize := 1
  again := none
  closesUnlessAgain := false

def epollServerWriteEventLt : Program where
  clientEvents := ⟨true, true, false, false⟩
  bufferSize := 1024
  again := none
  closesUnlessAgain := false

def epollServerWriteEventEt : Program where
  clientEvents := ⟨true, true, true, false⟩
  bufferSize := 1024
  again := some ⟨true, true, true, false⟩
  closesUnlessAgain := false

def epollServerWithOneshot : Program where
  clientEvents := ⟨true, false, false, true⟩
  bufferSize := 1
  again := none
  closesUnlessAgain := false

def epollServerWithOneshot2 : Program where
  clientEvents := ⟨true, false, false, true⟩
  bufferSize := 1
  again := some ⟨true, false, false, false⟩
  closesUnlessAgain := true

/-- A client's socket. `id` counts the connections, `ended` says that the peer will send no more,
`broken` that `recv` fails then. -/
structure Client where
  id : Nat
  unread : Bytes
  ended : Bool
  broken : Bool
  entry : Entry

def Client.readable (client : Client) : Bool := !client.unread.isEmpty || client.ended

/-- A client behind `EPOLL_CTL_ADD`. -/
def Client.watched (program : Program) (id : Nat) (unread : Bytes) (ended broken : Bool) :
    Client where
  id := id
  unread := unread
  ended := ended
  broken := broken
  entry := .register program.clientEvents (!unread.isEmpty || ended)

/-- An element of `epoll_events`. There is no `fd` for the listening socket. -/
structure Event where
  fd : Option Nat
  id : Nat
  input : Bool

/-- `connected` counts the connections so far, `waiting` those to be accepted. `again` is the
client that `EPOLL_CTL_MOD` comes next for, `log` what each call of `recv` has given. -/
structure Server where
  clients : Nat → Option Client
  connected : Nat
  waiting : Nat
  batch : List Event
  again : Option Nat
  running : Bool
  log : List (Nat × Bytes)

/-- What `recv` comes to. -/
inductive Received
  | data
  | closed
  | wouldBlock
  | interrupted
  | failed
  deriving DecidableEq

namespace Server

def create : Server where
  clients _ := none
  connected := 0
  waiting := 0
  batch := []
  again := none
  running := true
  log := []

variable (server : Server)

def assign (fd : Nat) (client : Option Client) : Server :=
  { server with clients := Function.update server.clients fd client }

def change (fd : Nat) (update : Client → Client) : Server :=
  server.assign fd ((server.clients fd).map update)

/-! ## The system -/

/-- `arrive` is only for a peer that has not ended. -/
def arrive (fd : Nat) (data : Bytes) : Option Server :=
  match server.clients fd with
  | some client =>
      if client.ended ∨ data = [] then none
      else
        some (server.assign fd (some { client with
          unread := client.unread ++ data, entry := client.entry.notify }))
  | none => none

def finish (fd : Nat) (broken : Bool) : Option Server :=
  match server.clients fd with
  | some client =>
      some (server.assign fd (some { client with
        ended := true, broken := broken, entry := client.entry.notify }))
  | none => none

def drop (fd : Nat) : Option Server :=
  match server.clients fd with
  | some client =>
      if client.entry.reports client.readable then none
      else some (server.assign fd (some { client with entry := client.entry.drop }))
  | none => none

/-- `epoll_wait` can report this. -/
def reports : Option Nat → Bool
  | none => decide (0 < server.waiting)
  | some fd =>
      match server.clients fd with
      | some client => client.entry.reports client.readable
      | none => false

def event (fd : Option Nat) : Event :=
  match fd.bind server.clients with
  | some client => ⟨fd, client.id, client.entry.events.input && client.readable⟩
  | none => ⟨none, 0, true⟩

def wait (fds : List (Option Nat)) : Option Server :=
  if server.batch = [] ∧ server.again = none ∧ fds.Nodup ∧ fds.length ≤ 1024 ∧
      ∀ fd ∈ fds, server.reports fd = true then
    some { server with
      batch := fds.map server.event
      clients := fun fd =>
        if some fd ∈ fds then
          (server.clients fd).map fun client => { client with entry := client.entry.report }
        else server.clients fd }
  else none

/-! ## The program -/

/-- `EPOLL_CTL_DEL` and `close`. -/
def closeClient (fd : Nat) : Server := server.assign fd none

/-- What is done for a new connection: unless `fcntl` or `EPOLL_CTL_ADD` fails it is watched. The
peer may have sent something before. -/
def accept (program : Program) (fd : Nat) (unread : Bytes) (ended broken added : Bool) :
    Option Server :=
  if 0 < server.waiting ∧ server.clients fd = none then
    let accepted :=
      { server with waiting := server.waiting - 1, connected := server.connected + 1 }
    if added then
      some (accepted.assign fd (some (.watched program server.connected unread ended broken)))
    else some accepted
  else none

/-- Behind `recv` on a client, with what the loop does next. -/
def receive (program : Program) (fd : Nat) (client : Client) : Received → Option Server
  | .data =>
      if client.unread = [] then none
      else
        let data := client.unread.take program.bufferSize
        some { server.assign fd (some { client with
            unread := client.unread.drop program.bufferSize }) with
          again := program.again.map fun _ => fd
          log := server.log ++ [(client.id, data)] }
  | .closed =>
      if client.unread = [] ∧ client.ended ∧ ¬ client.broken then
        some { server.closeClient fd with log := server.log ++ [(client.id, [])] }
      else none
  | .wouldBlock =>
      if client.unread = [] ∧ ¬ client.ended then
        some { server with log := server.log ++ [(client.id, [])] }
      else none
  | .interrupted => some { server with log := server.log ++ [(client.id, [])] }
  | .failed =>
      if client.unread = [] ∧ client.ended ∧ client.broken then
        some { server.closeClient fd with log := server.log ++ [(client.id, [])] }
      else none

def modify (program : Program) (fd : Nat) (succeeds : Bool) : Server :=
  let done := { server with again := none }
  if succeeds then
    match program.again with
    | some events =>
        done.change fd fun client => { client with entry := .register events client.readable }
    | none => done
  else if program.closesUnlessAgain then done.closeClient fd
  else done

inductive Label
  | connect
  | arrive (fd : Nat) (data : Bytes)
  | finish (fd : Nat) (broken : Bool)
  | drop (fd : Nat)
  | wait (fds : List (Option Nat))
  | fail
  | accept (fd : Nat) (unread : Bytes) (ended broken added : Bool)
  | acceptFails
  | receive (received : Received)
  /-- An event that is not for input. -/
  | skip
  | modify (succeeds : Bool)
  deriving DecidableEq

def handle (program : Program) (event : Event) (rest : List Event) : Label → Option Server
  | .accept fd unread ended broken added =>
      if event.fd = none then
        { server with batch := rest }.accept program fd unread ended broken added
      else none
  | .acceptFails => if event.fd = none then some { server with batch := rest } else none
  | .receive received =>
      match event.fd with
      | some fd =>
          match server.clients fd with
          | some client =>
              if event.input then
                { server with batch := rest }.receive program fd client received
              else none
          | none => none
      | none => none
  | .skip => if event.input then none else some { server with batch := rest }
  | _ => none

def work (program : Program) (label : Label) : Option Server :=
  match server.again, server.batch with
  | none, event :: rest => server.handle program event rest label
  | _, _ => none

def step (program : Program) (server : Server) : Label → Option Server
  | .connect => some { server with waiting := server.waiting + 1 }
  | .arrive fd data => server.arrive fd data
  | .finish fd broken => server.finish fd broken
  | .drop fd => server.drop fd
  | .wait fds => if server.running then server.wait fds else none
  | .fail =>
      if server.running ∧ server.batch = [] ∧ server.again = none then
        some { server with running := false }
      else none
  | .modify succeeds =>
      match server.again with
      | some fd => some (server.modify program fd succeeds)
      | none => none
  | label => server.work program label

end Server

/-- The loop of a program, the system and its peers, in any order. -/
def serverMachine (program : Program) : Machine Server Server.Label :=
  .ofPartial (Server.step program)

namespace Server

variable {program : Program} {server next : Server}

theorem client_of_assign {fd other : Nat} {client : Option Client} {found : Client}
    (there : (server.assign fd client).clients other = some found) :
    other = fd ∧ client = some found ∨ other ≠ fd ∧ server.clients other = some found := by
  change Function.update server.clients fd client other = some found at there
  by_cases same : other = fd
  · subst same
    rw [Function.update_self] at there
    exact .inl ⟨rfl, there⟩
  · rw [Function.update_of_ne same] at there
    exact .inr ⟨same, there⟩

/-! ## What a step does -/

/-- Each field says how the state before looks and what the step has to do with it. -/
inductive Change (program : Program) (server : Server) : Label → Server → Prop
  | counts {label : Label} (waiting : Nat) (running : Bool) :
      Change program server label { server with waiting := waiting, running := running }
  | notified {label : Label} {fd : Nat} {client : Client} (here : server.clients fd = some client)
      (unread : Bytes) (ended broken : Bool)
      (more : client.readable = true → (!unread.isEmpty || ended) = true) :
      Change program server label (server.assign fd (some { client with
        unread := unread, ended := ended, broken := broken, entry := client.entry.notify }))
  | dropped {label : Label} {fd : Nat} {client : Client} (here : server.clients fd = some client)
      (quiet : client.entry.reports client.readable = false) :
      Change program server label (server.assign fd (some { client with
        entry := client.entry.drop }))
  | waited {label : Label} {fds : List (Option Nat)} (empty : server.batch = [])
      (free : server.again = none) (distinct : fds.Nodup)
      (ready : ∀ fd ∈ fds, server.reports fd = true) :
      Change program server label { server with
        batch := fds.map server.event
        clients := fun fd =>
          if some fd ∈ fds then
            (server.clients fd).map fun client => { client with entry := client.entry.report }
          else server.clients fd }
  | passed {label : Label} {event : Event} {rest : List Event}
      (batch : server.batch = event :: rest) (free : server.again = none)
      (other : event.fd = none ∨ event.input = false) (waiting connected : Nat)
      (more : server.connected ≤ connected) :
      Change program server label { server with
        batch := rest, waiting := waiting, connected := connected }
  | accepted {label : Label} {event : Event} {rest : List Event} {fd : Nat}
      (batch : server.batch = event :: rest) (free : server.again = none)
      (listening : event.fd = none) (fresh : server.clients fd = none) (waiting : Nat)
      (unread : Bytes) (ended broken : Bool) :
      Change program server label (assign { server with
        batch := rest, waiting := waiting, connected := server.connected + 1 } fd
          (some (.watched program server.connected unread ended broken)))
  | received {label : Label} {event : Event} {rest : List Event} {fd : Nat} {client : Client}
      (batch : server.batch = event :: rest) (free : server.again = none)
      (own : event.fd = some fd) (input : event.input = true)
      (here : server.clients fd = some client) (unread : client.unread ≠ []) :
      Change program server label { assign { server with batch := rest } fd (some { client with
          unread := client.unread.drop program.bufferSize }) with
        again := program.again.map fun _ => fd
        log := server.log ++ [(client.id, client.unread.take program.bufferSize)] }
  | closed {label : Label} {event : Event} {rest : List Event} {fd : Nat} {client : Client}
      (batch : server.batch = event :: rest) (free : server.again = none)
      (own : event.fd = some fd) (input : event.input = true)
      (here : server.clients fd = some client) :
      Change program server label { closeClient { server with batch := rest } fd with
        log := server.log ++ [(client.id, [])] }
  | missed {label : Label} {event : Event} {rest : List Event} {fd : Nat} {client : Client}
      (batch : server.batch = event :: rest) (free : server.again = none)
      (own : event.fd = some fd) (input : event.input = true)
      (here : server.clients fd = some client)
      (nothing : label = .receive .interrupted ∨ client.readable = false) :
      Change program server label { server with
        batch := rest, log := server.log ++ [(client.id, [])] }
  | modified {label : Label} {fd : Nat} {events : Events} (again : server.again = some fd)
      (registers : program.again = some events) :
      Change program server label (change { server with again := none } fd fun client =>
        { client with entry := .register events client.readable })
  | unmodified {label : Label} {fd : Nat} (again : server.again = some fd)
      (failed : program.again = none ∨
        label = .modify false ∧ program.closesUnlessAgain = false) :
      Change program server label { server with again := none }
  | abandoned {label : Label} {fd : Nat} (again : server.again = some fd) :
      Change program server label (closeClient { server with again := none } fd)

theorem receive_changes {event : Event} {rest : List Event} {fd : Nat} {client : Client}
    {received : Received} (batch : server.batch = event :: rest) (free : server.again = none)
    (own : event.fd = some fd) (input : event.input = true)
    (here : server.clients fd = some client)
    (taken : { server with batch := rest }.receive program fd client received = some next) :
    Change program server (.receive received) next := by
  cases received with
  | data =>
      rw [receive] at taken
      split at taken
      · cases taken
      · next unread =>
          cases taken
          exact .received batch free own input here unread
  | closed =>
      rw [receive] at taken
      split at taken
      · cases taken
        exact .closed batch free own input here
      · cases taken
  | wouldBlock =>
      rw [receive] at taken
      split at taken
      · next nothing =>
          cases taken
          refine .missed batch free own input here (.inr ?_)
          rw [Client.readable, nothing.1, Bool.eq_false_iff.mpr nothing.2]
          rfl
      · cases taken
  | interrupted =>
      cases taken
      exact .missed batch free own input here (.inl rfl)
  | failed =>
      rw [receive] at taken
      split at taken
      · cases taken
        exact .closed batch free own input here
      · cases taken

theorem handle_changes {event : Event} {rest : List Event} {label : Label}
    (batch : server.batch = event :: rest) (free : server.again = none)
    (taken : server.handle program event rest label = some next) :
    Change program server label next := by
  cases label with
  | accept fd unread ended broken added =>
      rw [handle] at taken
      split at taken
      · next listening =>
          rw [accept] at taken
          split at taken
          · next allowed =>
              dsimp only at taken
              split at taken
              · cases taken
                exact .accepted batch free listening allowed.2 _ unread ended broken
              · cases taken
                exact .passed batch free (.inl listening) _ _ (Nat.le_succ _)
          · cases taken
      · cases taken
  | acceptFails =>
      rw [handle] at taken
      split at taken
      · next listening =>
          cases taken
          exact .passed batch free (.inl listening) _ _ (Nat.le_refl _)
      · cases taken
  | receive received =>
      rw [handle] at taken
      split at taken
      · next fd own =>
          split at taken
          · next client here =>
              split at taken
              · next input => exact receive_changes batch free own input here taken
              · cases taken
          · cases taken
      · cases taken
  | skip =>
      rw [handle] at taken
      split at taken
      · cases taken
      · next output =>
          cases taken
          exact .passed batch free (.inr (Bool.eq_false_iff.mpr output)) _ _ (Nat.le_refl _)
  | connect => cases taken
  | arrive fd data => cases taken
  | finish fd broken => cases taken
  | drop fd => cases taken
  | wait fds => cases taken
  | fail => cases taken
  | modify succeeds => cases taken

theorem modify_changes {fd : Nat} {succeeds : Bool} (again : server.again = some fd) :
    Change program server (.modify succeeds) (server.modify program fd succeeds) := by
  rw [modify]
  cases succeeds with
  | true =>
      rw [if_pos rfl]
      cases registers : program.again with
      | none => exact .unmodified again (.inl registers)
      | some events => exact .modified again registers
  | false =>
      rw [if_neg Bool.false_ne_true]
      split
      · exact .abandoned again
      · next stays => exact .unmodified again (.inr ⟨rfl, Bool.eq_false_iff.mpr stays⟩)

theorem work_changes {label : Label} (taken : server.work program label = some next) :
    Change program server label next := by
  rw [work] at taken
  split at taken
  · next free batch => exact handle_changes batch free taken
  · cases taken

theorem step_changes {label : Label} (taken : server.step program label = some next) :
    Change program server label next := by
  cases label with
  | connect =>
      cases taken
      exact .counts _ _
  | arrive fd data =>
      rw [step, arrive] at taken
      split at taken
      · next client here =>
          split at taken
          · cases taken
          · next sends =>
              cases taken
              refine .notified here _ client.ended client.broken ?_
              intro _
              rw [List.isEmpty_eq_false_iff.mpr, Bool.not_false, Bool.true_or]
              intro nothing
              exact sends (.inr (List.append_eq_nil_iff.mp nothing).2)
      · cases taken
  | finish fd broken =>
      rw [step, finish] at taken
      split at taken
      · next client here =>
          cases taken
          refine .notified here client.unread true broken ?_
          intro _
          exact Bool.or_true _
      · cases taken
  | drop fd =>
      rw [step, drop] at taken
      split at taken
      · next client here =>
          split at taken
          · cases taken
          · next quiet =>
              cases taken
              exact .dropped here (Bool.eq_false_iff.mpr quiet)
      · cases taken
  | wait fds =>
      rw [step] at taken
      split at taken
      · rw [wait] at taken
        split at taken
        · next allowed =>
            cases taken
            exact .waited allowed.1 allowed.2.1 allowed.2.2.1 allowed.2.2.2.2
        · cases taken
      · cases taken
  | fail =>
      rw [step] at taken
      split at taken
      · cases taken
        exact .counts _ _
      · cases taken
  | modify succeeds =>
      rw [step] at taken
      split at taken
      · next fd again =>
          cases taken
          exact modify_changes again
      · cases taken
  | accept fd unread ended broken added => exact work_changes taken
  | acceptFails => exact work_changes taken
  | receive received => exact work_changes taken
  | skip => exact work_changes taken

end Server

end MyBookSources.EpollServers
