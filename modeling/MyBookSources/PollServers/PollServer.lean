import MyBookSources.Foundation.Execution
import MyBookSources.Foundation.Handles
import MyBookSources.Net.Sockets

/-! # The poll server

One array holds the listening socket and the clients. A client that is closed leaves its place
marked, and the marked places are removed when the round is through.
-/

namespace MyBookSources.PollServers

open Net (Errno ReadResult)

/-- There is no `fd` in a marked place. `revents` is about `POLLIN`. -/
structure Pollfd where
  fd : Option Nat
  revents : Bool
  deriving DecidableEq

/-- Before `poll`, at a place of the array, behind the loop, or at the end. -/
inductive Place
  | polling
  | looping (i : Nat)
  | left
  | finished
  deriving DecidableEq

/-- `errno` is what the last call that failed has set. `reported` are the descriptors that the
last `poll` has told of, in the order of the array, `served` those that `accept` or `recv` was
called for since. `ended` are the numbers of the clients whose end has been read. -/
structure PollServer where
  listenfd : Nat
  fds : List Pollfd
  existInvalidFd : Bool
  errno : Errno
  place : Place
  handles : HandleTable Nat
  reported : List Nat
  served : List Nat
  ended : List Nat

/-- What `accept` and the `fcntl` behind it come to. -/
inductive Accepted
  | failed (errno : Errno)
  | refused (fd : Nat) (errno : Errno)
  | added (fd : Nat)
  deriving DecidableEq

inductive Label
  | poll (ready : List Nat)
  | pollFails (errno : Errno)
  | pollTimesOut
  | accept (accepted : Accepted)
  | receive (received : ReadResult)
  | pass
  | sweep
  | closeAll
  deriving DecidableEq

def Pollfd.report (pollfd : Pollfd) (ready : List Nat) : Pollfd :=
  { pollfd with revents := pollfd.fd.any fun fd => decide (fd ∈ ready) }

/-- What `revents` tells of. -/
def Pollfd.readable (pollfd : Pollfd) : Option Nat := if pollfd.revents then pollfd.fd else none

def held (fds : List Pollfd) : List Nat := fds.filterMap Pollfd.fd

def mark (fd : Nat) : List Pollfd → List Pollfd
  | [] => []
  | pollfd :: rest =>
      if pollfd.fd = some fd then { pollfd with fd := none } :: rest else pollfd :: mark fd rest

def keeps (errno : Errno) : Bool := errno = .EINTR || errno = .EWOULDBLOCK

namespace PollServer

def create (listenfd : Nat) (errno : Errno) : PollServer where
  listenfd := listenfd
  fds := [⟨some listenfd, false⟩]
  existInvalidFd := false
  errno := errno
  place := .polling
  handles := HandleTable.empty.create listenfd
  reported := []
  served := []
  ended := []

variable (server : PollServer)

def acceptClient : Accepted → Option PollServer
  | .failed errno => some { server with errno := errno }
  | .refused fd errno =>
      if server.handles.isOpen fd then none
      else some { server with
        errno := errno
        handles := (server.handles.create fd).close fd }
  | .added fd =>
      if server.handles.isOpen fd then none
      else some { server with
        fds := server.fds ++ [⟨some fd, false⟩]
        handles := server.handles.create fd }

/-- `errno` is looked at behind each `recv` that gives nothing, also if it has not failed. -/
def closeClient (fd : Nat) : PollServer :=
  if keeps server.errno then server
  else
    { server with
      fds := mark fd server.fds
      existInvalidFd := true
      handles := server.handles.close fd }

def receiveFrom (fd : Nat) : ReadResult → PollServer
  | .received _ => server
  | .endOfStream =>
      { server.closeClient fd with
        ended := server.ended ++ (server.handles.named fd).toList }
  | .failed errno => { server with errno := errno }.closeClient fd

/-- The call for `fd` has been made, the loop goes on. -/
def proceed (i fd : Nat) : PollServer :=
  { server with served := server.served ++ [fd], place := .looping (i + 1) }

/-- What is done with the place `i`. Behind the loop `existInvalidFd` is set back for the next
round. -/
def visit (i : Nat) (label : Label) : Option PollServer :=
  match server.fds[i]?, label with
  | some ⟨some fd, true⟩, .accept accepted =>
      if fd = server.listenfd then
        (server.acceptClient accepted).map fun next => next.proceed i fd
      else none
  | some ⟨some fd, true⟩, .receive received =>
      if fd = server.listenfd then none
      else some ((server.receiveFrom fd received).proceed i fd)
  | some ⟨_, false⟩, .pass => some { server with place := .looping (i + 1) }
  | none, .sweep =>
      some { server with
        fds := if server.existInvalidFd then server.fds.filter (·.fd ≠ none) else server.fds
        existInvalidFd := false
        place := .polling }
  | _, _ => none

def step (server : PollServer) (label : Label) : Option PollServer :=
  match server.place, label with
  | .polling, .poll ready =>
      some { server with
        fds := server.fds.map (·.report ready)
        place := .looping 0
        reported := (held server.fds).filter (· ∈ ready)
        served := [] }
  | .polling, .pollFails errno =>
      some { server with errno := errno, place := if errno = .EINTR then .polling else .left }
  | .polling, .pollTimesOut => some server
  | .looping i, label => server.visit i label
  | .left, .closeAll =>
      some { server with
        fds := []
        handles := server.handles.closeAll (held server.fds)
        place := .finished }
  | _, _ => none

inductive Change : Label → PollServer → Prop
  | polled (ready : List Nat) (idle : server.place = .polling) :
      Change (.poll ready)
        { server with
          fds := server.fds.map (·.report ready)
          place := .looping 0
          reported := (held server.fds).filter (· ∈ ready)
          served := [] }
  | failed (errno : Errno) (idle : server.place = .polling) :
      Change (.pollFails errno)
        { server with errno := errno, place := if errno = .EINTR then .polling else .left }
  | timedOut (idle : server.place = .polling) : Change .pollTimesOut server
  | accepted {i fd : Nat} {accepted : Accepted} {next : PollServer}
      (looping : server.place = .looping i) (here : server.fds[i]? = some ⟨some fd, true⟩)
      (listening : fd = server.listenfd) (result : server.acceptClient accepted = some next) :
      Change (.accept accepted) (next.proceed i fd)
  | received {i fd : Nat} (received : ReadResult) (looping : server.place = .looping i)
      (here : server.fds[i]? = some ⟨some fd, true⟩) (client : fd ≠ server.listenfd) :
      Change (.receive received) ((server.receiveFrom fd received).proceed i fd)
  | passed {i : Nat} {pollfd : Pollfd} (looping : server.place = .looping i)
      (here : server.fds[i]? = some pollfd) (silent : pollfd.revents = false) :
      Change .pass { server with place := .looping (i + 1) }
  | swept {i : Nat} (looping : server.place = .looping i) (through : server.fds[i]? = none) :
      Change .sweep
        { server with
          fds := if server.existInvalidFd then server.fds.filter (·.fd ≠ none) else server.fds
          existInvalidFd := false
          place := .polling }
  | closed (leaves : server.place = .left) :
      Change .closeAll
        { server with
          fds := []
          handles := server.handles.closeAll (held server.fds)
          place := .finished }

variable {server}

theorem acceptClient_cases {accepted : Accepted} {next : PollServer}
    (result : server.acceptClient accepted = some next) :
    (∃ errno, accepted = .failed errno ∧ next = { server with errno := errno }) ∨
    (∃ fd errno, accepted = .refused fd errno ∧ server.handles.isOpen fd = false ∧
      next = { server with
        errno := errno
        handles := (server.handles.create fd).close fd }) ∨
    (∃ fd, accepted = .added fd ∧ server.handles.isOpen fd = false ∧
      next = { server with
        fds := server.fds ++ [⟨some fd, false⟩]
        handles := server.handles.create fd }) := by
  cases accepted with
  | failed errno =>
      cases result
      exact .inl ⟨errno, rfl, rfl⟩
  | refused fd errno =>
      rw [acceptClient] at result
      split at result
      · cases result
      · next closed =>
        cases result
        exact .inr (.inl ⟨fd, errno, rfl, Bool.eq_false_iff.mpr closed, rfl⟩)
  | added fd =>
      rw [acceptClient] at result
      split at result
      · cases result
      · next closed =>
        cases result
        exact .inr (.inr ⟨fd, rfl, Bool.eq_false_iff.mpr closed, rfl⟩)

theorem visit_changes {i : Nat} {label : Label} {next : PollServer}
    (looping : server.place = .looping i) (step : server.visit i label = some next) :
    server.Change label next := by
  unfold visit at step
  split at step
  · next fd accepted here =>
    split at step
    · next listening =>
      rcases Option.map_eq_some_iff.mp step with ⟨later, result, rfl⟩
      exact .accepted looping here listening result
    · cases step
  · next fd received here =>
    split at step
    · cases step
    · next client =>
      cases step
      exact .received received looping here client
  · next here =>
    cases step
    exact .passed looping here rfl
  · next through =>
    cases step
    exact .swept looping through
  · cases step

theorem step_changes {label : Label} {next : PollServer}
    (step : server.step label = some next) : server.Change label next := by
  cases place : server.place with
  | polling =>
      simp only [PollServer.step, place] at step
      cases label with
      | poll ready =>
          cases step
          exact .polled ready place
      | pollFails errno =>
          cases step
          exact .failed errno place
      | pollTimesOut =>
          cases step
          exact .timedOut place
      | accept | receive | pass | sweep | closeAll => cases step
  | looping i =>
      simp only [PollServer.step, place] at step
      exact visit_changes place step
  | left =>
      simp only [PollServer.step, place] at step
      cases label with
      | closeAll =>
          cases step
          exact .closed place
      | poll | pollFails | pollTimesOut | accept | receive | pass | sweep => cases step
  | finished =>
      simp only [PollServer.step, place] at step
      cases step

end PollServer

def serverMachine : Machine PollServer Label := .ofPartial PollServer.step

end MyBookSources.PollServers
