import MyBookSources.Foundation.OwnedHandles
import MyBookSources.PollServers.PollServer

/-! # The descriptors of the poll server

The array is the only place where the descriptors are kept: what is not in it is closed, and no
place that `poll` is given is a marked one.
-/

namespace MyBookSources.PollServers

open Net (Errno ReadResult)

@[simp] theorem held_nil : held [] = [] := rfl

@[simp] theorem held_cons (pollfd : Pollfd) (rest : List Pollfd) :
    held (pollfd :: rest) = pollfd.fd.toList ++ held rest := by
  rw [held, List.filterMap_cons]
  cases pollfd.fd <;> rfl

theorem held_append (left right : List Pollfd) : held (left ++ right) = held left ++ held right :=
  List.filterMap_append

theorem held_report (ready : List Nat) (fds : List Pollfd) :
    held (fds.map (·.report ready)) = held fds := by
  rw [held, List.filterMap_map]
  rfl

theorem mem_held_of_getElem? {fds : List Pollfd} {i fd : Nat} {revents : Bool}
    (here : fds[i]? = some ⟨some fd, revents⟩) : fd ∈ held fds :=
  List.mem_filterMap.mpr ⟨_, List.mem_of_getElem? here, rfl⟩

theorem held_mark (fd : Nat) (fds : List Pollfd) : held (mark fd fds) = (held fds).erase fd := by
  induction fds with
  | nil => rfl
  | cons pollfd rest induction =>
      rw [mark]
      split
      · next same => simp [same]
      · next other =>
        rw [held_cons, induction, held_cons]
        cases found : pollfd.fd with
        | none => rfl
        | some own =>
            have apart : own ≠ fd := fun same => other (same ▸ found)
            exact (List.erase_cons_tail (by simpa using apart)).symm

theorem mark_eq_set {fds : List Pollfd} {i fd : Nat} {revents : Bool}
    (distinct : (held fds).Nodup) (here : fds[i]? = some ⟨some fd, revents⟩) :
    mark fd fds = fds.set i ⟨none, revents⟩ := by
  induction fds generalizing i with
  | nil => cases here
  | cons pollfd rest induction =>
      cases i with
      | zero =>
          cases here
          rw [mark, if_pos rfl, List.set_cons_zero]
      | succ i =>
          have later : rest[i]? = some ⟨some fd, revents⟩ := here
          rw [held_cons] at distinct
          have other : pollfd.fd ≠ some fd := by
            intro same
            rw [same] at distinct
            exact (List.nodup_cons.mp distinct).1 (mem_held_of_getElem? later)
          rw [mark, if_neg other, List.set_cons_succ, induction distinct.of_append_right later]

theorem held_sweep (fds : List Pollfd) : held (fds.filter (·.fd ≠ none)) = held fds := by
  induction fds with
  | nil => rfl
  | cons pollfd rest induction =>
      rw [List.filter_cons, held_cons, ← induction]
      cases found : pollfd.fd with
      | none => rfl
      | some own => exact (held_cons pollfd _).trans (by rw [found])

theorem map_some_held {fds : List Pollfd} (unmarked : ∀ pollfd ∈ fds, pollfd.fd ≠ none) :
    (held fds).map some = fds.map Pollfd.fd := by
  induction fds with
  | nil => rfl
  | cons pollfd rest induction =>
      rcases List.forall_mem_cons.mp unmarked with ⟨first, later⟩
      rcases Option.ne_none_iff_exists'.mp first with ⟨fd, found⟩
      rw [held_cons, found, List.map_cons, found, ← induction later]
      rfl

namespace PollServer

variable {server next : PollServer}

/-- There are marked places in a loop only, and only if it is known. -/
structure Accounted (server : PollServer) : Prop where
  owned : server.handles.Owned (held server.fds)
  marked : server.existInvalidFd = true → ∃ i, server.place = .looping i
  unmarked : server.existInvalidFd = false → ∀ pollfd ∈ server.fds, pollfd.fd ≠ none
  listening : server.place ≠ .finished → ∃ revents rest,
    server.fds = ⟨some server.listenfd, revents⟩ :: rest
  finished : server.place = .finished → server.fds = []

theorem accounted_create (listenfd : Nat) (errno : Errno) :
    (create listenfd errno).Accounted where
  owned := HandleTable.owned_empty.create rfl
  marked known := by cases known
  unmarked _ pollfd member := by
    rw [List.mem_singleton.mp member]
    exact Option.some_ne_none listenfd
  listening _ := ⟨false, [], rfl⟩
  finished place := by cases place

namespace Accounted

theorem going (accounted : server.Accounted) {fd : Nat} (member : fd ∈ held server.fds) :
    server.place ≠ .finished := by
  intro place
  rw [accounted.finished place] at member
  cases member

theorem clear (accounted : server.Accounted) (outside : ∀ i, server.place ≠ .looping i) :
    server.existInvalidFd = false := by
  cases known : server.existInvalidFd with
  | false => rfl
  | true =>
      rcases accounted.marked known with ⟨i, looping⟩
      exact absurd looping (outside i)

theorem keep (accounted : server.Accounted) (going : server.place ≠ .finished)
    (still : next.place ≠ .finished) (same : next.listenfd = server.listenfd)
    (fds : next.fds = server.fds) (handles : next.handles = server.handles)
    (known : next.existInvalidFd = server.existInvalidFd)
    (marked : next.existInvalidFd = true → ∃ i, next.place = .looping i) : next.Accounted where
  owned := by
    rw [fds, handles]
    exact accounted.owned
  marked := marked
  unmarked := by
    rw [fds, known]
    exact accounted.unmarked
  listening _ := by
    rw [fds, same]
    exact accounted.listening going
  finished place := absurd place still

theorem accept {i : Nat} {accepted : Accepted} (accounted : server.Accounted)
    (going : server.place ≠ .finished) (result : server.acceptClient accepted = some next)
    (fd : Nat) : (next.proceed i fd).Accounted := by
  have still : (next.proceed i fd).place ≠ .finished := by
    intro place
    cases place
  rcases acceptClient_cases result with
    ⟨errno, rfl, rfl⟩ | ⟨new, errno, rfl, closed, rfl⟩ | ⟨new, rfl, closed, rfl⟩
  · exact accounted.keep going still rfl rfl rfl rfl fun _ => ⟨_, rfl⟩
  · exact {
      owned := accounted.owned.refuse closed
      marked := fun _ => ⟨_, rfl⟩
      unmarked := accounted.unmarked
      listening := fun _ => accounted.listening going
      finished := fun place => absurd place still }
  · refine ⟨?_, fun _ => ⟨_, rfl⟩, ?_, ?_, fun place => absurd place still⟩
    · change (server.handles.create new).Owned (held (server.fds ++ [⟨some new, false⟩]))
      rw [held_append]
      exact accounted.owned.create closed
    · intro clear pollfd member
      rcases List.mem_append.mp member with before | own
      · exact accounted.unmarked clear pollfd before
      · rw [List.mem_singleton.mp own]
        exact Option.some_ne_none new
    · intro _
      rcases accounted.listening going with ⟨revents, rest, front⟩
      refine ⟨revents, rest ++ [⟨some new, false⟩], ?_⟩
      change server.fds ++ _ = _
      rw [front]
      rfl

theorem closeClient {i fd : Nat} (accounted : server.Accounted) (member : fd ∈ held server.fds)
    (client : fd ≠ server.listenfd) : ((server.closeClient fd).proceed i fd).Accounted := by
  have going := accounted.going member
  rw [PollServer.closeClient]
  split
  · exact accounted.keep going (fun place => by cases place) rfl rfl rfl rfl fun _ => ⟨_, rfl⟩
  · refine ⟨?_, fun _ => ⟨_, rfl⟩, fun clear => Bool.noConfusion clear, ?_,
      fun place => by cases place⟩
    · change (server.handles.close fd).Owned (held (mark fd server.fds))
      rw [held_mark]
      exact accounted.owned.close member
    · intro _
      rcases accounted.listening going with ⟨revents, rest, front⟩
      refine ⟨revents, mark fd rest, ?_⟩
      change mark fd server.fds = _
      have other : (some server.listenfd : Option Nat) ≠ some fd :=
        fun same => client (Option.some.inj same).symm
      rw [front, mark, if_neg other]
      rfl

theorem receive {i fd : Nat} (accounted : server.Accounted) (member : fd ∈ held server.fds)
    (client : fd ≠ server.listenfd) (received : ReadResult) :
    ((server.receiveFrom fd received).proceed i fd).Accounted := by
  have going := accounted.going member
  cases received with
  | received data =>
      exact accounted.keep going (fun place => by cases place) rfl rfl rfl rfl fun _ => ⟨_, rfl⟩
  | endOfStream =>
      have closed := accounted.closeClient (i := i) member client
      exact ⟨closed.owned, closed.marked, closed.unmarked, closed.listening, closed.finished⟩
  | failed errno =>
      have failed : ({ server with errno := errno } : PollServer).Accounted :=
        ⟨accounted.owned, accounted.marked, accounted.unmarked, accounted.listening,
          accounted.finished⟩
      exact failed.closeClient member client

theorem sweep (accounted : server.Accounted) (going : server.place ≠ .finished) :
    Accounted { server with
      fds := if server.existInvalidFd then server.fds.filter (·.fd ≠ none) else server.fds
      existInvalidFd := false
      place := .polling } := by
  cases known : server.existInvalidFd with
  | false =>
      exact ⟨accounted.owned, fun set => Bool.noConfusion set, fun _ => accounted.unmarked known,
        fun _ => accounted.listening going, fun place => by cases place⟩
  | true =>
      refine ⟨?_, fun set => Bool.noConfusion set, ?_, ?_, fun place => by cases place⟩
      · change server.handles.Owned (held (server.fds.filter (·.fd ≠ none)))
        rw [held_sweep]
        exact accounted.owned
      · intro _ pollfd member
        exact of_decide_eq_true (List.mem_filter.mp member).2
      · intro _
        rcases accounted.listening going with ⟨revents, rest, front⟩
        refine ⟨revents, rest.filter (·.fd ≠ none), ?_⟩
        change server.fds.filter (·.fd ≠ none) = _
        rw [front]
        rfl

theorem report (accounted : server.Accounted) (idle : server.place = .polling)
    (ready : List Nat) : Accounted { server with
      fds := server.fds.map (·.report ready)
      place := .looping 0
      reported := (held server.fds).filter (· ∈ ready)
      served := [] } := by
  have going : server.place ≠ .finished := idle ▸ Place.noConfusion
  refine ⟨?_, fun _ => ⟨0, rfl⟩, ?_, ?_, fun place => by cases place⟩
  · change server.handles.Owned (held (server.fds.map (·.report ready)))
    rw [held_report]
    exact accounted.owned
  · intro clear pollfd member
    rcases List.mem_map.mp member with ⟨before, there, rfl⟩
    exact accounted.unmarked clear before there
  · intro _
    rcases accounted.listening going with ⟨revents, rest, front⟩
    refine ⟨decide (server.listenfd ∈ ready), rest.map (·.report ready), ?_⟩
    change server.fds.map (·.report ready) = _
    rw [front]
    rfl

theorem change {label : Label} (accounted : server.Accounted)
    (change : server.Change label next) : next.Accounted := by
  cases change with
  | polled ready idle => exact accounted.report idle ready
  | failed errno idle =>
      have clear : server.existInvalidFd ≠ true := by
        rw [accounted.clear fun i => idle ▸ Place.noConfusion]
        exact Bool.false_ne_true
      refine accounted.keep (idle ▸ Place.noConfusion) ?_ rfl rfl rfl rfl fun set =>
        absurd set clear
      dsimp only
      split
      · exact Place.noConfusion
      · exact Place.noConfusion
  | timedOut idle => exact accounted
  | accepted looping here listening result =>
      exact accounted.accept (accounted.going (mem_held_of_getElem? here)) result _
  | received received looping here client =>
      exact accounted.receive (mem_held_of_getElem? here) client received
  | passed looping here silent =>
      exact accounted.keep (looping ▸ Place.noConfusion) Place.noConfusion rfl rfl rfl rfl
        fun _ => ⟨_, rfl⟩
  | swept looping through => exact accounted.sweep (looping ▸ Place.noConfusion)
  | closed leaves =>
      have clear := accounted.clear fun i => leaves ▸ Place.noConfusion
      refine ⟨accounted.owned.closeAll, ?_, ?_, fun still => absurd rfl still, fun _ => rfl⟩
      · intro set
        cases clear.symm.trans set
      · intro _ pollfd member
        cases member

end Accounted

theorem accounted_of_run {listenfd : Nat} {errno : Errno} {labels : List Label}
    (run : serverMachine.Transitions (create listenfd errno) labels server) : server.Accounted := by
  have kept : ∀ before label after, Accounted before → serverMachine.Step before label after →
      after.Accounted := by
    intro before label after accounted step
    exact accounted.change (step_changes step)
  exact run.invariant kept (accounted_create listenfd errno)

/-- In every run the open descriptors are those of the array, each once, and at the end each
descriptor that was ever created has been closed by exactly one call. -/
theorem descriptors_closed_once {listenfd : Nat} {errno : Errno} {labels : List Label}
    (run : serverMachine.Transitions (create listenfd errno) labels server) :
    (held server.fds).Nodup ∧ (∀ fd, server.handles.isOpen fd = true ↔ fd ∈ held server.fds) ∧
      (server.place = .polling → (held server.fds).map some = server.fds.map Pollfd.fd) ∧
      (server.place = .finished → server.handles.ClosedOnce) := by
  have accounted := accounted_of_run run
  refine ⟨accounted.owned.distinct, accounted.owned.isOpen, ?_, ?_⟩
  · intro idle
    have clear := accounted.clear fun i => idle ▸ Place.noConfusion
    exact map_some_held (accounted.unmarked clear)
  · intro place
    have owned := accounted.owned
    rw [accounted.finished place] at owned
    exact owned.closedOnce

/-- Two clients come, the descriptor of the second cannot be made nonblocking, and the first one
goes. -/
def stopped : List Label :=
  [.poll [3], .accept (.added 4), .pass, .sweep, .poll [3, 4], .accept (.refused 5 (.other 22)),
    .receive .endOfStream, .sweep, .pollFails (.other 12), .closeAll]

theorem descriptors_closed_once_stopped :
    ∃ server, serverMachine.Transitions (create 3 (.other 0)) stopped server ∧
      server.handles.created = 3 ∧ server.handles.ClosedOnce := by
  refine ⟨_, Machine.transitions_of_runPartial rfl, rfl, ?_⟩
  exact (descriptors_closed_once (Machine.transitions_of_runPartial
    (rfl : Machine.runPartial step (create 3 (.other 0)) stopped = some _))).2.2.2 rfl

end PollServer

end MyBookSources.PollServers
