import MyBookSources.EpollServers.EpollServer

/-! # The events of a batch

An event names a descriptor only. While a batch is worked on clients are closed and their
descriptors are given to new ones, and yet an event is never taken for another client's.
-/

namespace MyBookSources.EpollServers.Server

open Readiness (Events Entry)

variable {program : Program} {server next : Server}

/-- `id` is the connection that was reported. -/
def Current (server : Server) (event : Event) : Prop :=
  ∀ fd, event.fd = some fd → ∃ client, server.clients fd = some client ∧
    client.id = event.id ∧ (event.input = true → client.readable = true)

structure Reported (server : Server) : Prop where
  distinct : (server.batch.map Event.fd).Nodup
  current : ∀ event ∈ server.batch, server.Current event
  left : ∀ fd, server.again = some fd → ∀ event ∈ server.batch, event.fd ≠ some fd

theorem reported_create : create.Reported where
  distinct := List.nodup_nil
  current _ member := absurd member List.not_mem_nil
  left _ _ _ member := absurd member List.not_mem_nil

namespace Reported

theorem keep (reported : server.Reported) (batch : next.batch.Sublist server.batch)
    (clients : ∀ event ∈ next.batch, ∀ fd, event.fd = some fd →
      ∀ client, server.clients fd = some client → ∃ later, next.clients fd = some later ∧
        later.id = client.id ∧ (client.readable = true → later.readable = true))
    (left : ∀ fd, next.again = some fd → ∀ event ∈ next.batch, event.fd ≠ some fd) :
    next.Reported where
  distinct := reported.distinct.sublist (batch.map _)
  current := by
    intro event member fd own
    rcases reported.current event (batch.subset member) fd own with ⟨client, here, same, ready⟩
    rcases clients event member fd own client here with ⟨later, there, sameId, stays⟩
    exact ⟨later, there, sameId.trans same, fun input => stays (ready input)⟩
  left := left

theorem keep_client {fd : Nat} {client later : Client} (reported : server.Reported)
    (here : server.clients fd = some client) (same : later.id = client.id)
    (ready : client.readable = true → later.readable = true) :
    (server.assign fd (some later)).Reported := by
  refine reported.keep (List.Sublist.refl _) ?_ reported.left
  intro event member other own client' here'
  by_cases equal : other = fd
  · subst equal
    rw [here] at here'
    cases here'
    exact ⟨later, Function.update_self _ _ _, same, ready⟩
  · exact ⟨client', (Function.update_of_ne equal _ _).trans here', rfl, id⟩

theorem keep_elsewhere (reported : server.Reported) (fd : Nat)
    (batch : next.batch.Sublist server.batch) (rest : ∀ event ∈ next.batch, event.fd ≠ some fd)
    (clients : ∀ other, other ≠ fd → next.clients other = server.clients other)
    (again : ∀ other, next.again = some other → other = fd) : next.Reported := by
  apply reported.keep batch
  · intro event member other own client here
    have different : other ≠ fd := by
      intro same
      exact rest event member (same ▸ own)
    exact ⟨client, (clients other different).trans here, rfl, id⟩
  · intro other asked event member
    rw [again other asked]
    exact rest event member

theorem keep_clients (reported : server.Reported) (batch : next.batch.Sublist server.batch)
    (clients : next.clients = server.clients) (again : next.again = none) : next.Reported := by
  apply reported.keep batch
  · intro event member fd own client here
    exact ⟨client, (congrFun clients fd).trans here, rfl, id⟩
  · intro fd asked
    rw [again] at asked
    cases asked

theorem rest_differs {event : Event} {rest : List Event} {fd : Nat} (reported : server.Reported)
    (batch : server.batch = event :: rest) (own : event.fd = some fd) :
    ∀ other ∈ rest, other.fd ≠ some fd := by
  have distinct := reported.distinct
  rw [batch, List.map_cons, List.nodup_cons] at distinct
  intro other member same
  exact distinct.1 (own ▸ same ▸ List.mem_map_of_mem member)

end Reported

theorem event_of_client {fd : Nat} {client : Client} (here : server.clients fd = some client) :
    server.event (some fd) =
      ⟨some fd, client.id, client.entry.events.input && client.readable⟩ := by
  rw [event, Option.bind_some, here]

theorem exists_client_of_reports {fd : Nat} (ready : server.reports (some fd) = true) :
    ∃ client, server.clients fd = some client ∧
      client.entry.reports client.readable = true := by
  rw [reports] at ready
  split at ready
  · next client here => exact ⟨client, here, ready⟩
  · cases ready

theorem fd_event {fd : Option Nat} (ready : server.reports fd = true) :
    (server.event fd).fd = fd := by
  cases fd with
  | none => rfl
  | some fd =>
      rcases exists_client_of_reports ready with ⟨client, here, _⟩
      rw [event_of_client here]

theorem reported_waited {fds : List (Option Nat)} (free : server.again = none)
    (distinct : fds.Nodup) (ready : ∀ fd ∈ fds, server.reports fd = true) :
    Reported { server with
      batch := fds.map server.event
      clients := fun fd =>
        if some fd ∈ fds then
          (server.clients fd).map fun client => { client with entry := client.entry.report }
        else server.clients fd } where
  distinct := by
    have same : (fds.map server.event).map Event.fd = fds := by
      rw [List.map_map]
      exact (List.map_congr_left fun fd member => fd_event (ready fd member)).trans (List.map_id _)
    rw [same]
    exact distinct
  current := by
    intro event member fd own
    rcases List.mem_map.mp member with ⟨reported, listed, rfl⟩
    rw [fd_event (ready reported listed)] at own
    cases own
    rcases exists_client_of_reports (ready _ listed) with ⟨client, here, _⟩
    rw [event_of_client here]
    refine ⟨{ client with entry := client.entry.report }, ?_, rfl, ?_⟩
    · dsimp only
      rw [if_pos listed, here, Option.map_some]
    · intro input
      exact (Bool.and_eq_true_iff.mp input).2
  left := by
    intro fd asked
    rw [free] at asked
    cases asked

theorem Reported.change {label : Label} (reported : server.Reported)
    (change : Change program server label next) : next.Reported := by
  cases change with
  | counts waiting running => exact ⟨reported.distinct, reported.current, reported.left⟩
  | notified here unread ended broken more => exact reported.keep_client here rfl more
  | dropped here quiet => exact reported.keep_client here rfl id
  | waited empty free distinct ready => exact reported_waited free distinct ready
  | passed batch free other waiting connected more =>
      exact reported.keep_clients (batch ▸ List.sublist_cons_self _ _) rfl free
  | @accepted event rest fd batch free listening fresh waiting unread ended broken =>
      have later : rest.Sublist server.batch := batch ▸ List.sublist_cons_self _ _
      refine reported.keep_elsewhere fd later ?_ ?_ ?_
      · intro other member own
        rcases reported.current other (later.subset member) fd own with ⟨client, here, _⟩
        rw [fresh] at here
        cases here
      · intro other different
        exact Function.update_of_ne different _ _
      · intro other asked
        cases free.symm.trans asked
  | @received event rest fd client batch free own input here unread =>
      refine reported.keep_elsewhere fd (batch ▸ List.sublist_cons_self _ _) ?_ ?_ ?_
      · exact reported.rest_differs batch own
      · intro other different
        exact Function.update_of_ne different _ _
      · intro other asked
        rcases Option.map_eq_some_iff.mp asked with ⟨_, _, same⟩
        exact same.symm
  | @closed event rest fd client batch free own input here =>
      refine reported.keep_elsewhere fd (batch ▸ List.sublist_cons_self _ _) ?_ ?_ ?_
      · exact reported.rest_differs batch own
      · intro other different
        exact Function.update_of_ne different _ _
      · intro other asked
        cases free.symm.trans asked
  | missed batch free own input here nothing =>
      exact reported.keep_clients (batch ▸ List.sublist_cons_self _ _) rfl free
  | @modified fd events again registers =>
      refine reported.keep_elsewhere fd (List.Sublist.refl _) ?_ ?_ ?_
      · exact reported.left fd again
      · intro other different
        exact Function.update_of_ne different _ _
      · intro other asked
        cases asked
  | unmodified again failed => exact reported.keep_clients (List.Sublist.refl _) rfl rfl
  | @abandoned fd again =>
      refine reported.keep_elsewhere fd (List.Sublist.refl _) ?_ ?_ ?_
      · exact reported.left fd again
      · intro other different
        exact Function.update_of_ne different _ _
      · intro other asked
        cases asked

theorem reported_of_run {labels : List Label}
    (run : (serverMachine program).Transitions create labels server) : server.Reported :=
  run.invariant (fun _ _ _ reported step => reported.change (step_changes step)) reported_create

theorem Reported.never_blocks (reported : server.Reported) :
    server.step program (.receive .wouldBlock) = none := by
  change server.work program (.receive .wouldBlock) = none
  rw [work]
  split
  · next event rest free batch =>
      rw [handle]
      split
      · next fd own =>
          split
          · next client here =>
              split
              · next input =>
                  have member : event ∈ server.batch := batch ▸ List.mem_cons_self
                  rcases reported.current event member fd own with ⟨same, there, _, ready⟩
                  cases here.symm.trans there
                  have readable := ready input
                  rw [receive, if_neg]
                  intro nothing
                  rw [Client.readable, nothing.1, Bool.eq_false_iff.mpr nothing.2] at readable
                  cases readable
              · rfl
          · rfl
      · rfl
  · rfl

/-- In every run no two events of a batch are for the same descriptor, each is for a client that
is still open and is the one that was reported, and `recv` finds something. -/
theorem events_are_current {labels : List Label}
    (run : (serverMachine program).Transitions create labels server) :
    (server.batch.map Event.fd).Nodup ∧ (∀ event ∈ server.batch, server.Current event) ∧
      server.step program (.receive .wouldBlock) = none :=
  have reported := reported_of_run run
  ⟨reported.distinct, reported.current, reported.never_blocks⟩

/-- A closed client's descriptor is given to another one within a batch. -/
theorem events_are_current_reused : ∃ server : Server,
    server.batch = [⟨some 1, 1, true⟩] ∧ (server.batch.map Event.fd).Nodup ∧
      ∀ event ∈ server.batch, server.Current event := by
  have facts : (Machine.runPartial (step epollServer) create
      [.connect, .wait [none], .accept 0 [] false false true, .connect, .wait [none],
        .accept 1 [7] false false true, .finish 0 false, .connect,
        .wait [some 0, none, some 1], .receive .closed, .accept 0 [] false false true]).map batch =
        some [⟨some 1, 1, true⟩] := rfl
  rcases Option.map_eq_some_iff.mp facts with ⟨server, ran, left⟩
  have current := events_are_current (Machine.transitions_of_runPartial ran)
  exact ⟨server, left, current.1, current.2.1⟩

end MyBookSources.EpollServers.Server
