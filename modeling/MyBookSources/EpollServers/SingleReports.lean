import Mathlib.Data.List.Nodup
import MyBookSources.EpollServers.ReportedClients

/-! # Clients that are reported once

Without a call of `EPOLL_CTL_MOD` a client with `EPOLLONESHOT` is received from once, however much
its peer sends, and is neither received from nor closed afterwards.
-/

namespace MyBookSources.EpollServers.Server

open Readiness (Events Entry)

variable {program : Program} {server next : Server}

/-- The connections that `recv` was called for. -/
def receivedFrom (server : Server) : List Nat := server.log.map Prod.fst

structure Single (server : Server) (fd : Nat) (client : Client) : Prop where
  known : client.id < server.connected
  oneShot : client.entry.events.oneShot = true
  enabled : client.entry.disabled = false → client.id ∉ server.receivedFrom
  asked : ∀ event ∈ server.batch, event.fd = some fd →
    client.entry.disabled = true ∧ client.id ∉ server.receivedFrom

structure ReceivesOnce (program : Program) (server : Server) : Prop where
  clients : ∀ fd client, server.clients fd = some client → server.Single fd client
  distinct : ∀ fd client other same, server.clients fd = some client →
    server.clients other = some same → same.id = client.id → other = fd
  known : ∀ id ∈ server.receivedFrom, id < server.connected
  once : server.receivedFrom.Nodup
  size : ∀ entry ∈ server.log, entry.2.length ≤ program.bufferSize

def Descends (server next : Server) : Prop :=
  ∀ fd later, next.clients fd = some later → ∃ client, server.clients fd = some client ∧
    later.id = client.id ∧ later.entry.events = client.entry.events ∧
      later.entry.disabled = client.entry.disabled

theorem descends_of_eq (same : next.clients = server.clients) : server.Descends next := by
  intro fd later here
  rw [same] at here
  exact ⟨later, here, rfl, rfl, rfl⟩

theorem descends_assign {fd : Nat} {client later : Client} (here : server.clients fd = some client)
    (assigned : next.clients = Function.update server.clients fd (some later))
    (id : later.id = client.id) (events : later.entry.events = client.entry.events)
    (disabled : later.entry.disabled = client.entry.disabled) : server.Descends next := by
  intro other found there
  rw [assigned] at there
  by_cases same : other = fd
  · subst same
    rw [Function.update_self] at there
    cases there
    exact ⟨client, here, id, events, disabled⟩
  · rw [Function.update_of_ne same] at there
    exact ⟨found, there, rfl, rfl, rfl⟩

theorem descends_close {fd : Nat} (closed : next.clients = Function.update server.clients fd none) :
    server.Descends next := by
  intro other found there
  rw [closed] at there
  by_cases same : other = fd
  · subst same
    rw [Function.update_self] at there
    cases there
  · rw [Function.update_of_ne same] at there
    exact ⟨found, there, rfl, rfl, rfl⟩

namespace ReceivesOnce

theorem distinct_of_descends (once : server.ReceivesOnce program) (descends : server.Descends next)
    {fd other : Nat} {client same : Client} (here : next.clients fd = some client)
    (there : next.clients other = some same) (equal : same.id = client.id) : other = fd := by
  rcases descends fd client here with ⟨before, beforeHere, id, _⟩
  rcases descends other same there with ⟨otherBefore, beforeThere, otherId, _⟩
  exact once.distinct fd before other otherBefore beforeHere beforeThere
    (otherId.symm.trans (equal.trans id))

theorem keep (once : server.ReceivesOnce program) (descends : server.Descends next)
    (connected : server.connected ≤ next.connected) (batch : next.batch ⊆ server.batch)
    (log : next.log = server.log) : next.ReceivesOnce program where
  clients := by
    intro fd later here
    rcases descends fd later here with ⟨client, before, id, events, disabled⟩
    have single := once.clients fd client before
    refine ⟨?_, ?_, ?_, ?_⟩
    · rw [id]
      exact Nat.lt_of_lt_of_le single.known connected
    · rw [events]
      exact single.oneShot
    · rw [disabled, id, receivedFrom, log]
      exact single.enabled
    · intro event member own
      rw [disabled, id, receivedFrom, log]
      exact single.asked event (batch member) own
  distinct fd client other same here there := once.distinct_of_descends descends here there
  known id received := by
    rw [receivedFrom, log] at received
    exact Nat.lt_of_lt_of_le (once.known id received) connected
  once := by
    rw [receivedFrom, log]
    exact once.once
  size := by
    rw [log]
    exact once.size

theorem logged {event : Event} {rest : List Event} {fd : Nat} {client : Client} {data : Bytes}
    (once : server.ReceivesOnce program) (reported : server.Reported)
    (batch : server.batch = event :: rest) (own : event.fd = some fd)
    (here : server.clients fd = some client) (descends : server.Descends next)
    (connected : next.connected = server.connected) (nextBatch : next.batch = rest)
    (log : next.log = server.log ++ [(client.id, data)])
    (size : data.length ≤ program.bufferSize) : next.ReceivesOnce program := by
  have received : next.receivedFrom = server.receivedFrom ++ [client.id] := by
    rw [receivedFrom, log, List.map_append]
    rfl
  have asked := (once.clients fd client here).asked event (batch ▸ List.mem_cons_self) own
  refine ⟨?_, ?_, ?_, ?_, ?_⟩
  · intro other later there
    rcases descends other later there with ⟨before, beforeThere, id, events, disabled⟩
    have single := once.clients other before beforeThere
    have same : client.id = before.id → fd = other :=
      once.distinct other before fd client beforeThere here
    refine ⟨?_, ?_, ?_, ?_⟩
    · rw [id, connected]
      exact single.known
    · rw [events]
      exact single.oneShot
    · rw [disabled, id, received, List.mem_append, List.mem_singleton, not_or]
      intro enabled
      refine ⟨single.enabled enabled, ?_⟩
      intro equal
      cases same equal.symm
      cases here.symm.trans beforeThere
      rw [asked.1] at enabled
      cases enabled
    · intro event member ownOther
      rw [nextBatch] at member
      rw [disabled, id, received, List.mem_append, List.mem_singleton, not_or]
      have waits := single.asked event (batch ▸ List.mem_cons_of_mem _ member) ownOther
      refine ⟨waits.1, waits.2, ?_⟩
      intro equal
      cases same equal.symm
      exact reported.rest_differs batch own event member ownOther
  · intro fd client other same here there
    exact once.distinct_of_descends descends here there
  · intro id member
    rw [received, List.mem_append, List.mem_singleton] at member
    rw [connected]
    rcases member with earlier | rfl
    · exact once.known id earlier
    · exact (once.clients fd client here).known
  · rw [received, ← List.concat_eq_append]
    exact List.Nodup.concat asked.2 once.once
  · intro entry member
    rw [log, List.mem_append, List.mem_singleton] at member
    rcases member with earlier | rfl
    · exact once.size entry earlier
    · exact size

theorem accepted {event : Event} {rest : List Event} {fd : Nat} {waiting : Nat} {unread : Bytes}
    {ended broken : Bool} (oneShot : program.clientEvents.oneShot = true)
    (once : server.ReceivesOnce program) (reported : server.Reported)
    (batch : server.batch = event :: rest) (fresh : server.clients fd = none) :
    ReceivesOnce program (assign { server with
      batch := rest, waiting := waiting, connected := server.connected + 1 } fd
        (some (.watched program server.connected unread ended broken))) := by
  have unasked : ∀ other ∈ rest, other.fd ≠ some fd := by
    intro other member own
    rcases reported.current other (batch ▸ List.mem_cons_of_mem _ member) fd own with
      ⟨client, here, _⟩
    rw [fresh] at here
    cases here
  have unknown : server.connected ∉ server.receivedFrom := by
    intro member
    exact Nat.lt_irrefl _ (once.known _ member)
  refine ⟨?_, ?_, ?_, ?_, ?_⟩
  · intro other client there
    rcases client_of_assign there with ⟨rfl, same⟩ | ⟨_, there⟩
    · cases same
      exact ⟨Nat.lt_succ_self _, oneShot, fun _ => unknown,
        fun event member own => absurd own (unasked event member)⟩
    · have single := once.clients other client there
      refine ⟨Nat.lt_succ_of_lt single.known, single.oneShot, single.enabled, ?_⟩
      intro event member
      exact single.asked event (batch ▸ List.mem_cons_of_mem _ member)
  · intro one client other same here there equal
    rcases client_of_assign here with ⟨rfl, new⟩ | ⟨_, oneBefore⟩
    · cases new
      rcases client_of_assign there with ⟨rfl, _⟩ | ⟨_, otherBefore⟩
      · rfl
      · have known := (once.clients other same otherBefore).known
        rw [equal] at known
        exact absurd known (Nat.lt_irrefl _)
    · rcases client_of_assign there with ⟨rfl, new⟩ | ⟨_, otherBefore⟩
      · cases new
        have known := (once.clients one client oneBefore).known
        rw [← equal] at known
        exact absurd known (Nat.lt_irrefl _)
      · exact once.distinct one client other same oneBefore otherBefore equal
  · intro id member
    exact Nat.lt_succ_of_lt (once.known id member)
  · exact once.once
  · exact once.size

theorem waited {fds : List (Option Nat)} (once : server.ReceivesOnce program)
    (ready : ∀ fd ∈ fds, server.reports fd = true) :
    ReceivesOnce program { server with
      batch := fds.map server.event
      clients := fun fd =>
        if some fd ∈ fds then
          (server.clients fd).map fun client => { client with entry := client.entry.report }
        else server.clients fd } := by
  have asks : ∀ event ∈ fds.map server.event, ∀ fd, event.fd = some fd → some fd ∈ fds := by
    intro event member fd own
    rcases List.mem_map.mp member with ⟨reported, listed, rfl⟩
    rw [fd_event (ready reported listed)] at own
    exact own ▸ listed
  have before : ∀ fd later, (if some fd ∈ fds then
      (server.clients fd).map fun client => { client with entry := client.entry.report }
      else server.clients fd) = some later →
      ∃ client, server.clients fd = some client ∧ later.id = client.id := by
    intro fd later there
    split at there
    · rcases Option.map_eq_some_iff.mp there with ⟨client, here, rfl⟩
      exact ⟨client, here, rfl⟩
    · exact ⟨later, there, rfl⟩
  refine ⟨?_, ?_, once.known, once.once, once.size⟩
  · intro fd later there
    dsimp only at there
    split at there
    · next listed =>
        rcases Option.map_eq_some_iff.mp there with ⟨client, here, rfl⟩
        rcases exists_client_of_reports (ready _ listed) with ⟨same, here', ready⟩
        cases here.symm.trans here'
        have single := once.clients fd client here
        have unasked : client.id ∉ server.receivedFrom :=
          single.enabled (Entry.enabled_of_reports ready)
        have disabled : client.entry.report.disabled = true :=
          Entry.disabled_report_of_oneShot single.oneShot
        refine ⟨single.known, ?_, fun _ => unasked, fun _ _ _ => ⟨disabled, unasked⟩⟩
        rw [Entry.events_report]
        exact single.oneShot
    · next unlisted =>
        have single := once.clients fd later there
        refine ⟨single.known, single.oneShot, single.enabled, ?_⟩
        intro event member own
        exact absurd (asks event member fd own) unlisted
  · intro fd client other same here there equal
    rcases before fd client here with ⟨clientBefore, hereBefore, id⟩
    rcases before other same there with ⟨sameBefore, thereBefore, otherId⟩
    exact once.distinct fd clientBefore other sameBefore hereBefore thereBefore
      (otherId.symm.trans (equal.trans id))

theorem change {label : Label} (oneShot : program.clientEvents.oneShot = true)
    (never : program.again = none) (reported : server.Reported)
    (once : server.ReceivesOnce program) (change : Change program server label next) :
    next.ReceivesOnce program := by
  cases change with
  | counts waiting running =>
      exact once.keep (descends_of_eq rfl) (Nat.le_refl _) (List.Subset.refl _) rfl
  | notified here unread ended broken more =>
      exact once.keep (descends_assign here rfl rfl rfl rfl) (Nat.le_refl _) (List.Subset.refl _)
        rfl
  | dropped here quiet =>
      exact once.keep (descends_assign here rfl rfl rfl rfl) (Nat.le_refl _) (List.Subset.refl _)
        rfl
  | waited empty free distinct ready => exact once.waited ready
  | passed batch free other waiting connected more =>
      exact once.keep (descends_of_eq rfl) more (batch ▸ List.subset_cons_self _ _) rfl
  | accepted batch free listening fresh waiting unread ended broken =>
      exact once.accepted oneShot reported batch fresh
  | received batch free own input here unread =>
      exact once.logged reported batch own here (descends_assign here rfl rfl rfl rfl) rfl rfl rfl
        (List.length_take_le _ _)
  | closed batch free own input here =>
      exact once.logged reported batch own here (descends_close rfl) rfl rfl rfl (Nat.zero_le _)
  | missed batch free own input here nothing =>
      exact once.logged reported batch own here (descends_of_eq rfl) rfl rfl rfl (Nat.zero_le _)
  | modified again registers =>
      rw [never] at registers
      cases registers
  | unmodified again failed =>
      exact once.keep (descends_of_eq rfl) (Nat.le_refl _) (List.Subset.refl _) rfl
  | abandoned again =>
      exact once.keep (descends_close rfl) (Nat.le_refl _) (List.Subset.refl _) rfl

end ReceivesOnce

theorem receivesOnce_create : create.ReceivesOnce program where
  clients _ _ here := absurd here (Option.some_ne_none _).symm
  distinct _ _ _ _ here _ _ := absurd here (Option.some_ne_none _).symm
  known _ member := absurd member List.not_mem_nil
  once := List.nodup_nil
  size _ member := absurd member List.not_mem_nil

/-- In every run `recv` is called for a connection at most once. -/
theorem received_at_most_once (oneShot : program.clientEvents.oneShot = true)
    (never : program.again = none) {labels : List Label}
    (run : (serverMachine program).Transitions create labels server) :
    (server.log.map Prod.fst).Nodup ∧
      ∀ entry ∈ server.log, entry.2.length ≤ program.bufferSize := by
  have once : server.ReceivesOnce program := by
    apply run.invariant_of_invariant
    · intro before label after reported step
      exact Reported.change reported (step_changes step)
    · intro before label after reported _ once step
      exact ReceivesOnce.change oneShot never reported once (step_changes step)
    · exact reported_create
    · exact receivesOnce_create
  exact ⟨once.once, once.size⟩

/-- Of two bytes one is received, and what comes later is not. -/
theorem received_at_most_once_two : ∃ server : Server,
    server.log = [(0, [1])] ∧ (server.log.map Prod.fst).Nodup ∧
      ∀ entry ∈ server.log, entry.2.length ≤ 1 := by
  have facts : (Machine.runPartial (step epollServerWithOneshot) create
      [.connect, .wait [none], .accept 0 [1, 2] false false true, .wait [some 0], .receive .data,
        .arrive 0 [3], .finish 0 false]).map log = some [(0, [1])] := rfl
  rcases Option.map_eq_some_iff.mp facts with ⟨server, ran, logged⟩
  exact ⟨server, logged, received_at_most_once rfl rfl (Machine.transitions_of_runPartial ran)⟩

end MyBookSources.EpollServers.Server
