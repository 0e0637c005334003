import MyBookSources.EpollServers.ReportedClients

/-! # Clients that are not forgotten

What is there to be read is reported, or an event for it is still to be worked on, or its socket
is about to be registered again. Which programs keep to that can be told from their events.
-/

namespace MyBookSources.EpollServers

open Readiness (Events Entry)

namespace Program

variable {program : Program}

def Uses (program : Program) (events : Events) : Prop :=
  events = program.clientEvents ∨ program.again = some events

structure Listens (program : Program) : Prop where
  input : ∀ events, program.Uses events → events.input = true
  receives : 0 < program.bufferSize

/-- A program that does not register its clients again has to be told as long as there is
something; another has to keep the one report for what is received. -/
def Rearms (program : Program) : Prop :=
  match program.again with
  | none => program.clientEvents.Level
  | some events => program.clientEvents.Saves ∧ events.Saves

theorem Rearms.level (rearms : program.Rearms) (never : program.again = none) {events : Events}
    (uses : program.Uses events) : events.Level := by
  rw [Rearms, never] at rearms
  rcases uses with rfl | again
  · exact rearms
  · rw [never] at again
    cases again

theorem Rearms.saves (rearms : program.Rearms) (again : program.again ≠ none) {events : Events}
    (uses : program.Uses events) : events.Saves := by
  rw [Rearms] at rearms
  cases registers : program.again with
  | none => exact absurd registers again
  | some other =>
      rw [registers] at rearms
      rcases uses with rfl | same
      · exact rearms.1
      · rw [registers] at same
        cases same
        exact rearms.2

end Program

namespace Server

variable {program : Program} {server next : Server}

/-- `recv` is not interrupted, and `EPOLL_CTL_MOD` succeeds where a failure is not seen to. -/
def Undisturbed (program : Program) (_ : Server) (label : Label) : Prop :=
  label ≠ .receive .interrupted ∧ (label = .modify false → program.closesUnlessAgain = true)

instance (program : Program) (server : Server) (label : Label) :
    Decidable (Undisturbed program server label) :=
  inferInstanceAs (Decidable (_ ∧ _))

/-- An event for input is to be worked on, or `EPOLL_CTL_MOD` comes next. -/
def Pending (server : Server) (fd : Nat) : Prop :=
  (∃ event ∈ server.batch, event.fd = some fd ∧ event.input = true) ∨ server.again = some fd

def Attentive (server : Server) : Prop :=
  ∀ fd client, server.clients fd = some client → client.readable = true →
    client.entry.reports true = true ∨ server.Pending fd

/-! ## What keeps it -/

/-- A client may only rely on what is pending if the program will register it again. -/
def Awaited (program : Program) (server : Server) (fd : Nat) : Prop :=
  program.again ≠ none ∧ server.Pending fd

structure Kept (program : Program) (server : Server) (fd : Nat) (entry : Entry) (readable : Bool) :
    Prop where
  uses : program.Uses entry.events
  enabled : entry.disabled = true → server.Awaited program fd
  listed : readable = true → entry.listed = true ∨ server.Awaited program fd

def KeepsClients (program : Program) (server : Server) : Prop :=
  ∀ fd client, server.clients fd = some client →
    server.Kept program fd client.entry client.readable

theorem Awaited.rest {event : Event} {rest : List Event} {fd : Nat}
    (awaited : server.Awaited program fd) (batch : server.batch = event :: rest)
    (free : server.again = none) (other : event.fd = some fd → event.input = false)
    (nextBatch : next.batch = rest) : next.Awaited program fd := by
  refine ⟨awaited.1, .inl ?_⟩
  rcases awaited.2 with ⟨pending, member, own, input⟩ | asked
  · rw [batch] at member
    rcases List.mem_cons.mp member with rfl | later
    · rw [other own] at input
      cases input
    · exact ⟨pending, nextBatch ▸ later, own, input⟩
  · rw [free] at asked
    cases asked

theorem Awaited.batch {fd own : Nat} (awaited : server.Awaited program fd)
    (again : server.again = some own) (different : fd ≠ own)
    (nextBatch : next.batch = server.batch) : next.Awaited program fd := by
  refine ⟨awaited.1, .inl ?_⟩
  rcases awaited.2 with pending | asked
  · rw [nextBatch]
    exact pending
  · rw [again] at asked
    cases asked
    exact absurd rfl different

namespace Kept

variable {fd : Nat} {entry : Entry} {readable : Bool}

theorem mono (kept : server.Kept program fd entry readable)
    (awaits : server.Awaited program fd → next.Awaited program fd) :
    next.Kept program fd entry readable where
  uses := kept.uses
  enabled disabled := awaits (kept.enabled disabled)
  listed ready := (kept.listed ready).imp_right awaits

theorem registered {events : Events} (listens : program.Listens) (uses : program.Uses events) :
    server.Kept program fd (.register events readable) readable where
  uses := uses
  enabled disabled := Bool.noConfusion disabled
  listed ready := by
    rw [Entry.register, listens.input events uses, ready]
    exact .inl rfl

theorem notified (listens : program.Listens) (kept : server.Kept program fd entry readable)
    (more : Bool) : server.Kept program fd entry.notify more where
  uses := kept.uses
  enabled := kept.enabled
  listed _ := by
    rw [Entry.notify, listens.input _ kept.uses, Bool.true_and]
    cases disabled : entry.disabled with
    | true => exact .inr (kept.enabled disabled)
    | false => exact .inl (Bool.or_true _)

theorem dropped (listens : program.Listens) (kept : server.Kept program fd entry readable)
    (quiet : entry.reports readable = false) : server.Kept program fd entry.drop readable where
  uses := kept.uses
  enabled := kept.enabled
  listed ready := by
    rcases kept.listed ready with listed | awaited
    · rw [Entry.reports, listed, ready, listens.input _ kept.uses] at quiet
      cases disabled : entry.disabled with
      | true => exact .inr (kept.enabled disabled)
      | false =>
          rw [disabled] at quiet
          cases quiet
    · exact .inr awaited

theorem received (kept : server.Kept program fd entry readable) (ready : readable = true)
    (asks : program.again ≠ none → next.Pending fd) {later : Bool} :
    next.Kept program fd entry later := by
  by_cases never : program.again = none
  · refine ⟨kept.uses, ?_, ?_⟩
    · intro disabled
      exact absurd never (kept.enabled disabled).1
    · intro _
      exact (kept.listed ready).imp_right fun awaited => absurd never awaited.1
  · have awaited : next.Awaited program fd := ⟨never, asks never⟩
    exact ⟨kept.uses, fun _ => awaited, fun _ => .inr awaited⟩

theorem reported (rearms : program.Rearms) (kept : server.Kept program fd entry readable)
    (nothing : ¬ server.Awaited program fd) (ready : entry.reports readable = true)
    (pending : entry.events.input = true → readable = true → next.Pending fd)
    (listens : program.Listens) : next.Kept program fd entry.report readable := by
  have enabled : entry.disabled ≠ true := fun disabled => nothing (kept.enabled disabled)
  by_cases never : program.again = none
  · rw [Entry.report_of_level (rearms.level never kept.uses)]
    exact kept.mono fun awaited => absurd awaited nothing
  · have input := listens.input _ kept.uses
    have uses : program.Uses entry.report.events := by
      rw [Entry.events_report]
      exact kept.uses
    cases readable with
    | true =>
        have awaited : next.Awaited program fd := ⟨never, pending input rfl⟩
        exact ⟨uses, fun _ => awaited, fun _ => .inr awaited⟩
    | false =>
        refine ⟨uses, ?_, fun ready => Bool.noConfusion ready⟩
        intro disabled
        cases shots : entry.events.oneShot with
        | true =>
            have silent := rearms.saves never kept.uses shots
            rw [Entry.reports, silent, Bool.and_false, Bool.or_false, Bool.and_false] at ready
            cases ready
        | false =>
            rw [Entry.disabled_report shots] at disabled
            exact absurd disabled enabled

end Kept

theorem KeepsClients.change {label : Label} (listens : program.Listens) (rearms : program.Rearms)
    (reported : server.Reported) (keeps : server.KeepsClients program)
    (allowed : Undisturbed program server label) (change : Change program server label next) :
    next.KeepsClients program := by
  intro fd client there
  cases change with
  | counts waiting running => exact (keeps fd client there).mono id
  | notified here unread ended broken more =>
      rcases client_of_assign there with ⟨rfl, same⟩ | ⟨_, there⟩
      · cases same
        exact ((keeps _ _ here).notified listens _).mono id
      · exact (keeps fd client there).mono id
  | dropped here quiet =>
      rcases client_of_assign there with ⟨rfl, same⟩ | ⟨_, there⟩
      · cases same
        exact ((keeps _ _ here).dropped listens quiet).mono id
      · exact (keeps fd client there).mono id
  | @waited fds empty free distinct ready =>
      have nothing : ¬ server.Awaited program fd := by
        rintro ⟨_, ⟨event, member, _⟩ | asked⟩
        · rw [empty] at member
          cases member
        · rw [free] at asked
          cases asked
      dsimp only at there
      split at there
      · next listed =>
          rcases Option.map_eq_some_iff.mp there with ⟨client, here, rfl⟩
          rcases exists_client_of_reports (ready _ listed) with ⟨same, here', ready⟩
          cases here.symm.trans here'
          refine (keeps fd client here).reported rearms nothing ready ?_ listens
          intro input readable
          refine .inl ⟨server.event (some fd), List.mem_map_of_mem listed, ?_⟩
          rw [event_of_client here, input]
          exact ⟨rfl, readable⟩
      · exact (keeps fd client there).mono fun awaited => absurd awaited nothing
  | @passed event rest batch free other waiting connected more =>
      refine (keeps fd client there).mono fun awaited => awaited.rest batch free ?_ rfl
      intro own
      rcases other with listening | output
      · rw [listening] at own
        cases own
      · exact output
  | @accepted event rest accepted batch free listening fresh waiting unread ended broken =>
      rcases client_of_assign there with ⟨rfl, same⟩ | ⟨_, there⟩
      · cases same
        exact .registered listens (.inl rfl)
      · refine (keeps fd client there).mono fun awaited => awaited.rest batch free ?_ rfl
        intro own
        rw [listening] at own
        cases own
  | @received event rest fd' receiving batch free own input here unread =>
      rcases client_of_assign there with ⟨rfl, same⟩ | ⟨different, there⟩
      · cases same
        have ready : receiving.readable = true := by
          rw [Client.readable, List.isEmpty_eq_false_iff.mpr unread]
          rfl
        refine (keeps _ receiving here).received ready ?_
        intro again
        rcases Option.ne_none_iff_exists'.mp again with ⟨events, registers⟩
        refine .inr ?_
        rw [registers]
        rfl
      · refine (keeps fd client there).mono fun awaited => awaited.rest batch free ?_ rfl
        intro same
        exact absurd (Option.some.inj (same.symm.trans own)) different
  | @closed event rest fd' receiving batch free own input here =>
      rcases client_of_assign there with ⟨rfl, same⟩ | ⟨different, there⟩
      · cases same
      · refine (keeps fd client there).mono fun awaited => awaited.rest batch free ?_ rfl
        intro same
        exact absurd (Option.some.inj (same.symm.trans own)) different
  | @missed event rest fd' receiving batch free own input here nothing =>
      rcases nothing with interrupted | nothing
      · exact absurd interrupted allowed.1
      · have member : event ∈ server.batch := batch ▸ List.mem_cons_self
        rcases reported.current event member fd' own with ⟨same, there, _, ready⟩
        cases here.symm.trans there
        rw [nothing] at ready
        cases ready input
  | @modified own events again registers =>
      rcases client_of_assign there with ⟨rfl, same⟩ | ⟨different, there⟩
      · rcases Option.map_eq_some_iff.mp same with ⟨before, _, rfl⟩
        exact .registered listens (.inr registers)
      · exact (keeps fd client there).mono fun awaited => awaited.batch again different rfl
  | @unmodified own again failed =>
      rcases failed with never | ⟨failed, stays⟩
      · exact (keeps fd client there).mono fun awaited => absurd never awaited.1
      · rw [allowed.2 failed] at stays
        cases stays
  | @abandoned own again =>
      rcases client_of_assign there with ⟨rfl, same⟩ | ⟨different, there⟩
      · cases same
      · exact (keeps fd client there).mono fun awaited => awaited.batch again different rfl

theorem KeepsClients.attentive (listens : program.Listens) (keeps : server.KeepsClients program) :
    server.Attentive := by
  intro fd client here ready
  have kept := keeps fd client here
  rcases kept.listed ready with listed | awaited
  · cases disabled : client.entry.disabled with
    | true => exact .inr (kept.enabled disabled).2
    | false =>
        rw [Entry.reports, listed, disabled, listens.input _ kept.uses]
        exact .inl rfl
  · exact .inr awaited.2

theorem attentive_of_run (listens : program.Listens) (rearms : program.Rearms)
    {labels : List Label}
    (run : ((serverMachine program).restrict (Undisturbed program)).Transitions create labels
      server) : server.Attentive := by
  have keeps : server.KeepsClients program := by
    have reportedKept : ∀ before label after, Reported before →
        ((serverMachine program).restrict (Undisturbed program)).Step before label after →
        after.Reported := by
      intro before label after reported step
      exact reported.change (step_changes step.1)
    refine run.invariant_of_invariant reportedKept ?_ reported_create ?_
    · intro before label after reported _ keeps step
      exact keeps.change listens rearms reported step.2 (step_changes step.1)
    · intro fd client there
      cases there
  exact keeps.attentive listens

/-! ## What loses it -/

def moreThanReceived (program : Program) : List Label :=
  [.connect, .wait [none], .accept 0 (List.replicate (program.bufferSize + 1) 0) false false true,
    .wait [some 0], .receive .data]

/-- The program is told that it can send before there is something to receive. -/
def outputFirst : List Label :=
  [.connect, .wait [none], .accept 0 [] false false true, .wait [some 0], .skip, .arrive 0 [0]]

/-- The same behind `EPOLL_CTL_MOD`. -/
def outputAgain : List Label :=
  [.connect, .wait [none], .accept 0 [0] false false true, .wait [some 0], .receive .data,
    .modify true, .wait [some 0], .skip, .arrive 0 [0]]

theorem readable_left (count id : Nat) (ended broken : Bool) (entry : Entry) :
    (Client.mk id ((List.replicate (count + 1) (0 : UInt8)).drop count) ended broken
      entry).readable = true := by
  rw [Client.readable, List.drop_replicate, Nat.add_sub_cancel_left]
  rfl

theorem not_attentive (fd : Nat) {client : Client} (here : server.clients fd = some client)
    (ready : client.readable = true) (silent : client.entry.reports true = false)
    (empty : server.batch = []) (free : server.again = none) : ¬ server.Attentive := by
  intro attentive
  rcases attentive fd client here ready with reports | ⟨event, member, _⟩ | asked
  · rw [silent] at reports
    cases reports
  · rw [empty] at member
    cases member
  · rw [free] at asked
    cases asked

theorem forgets_input (listens : program.Listens) (never : program.again = none)
    (forgets : ¬ program.clientEvents.Level) :
    ∃ server, ((serverMachine program).restrict (Undisturbed program)).Transitions create
      (moreThanReceived program) server ∧ ¬ server.Attentive := by
  rcases program with ⟨⟨input, output, edge, oneShot⟩, bufferSize, again, closes⟩
  cases (listens.input _ (.inl rfl) : input = true)
  cases (never : again = none)
  refine ⟨_, Machine.transitions_of_checked_run rfl,
    not_attentive 0 rfl (readable_left ..) ?_ rfl rfl⟩
  cases oneShot with
  | true => rfl
  | false =>
      cases edge with
      | true => rfl
      | false => exact absurd ⟨rfl, rfl⟩ forgets

theorem not_saves {events : Events} (wastes : ¬ events.Saves) :
    events.oneShot = true ∧ events.output = true := by
  rw [Events.Saves] at wastes
  rcases not_forall.mp wastes with ⟨oneShot, output⟩
  exact ⟨oneShot, Bool.eq_true_of_not_eq_false output⟩

theorem forgets_first_input (listens : program.Listens) (forgets : ¬ program.clientEvents.Saves) :
    ∃ server, ((serverMachine program).restrict (Undisturbed program)).Transitions create
      outputFirst server ∧ ¬ server.Attentive := by
  rcases program with ⟨⟨input, output, edge, oneShot⟩, bufferSize, again, closes⟩
  cases (listens.input _ (.inl rfl) : input = true)
  cases ((not_saves forgets).1 : oneShot = true)
  cases ((not_saves forgets).2 : output = true)
  exact ⟨_, Machine.transitions_of_checked_run rfl, not_attentive 0 rfl rfl rfl rfl rfl⟩

theorem forgets_later_input (listens : program.Listens) {events : Events}
    (registers : program.again = some events) (forgets : ¬ events.Saves) :
    ∃ server, ((serverMachine program).restrict (Undisturbed program)).Transitions create
      outputAgain server ∧ ¬ server.Attentive := by
  rcases program with ⟨⟨input, output, edge, oneShot⟩, bufferSize, again, closes⟩
  cases (listens.input _ (.inl rfl) : input = true)
  cases (registers : again = some events)
  rcases events with ⟨inputAgain, outputAgain, edgeAgain, oneShotAgain⟩
  cases (listens.input _ (.inr rfl) : inputAgain = true)
  cases ((not_saves forgets).1 : oneShotAgain = true)
  cases ((not_saves forgets).2 : outputAgain = true)
  rcases Nat.exists_eq_add_one.mpr listens.receives with ⟨more, rfl⟩
  -- `drop` looks at its number first, also where nothing is left.
  cases more with
  | zero =>
      exact ⟨_, Machine.transitions_of_checked_run rfl, not_attentive 0 rfl rfl rfl rfl rfl⟩
  | succ more =>
      exact ⟨_, Machine.transitions_of_checked_run rfl, not_attentive 0 rfl rfl rfl rfl rfl⟩

end Server

namespace Program

variable {program : Program}

def ForgetsNoClient (program : Program) : Prop :=
  ∀ labels server, ((serverMachine program).restrict (Server.Undisturbed program)).Transitions
    .create labels server → server.Attentive

/-- A program forgets no client, in any run, exactly if its events are such that one report is
enough for what is received behind it. -/
theorem forgetsNoClient_iff_rearms (listens : program.Listens) :
    program.ForgetsNoClient ↔ program.Rearms := by
  constructor
  · intro attentive
    rw [Rearms]
    cases registers : program.again with
    | none =>
        by_contra forgets
        rcases Server.forgets_input listens registers forgets with ⟨server, run, unattended⟩
        exact unattended (attentive _ server run)
    | some events =>
        constructor
        · by_contra forgets
          rcases Server.forgets_first_input listens forgets with ⟨server, run, unattended⟩
          exact unattended (attentive _ server run)
        · by_contra forgets
          rcases Server.forgets_later_input listens registers forgets with
            ⟨server, run, unattended⟩
          exact unattended (attentive _ server run)
  · intro rearms labels server run
    exact Server.attentive_of_run listens rearms run

theorem Listens.of (input : program.clientEvents.input = true)
    (again : ∀ events ∈ program.again, events.input = true) (receives : 0 < program.bufferSize) :
    program.Listens where
  input := by
    rintro events (rfl | registers)
    · exact input
    · exact again events registers
  receives := receives

/-- Only the server that leaves out the call behind `recv` does. -/
theorem forgetsNoClient_iff_rearms_servers :
    epollServer.ForgetsNoClient ∧ epollServerWriteEventLt.ForgetsNoClient ∧
      epollServerWriteEventEt.ForgetsNoClient ∧ ¬ epollServerWithOneshot.ForgetsNoClient ∧
      epollServerWithOneshot2.ForgetsNoClient := by
  refine ⟨?_, ?_, ?_, ?_, ?_⟩
  · exact (forgetsNoClient_iff_rearms (.of rfl (by decide) (by decide))).mpr ⟨rfl, rfl⟩
  · exact (forgetsNoClient_iff_rearms (.of rfl (by decide) (by decide))).mpr ⟨rfl, rfl⟩
  · exact (forgetsNoClient_iff_rearms (.of rfl (by decide) (by decide))).mpr
      ⟨Events.saves_of_lasting rfl, Events.saves_of_lasting rfl⟩
  · intro attentive
    have rearms :=
      (forgetsNoClient_iff_rearms (.of rfl (by decide) (by decide))).mp attentive
    cases rearms.2
  · exact (forgetsNoClient_iff_rearms (.of rfl (by decide) (by decide))).mpr
      ⟨fun _ => rfl, Events.saves_of_lasting rfl⟩

end Program

end MyBookSources.EpollServers
