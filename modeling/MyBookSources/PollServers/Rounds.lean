import MyBookSources.PollServers.Descriptors

/-! # The rounds of the poll server

While the loop goes through the array, clients are added at its end and marked in the middle.
Each descriptor that `poll` has reported is served once all the same, and no other one is.
-/

namespace MyBookSources.PollServers

open Net (Errno ReadResult)

/-- What the loop still comes to from the place `i` on. -/
def ahead (fds : List Pollfd) (i : Nat) : List Nat := (fds.drop i).filterMap Pollfd.readable

section ahead

variable {fds : List Pollfd} {i fd : Nat}

theorem ahead_eq {pollfd : Pollfd} (here : fds[i]? = some pollfd) :
    ahead fds i = pollfd.readable.toList ++ ahead fds (i + 1) := by
  rcases List.getElem?_eq_some_iff.mp here with ⟨within, found⟩
  rw [ahead, List.drop_eq_getElem_cons within, found, List.filterMap_cons]
  cases pollfd.readable <;> rfl

theorem ahead_of_through (through : fds[i]? = none) : ahead fds i = [] := by
  rw [ahead, List.drop_eq_nil_of_le (List.getElem?_eq_none_iff.mp through)]
  rfl

theorem ahead_added (within : i ≤ fds.length) (new : Nat) :
    ahead (fds ++ [⟨some new, false⟩]) i = ahead fds i := by
  rw [ahead, List.drop_append_of_le_length within, List.filterMap_append]
  exact List.append_nil _

theorem ahead_mark {revents : Bool} (distinct : (held fds).Nodup)
    (here : fds[i]? = some ⟨some fd, revents⟩) :
    ahead (mark fd fds) (i + 1) = ahead fds (i + 1) := by
  rw [mark_eq_set distinct here, ahead, List.drop_set_of_lt (Nat.lt_succ_self i)]
  rfl

theorem ahead_report (fds : List Pollfd) (ready : List Nat) :
    ahead (fds.map (·.report ready)) 0 = (held fds).filter (· ∈ ready) := by
  rw [ahead, List.drop_zero]
  induction fds with
  | nil => rfl
  | cons pollfd rest induction =>
      rw [List.map_cons, List.filterMap_cons, held_cons, List.filter_append, ← induction]
      rcases pollfd with ⟨found, revents⟩
      cases found with
      | none => rfl
      | some fd =>
          by_cases member : fd ∈ ready
          · simp [Pollfd.report, Pollfd.readable, member]
          · simp [Pollfd.report, Pollfd.readable, member]

end ahead

namespace PollServer

variable {server next : PollServer}

structure InRound (server : PollServer) : Prop where
  distinct : server.reported.Nodup
  looping : ∀ i, server.place = .looping i →
    server.served ++ ahead server.fds i = server.reported
  between : (∀ i, server.place ≠ .looping i) → server.served = server.reported

namespace InRound

theorem proceed {i fd : Nat} (round : server.InRound) (looping : server.place = .looping i)
    (here : server.fds[i]? = some ⟨some fd, true⟩) (served : next.served = server.served)
    (reported : next.reported = server.reported)
    (same : ahead next.fds (i + 1) = ahead server.fds (i + 1)) :
    (next.proceed i fd).InRound where
  distinct := by
    change next.reported.Nodup
    rw [reported]
    exact round.distinct
  looping j place := by
    cases place
    have all := round.looping i looping
    rw [ahead_eq here] at all
    change next.served ++ [fd] ++ ahead next.fds (i + 1) = next.reported
    rw [served, same, reported, List.append_assoc]
    exact all
  between outside := absurd rfl (outside (i + 1))

theorem accept {i fd : Nat} {accepted : Accepted} (round : server.InRound)
    (looping : server.place = .looping i) (here : server.fds[i]? = some ⟨some fd, true⟩)
    (result : server.acceptClient accepted = some next) : (next.proceed i fd).InRound := by
  have within : i + 1 ≤ server.fds.length := (List.getElem?_eq_some_iff.mp here).1
  rcases acceptClient_cases result with
    ⟨errno, rfl, rfl⟩ | ⟨new, errno, rfl, closed, rfl⟩ | ⟨new, rfl, closed, rfl⟩
  · exact round.proceed looping here rfl rfl rfl
  · exact round.proceed looping here rfl rfl rfl
  · exact round.proceed looping here rfl rfl (ahead_added within new)

theorem receive {i fd : Nat} (round : server.InRound) (distinct : (held server.fds).Nodup)
    (looping : server.place = .looping i) (here : server.fds[i]? = some ⟨some fd, true⟩)
    (received : ReadResult) : ((server.receiveFrom fd received).proceed i fd).InRound := by
  cases received with
  | received data => exact round.proceed looping here rfl rfl rfl
  | endOfStream =>
      rw [receiveFrom, closeClient]
      split
      · exact round.proceed looping here rfl rfl rfl
      · exact round.proceed looping here rfl rfl (ahead_mark distinct here)
  | failed errno =>
      rw [receiveFrom, closeClient]
      split
      · exact round.proceed looping here rfl rfl rfl
      · exact round.proceed looping here rfl rfl (ahead_mark distinct here)

theorem outside (round : server.InRound) (outside : ∀ i, server.place ≠ .looping i)
    (still : ∀ i, next.place ≠ .looping i) (served : next.served = server.served)
    (reported : next.reported = server.reported) : next.InRound where
  distinct := by
    rw [reported]
    exact round.distinct
  looping i place := absurd place (still i)
  between _ := by
    rw [served, reported]
    exact round.between outside

theorem change {label : Label} (round : server.InRound) (accounted : server.Accounted)
    (change : server.Change label next) : next.InRound := by
  cases change with
  | polled ready idle =>
      refine ⟨accounted.owned.distinct.filter _, ?_, fun outside => absurd rfl (outside 0)⟩
      intro i place
      cases place
      exact ahead_report server.fds ready
  | failed errno idle =>
      refine round.outside (fun i => idle ▸ Place.noConfusion) ?_ rfl rfl
      intro i
      dsimp only
      split
      · exact Place.noConfusion
      · exact Place.noConfusion
  | timedOut idle => exact round
  | accepted looping here listening result => exact round.accept looping here result
  | received received looping here client =>
      exact round.receive accounted.owned.distinct looping here received
  | @passed i pollfd looping here silent =>
      have all := round.looping i looping
      rw [ahead_eq here, Pollfd.readable, silent] at all
      refine ⟨round.distinct, ?_, fun outside => absurd rfl (outside (i + 1))⟩
      intro j place
      cases place
      exact all
  | @swept i looping through =>
      have all := round.looping i looping
      rw [ahead_of_through through, List.append_nil] at all
      exact ⟨round.distinct, fun j => Place.noConfusion, fun _ => all⟩
  | closed leaves =>
      exact round.outside (fun i => leaves ▸ Place.noConfusion) (fun i => Place.noConfusion)
        rfl rfl

end InRound

theorem inRound_of_run {listenfd : Nat} {errno : Errno} {labels : List Label}
    (run : serverMachine.Transitions (create listenfd errno) labels server) : server.InRound := by
  have initial : (create listenfd errno).InRound :=
    ⟨List.nodup_nil, fun i => Place.noConfusion, fun _ => rfl⟩
  have accountedKept : ∀ before label after, Accounted before →
      serverMachine.Step before label after → after.Accounted := by
    intro before label after accounted step
    exact accounted.change (step_changes step)
  refine run.invariant_of_invariant accountedKept ?_ ?_ initial
  · intro before label after accounted _ round step
    exact round.change accounted (step_changes step)
  · exact accounted_create listenfd errno

/-- In every run the server makes its calls for the descriptors that `poll` has told of, one for
each, in the order of the array, and it has made all of them when it polls again. -/
theorem serves_each_report_once {listenfd : Nat} {errno : Errno} {labels : List Label}
    (run : serverMachine.Transitions (create listenfd errno) labels server) :
    server.reported.Nodup ∧ server.served <+: server.reported ∧
      (server.place = .polling → server.served = server.reported) := by
  have round := inRound_of_run run
  refine ⟨round.distinct, ?_, ?_⟩
  · cases place : server.place with
    | looping i => exact ⟨_, round.looping i place⟩
    | polling | left | finished =>
        have all := round.between fun i => place ▸ Place.noConfusion
        exact ⟨[], (List.append_nil _).trans all⟩
  · intro idle
    exact round.between fun i => idle ▸ Place.noConfusion

def twoRounds : List Label :=
  [.poll [3], .accept (.added 4), .pass, .sweep, .poll [4, 3], .accept (.added 5),
    .receive (.received [0]), .pass, .sweep]

theorem serves_each_report_once_two :
    ∃ server, serverMachine.Transitions (create 3 (.other 0)) twoRounds server ∧
      server.served = [3, 4] := by
  refine ⟨_, Machine.transitions_of_runPartial rfl, ?_⟩
  exact (serves_each_report_once (Machine.transitions_of_runPartial
    (rfl : Machine.runPartial step (create 3 (.other 0)) twoRounds = some _))).2.2 rfl

end PollServer

end MyBookSources.PollServers
