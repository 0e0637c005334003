import MyBookSources.PollServers.Descriptors

/-! # Clients that have ended

`recv` leaves `errno` alone where it returns zero, so that the server decides by the error of
some earlier call whether it closes the client.
-/

namespace MyBookSources.PollServers

open Net (Errno ReadResult)

def Label.errno : Label → Option Errno
  | .pollFails errno => some errno
  | .accept (.failed errno) => some errno
  | .accept (.refused _ errno) => some errno
  | .receive (.failed errno) => some errno
  | _ => none

def lastErrno (errno : Errno) (labels : List Label) : Errno :=
  labels.foldl (fun last label => label.errno.getD last) errno

namespace PollServer

variable {server next : PollServer}

theorem errno_closeClient (fd : Nat) : (server.closeClient fd).errno = server.errno := by
  rw [closeClient]
  split <;> rfl

theorem errno_of_change {label : Label} (change : server.Change label next) :
    next.errno = label.errno.getD server.errno := by
  cases change with
  | polled | failed | timedOut | passed | swept | closed => rfl
  | @accepted i fd accepted later looping here listening result =>
      rcases acceptClient_cases result with
        ⟨errno, rfl, rfl⟩ | ⟨new, errno, rfl, closed, rfl⟩ | ⟨new, rfl, closed, rfl⟩
      · rfl
      · rfl
      · rfl
  | received received looping here client =>
      cases received with
      | received data => rfl
      | endOfStream => exact errno_closeClient _
      | failed errno => exact errno_closeClient _

/-- Every client whose end has been read is closed. -/
def EndsClosed (server : PollServer) : Prop :=
  ∀ number ∈ server.ended, number ∈ server.handles.closed

/-- The end is not read while the client would be kept. -/
def Heeds (server : PollServer) (label : Label) : Prop :=
  label = .receive .endOfStream → keeps server.errno = false

theorem ended_of_change {label : Label} (change : server.Change label next)
    (other : label ≠ .receive .endOfStream) : next.ended = server.ended := by
  cases change with
  | polled | failed | timedOut | passed | swept | closed => rfl
  | @accepted i fd accepted later looping here listening result =>
      rcases acceptClient_cases result with
        ⟨errno, rfl, rfl⟩ | ⟨new, errno, rfl, closed, rfl⟩ | ⟨new, rfl, closed, rfl⟩
      · rfl
      · rfl
      · rfl
  | received received looping here client =>
      cases received with
      | received data => rfl
      | endOfStream => exact absurd rfl other
      | failed errno =>
          rw [receiveFrom, closeClient]
          split
          · rfl
          · rfl

theorem closed_of_change {label : Label} (change : server.Change label next) :
    server.handles.closed <+: next.handles.closed := by
  cases change with
  | polled | failed | timedOut | passed | swept => exact List.prefix_rfl
  | @accepted i fd accepted later looping here listening result =>
      rcases acceptClient_cases result with
        ⟨errno, rfl, rfl⟩ | ⟨new, errno, rfl, closed, rfl⟩ | ⟨new, rfl, closed, rfl⟩
      · exact List.prefix_rfl
      · exact List.prefix_append _ _
      · exact List.prefix_rfl
  | received received looping here client =>
      cases received with
      | received data => exact List.prefix_rfl
      | endOfStream | failed =>
          rw [receiveFrom, closeClient]
          split
          · exact List.prefix_rfl
          · exact List.prefix_append _ _
  | closed leaves =>
      rw [HandleTable.closeAll_eq]
      exact List.prefix_append _ _

theorem EndsClosed.change {label : Label} (closed : server.EndsClosed)
    (heeds : server.Heeds label) (change : server.Change label next) : next.EndsClosed := by
  intro number member
  by_cases ends : label = .receive .endOfStream
  · cases ends
    have acts := heeds rfl
    cases change with
    | @received i fd received looping here client =>
        rw [receiveFrom, closeClient, if_neg (Bool.eq_false_iff.mp acts)] at member ⊢
        rcases List.mem_append.mp member with before | own
        · exact List.mem_append_left _ (closed number before)
        · exact List.mem_append_right _ own
  · rw [ended_of_change change ends] at member
    exact (closed_of_change change).subset (closed number member)

theorem heeds_of_endsClosed {label : Label} (accounted : server.Accounted)
    (change : server.Change label next) (closed : next.EndsClosed) : server.Heeds label := by
  rintro rfl
  cases kept : keeps server.errno with
  | false => rfl
  | true =>
      cases change with
      | @received i fd received looping here client =>
          rcases accounted.owned.not_closed (mem_held_of_getElem? here) with
            ⟨number, named, stays⟩
          rw [receiveFrom, closeClient, if_pos kept] at closed
          have member : number ∈ server.ended ++ (server.handles.named fd).toList := by
            rw [named]
            exact List.mem_append_right _ List.mem_cons_self
          exact absurd (closed number member) stays

theorem heeds_iff_cuts {last : PollServer} {labels : List Label}
    (run : Machine.runPartial step server labels = some last) :
    Machine.RunPermits step Heeds server labels ↔ ∀ front later,
      labels = front ++ .receive .endOfStream :: later →
        keeps (lastErrno server.errno front) = false := by
  induction labels generalizing server with
  | nil =>
      constructor
      · intro _ front later whole
        cases front <;> cases whole
      · intro _
        trivial
  | cons label labels induction =>
      rcases Option.bind_eq_some_iff.mp run with ⟨next, taken, rest⟩
      have errno := errno_of_change (step_changes taken)
      constructor
      · rintro ⟨first, along⟩ front later whole
        cases front with
        | nil =>
            cases whole
            exact first rfl
        | cons front fronts =>
            cases whole
            have cut := (induction rest).mp (along next taken) fronts later rfl
            rw [errno] at cut
            exact cut
      · intro cuts
        constructor
        · intro ends
          exact cuts [] labels (congrArg (· :: labels) ends)
        · intro other takenOther
          rw [taken] at takenOther
          cases takenOther
          rw [induction rest]
          intro front later whole
          have cut := cuts (label :: front) later (congrArg (label :: ·) whole)
          rw [errno]
          exact cut

/-- In a run every client is closed in the step that reads its end, and stays so, exactly if no
end is read while the last call that has failed, for whatever client, was interrupted or would
have blocked. -/
theorem ends_closed_iff {listenfd : Nat} {errno : Errno} {last : PollServer}
    {labels : List Label}
    (run : Machine.runPartial step (create listenfd errno) labels = some last) :
    Machine.RunHolds step EndsClosed (create listenfd errno) labels ↔ ∀ front later,
      labels = front ++ .receive .endOfStream :: later →
        keeps (lastErrno errno front) = false := by
  have start : (create listenfd errno).EndsClosed := fun _ member =>
    absurd member List.not_mem_nil
  have heeds : Machine.RunHolds step EndsClosed (create listenfd errno) labels ↔
      Machine.RunPermits step Heeds (create listenfd errno) labels := by
    have kept : ∀ state label next, Accounted state ∧ EndsClosed state →
        step state label = some next → Heeds state label →
        (Accounted next ∧ EndsClosed next) ∧ EndsClosed next := by
      intro state label next known taken permitted
      have change := step_changes taken
      have closed := known.2.change permitted change
      exact ⟨⟨known.1.change change, closed⟩, closed⟩
    have necessary : ∀ state label next, Accounted state ∧ EndsClosed state →
        step state label = some next → EndsClosed next → Heeds state label := by
      intro state label next known taken closed
      exact heeds_of_endsClosed known.1 (step_changes taken) closed
    exact Machine.runHolds_iff_of_run kept necessary
      ⟨accounted_create listenfd errno, start⟩ start run
  rw [heeds, heeds_iff_cuts run]
  rfl

/-- A client goes away before it is accepted, and from then on no client is closed. -/
def lostClient : List Label :=
  [.poll [3], .accept (.added 4), .pass, .sweep, .poll [3], .accept (.failed .EWOULDBLOCK), .pass,
    .sweep, .poll [4], .pass, .receive .endOfStream]

theorem ends_closed_iff_lost :
    ¬ Machine.RunHolds step EndsClosed (create 3 (.other 0)) lostClient := by
  intro along
  have cut := (ends_closed_iff rfl).mp along (lostClient.take 10) [] rfl
  cases cut

end PollServer

end MyBookSources.PollServers
