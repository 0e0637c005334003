import MyBookSources.IOCPServer.IOCPModel
import Mathlib.Data.List.Nodup

/-! # Outstanding requests

Each completion of an `AcceptEx` is answered by a new one, at the end of `_DoAccept`. The request
is lost on every path that returns before, and `_PostRecv` puts the usual one among these: it
takes `WSA_IO_PENDING` for the failure, and the I/O context of a receive that is pending is freed.
-/

namespace MyBookSources.IOCPServer

open Machine

/-- `_DoAccept` comes to its end and posts the next request. -/
def Completion.Reposts : Completion → Prop
  | .accept _ associated recv post =>
      associated = true ∧ recv ≠ .pending ∧ post.socket.isSome = true ∧ post.acceptEx ≠ .failed
  | .acceptError .. => False
  | .receive .. => True
  | .receiveError .. => True

namespace CIOCPModel

variable {model next : CIOCPModel}

/-- All requests are outstanding, and no context of a pending receive is freed. -/
structure Posted (model : CIOCPModel) : Prop where
  accepts : model.accepts.length = MAX_POST_ACCEPT
  unfreed : ∀ receive ∈ model.receives, receive.1 ∉ model.freed

/-- A client has at most one receive, which is made in the only I/O context of the client. -/
structure Served (model : CIOCPModel) : Prop extends model.Posted where
  distinct : (model.receives.map Prod.fst).Nodup
  received : ∀ receive ∈ model.receives, receive.1 < model.next ∧ receive.2 < model.next
  freed : ∀ address ∈ model.freed, address < model.next
  clients : ∀ client ∈ model.arrayClientContext, client.address < model.next
  owned : ∀ receive ∈ model.receives, ∀ client ∈ model.arrayClientContext,
    client.address = receive.2 → client.arrayIoContext.map PerIoContext.address = [receive.1]

theorem Started.served {value : Nat} (started : model.Started value MAX_POST_ACCEPT) :
    model.Served where
  accepts := by rw [started.accepts, List.length_range']
  unfreed := by simp [started.receives]
  distinct := by simp [started.receives]
  received := by simp [started.receives]
  freed := by simp [started.freed]
  clients := by simp [started.clients]
  owned := by simp [started.receives]

/-! ## The end of a receive -/

theorem Served.taken (served : model.Served) (receive : Nat × Nat) :
    { model with receives := model.receives.erase receive }.Served where
  accepts := served.accepts
  unfreed other member := served.unfreed other (List.mem_of_mem_erase member)
  distinct := (List.erase_sublist.map _).nodup served.distinct
  received other member := served.received other (List.mem_of_mem_erase member)
  freed := served.freed
  clients := served.clients
  owned other member := served.owned other (List.mem_of_mem_erase member)

theorem Served.address_ne (served : model.Served) {receive other : Nat × Nat}
    (outstanding : receive ∈ model.receives) (member : other ∈ model.receives.erase receive) :
    other.1 ≠ receive.1 := by
  intro same
  have distinct := (List.perm_cons_erase outstanding).map Prod.fst |>.nodup served.distinct
  rw [List.map_cons, List.nodup_cons] at distinct
  exact distinct.1 (same ▸ List.mem_map_of_mem member)

theorem Served.removed (served : model.Served) {receive : Nat × Nat}
    (outstanding : receive ∈ model.receives) :
    ({ model with receives := model.receives.erase receive }.removeContext receive.2).Served := by
  have rest := served.taken receive
  rcases removeContext_cases { model with receives := model.receives.erase receive } receive.2 with
    same | ⟨client, front, back, here, split, removed⟩
  · rw [same]
    exact rest
  · rw [removed]
    have member : client ∈ model.arrayClientContext := by
      rw [split]
      exact List.mem_append_right _ List.mem_cons_self
    have others : ∀ other ∈ front ++ back, other ∈ model.arrayClientContext := by
      intro other otherMember
      rw [split]
      rcases List.mem_append.mp otherMember with before | after
      · exact List.mem_append_left _ before
      · exact List.mem_append_right _ (List.mem_cons_of_mem _ after)
    have contexts := served.owned receive outstanding client member here
    refine ⟨⟨rest.accepts, ?_⟩, rest.distinct, rest.received, ?_, ?_, ?_⟩
    · intro other otherMember
      simp only [deleteSocketContext, contexts, List.mem_append, List.mem_singleton]
      rintro (before | same)
      · exact rest.unfreed other otherMember before
      · exact served.address_ne outstanding otherMember same
    · intro address freed
      simp only [deleteSocketContext, contexts, List.mem_append, List.mem_singleton] at freed
      rcases freed with before | rfl
      · exact served.freed address before
      · exact (served.received receive outstanding).1
    · intro other otherMember
      exact served.clients other (others other otherMember)
    · intro other otherMember kept keptMember
      exact rest.owned other otherMember kept (others kept keptMember)

theorem Served.failed (served : model.Served) {receive : Nat × Nat}
    (outstanding : receive ∈ model.receives) (dwErr : Nat) (alive : Bool) :
    ({ model with receives := model.receives.erase receive }.failCompletion receive.2 dwErr
      alive).Served := by
  rcases failCompletion_cases { model with receives := model.receives.erase receive } receive.2
    dwErr alive with ⟨threads, same⟩ | same
  · rw [same]
    have rest := served.taken receive
    exact ⟨⟨rest.accepts, rest.unfreed⟩, rest.distinct, rest.received, rest.freed, rest.clients,
      rest.owned⟩
  · rw [same]
    exact served.removed outstanding

theorem Served.again (served : model.Served) {receive : Nat × Nat}
    (outstanding : receive ∈ model.receives) :
    { model with receives := model.receives.erase receive ++ [receive] }.Served := by
  have same := perm_erase_concat outstanding
  refine ⟨⟨served.accepts, ?_⟩, ?_, ?_, served.freed, served.clients, ?_⟩
  · intro other member
    exact served.unfreed other (same.mem_iff.mp member)
  · exact (same.map Prod.fst).nodup_iff.mpr served.distinct
  · intro other member
    exact served.received other (same.mem_iff.mp member)
  · intro other member
    exact served.owned other (same.mem_iff.mp member)

/-! ## A new client -/

theorem Served.admitted (served : model.Served) (address : Nat) (socket : Socket)
    (recv : Overlapped) :
    let model := model.admitted address socket recv
    (∀ receive ∈ model.receives, receive.1 ∉ model.freed) ∧
      (model.receives.map Prod.fst).Nodup ∧
      (∀ receive ∈ model.receives, receive.1 < model.next ∧ receive.2 < model.next) ∧
      (∀ client ∈ model.arrayClientContext, client.address < model.next) ∧
      ∀ receive ∈ model.receives, ∀ client ∈ model.arrayClientContext,
        client.address = receive.2 →
          client.arrayIoContext.map PerIoContext.address = [receive.1] := by
  intro admitted
  have cases_of_receive : ∀ receive ∈ admitted.receives,
      receive ∈ model.receives ∨ receive = (model.next + 1, model.next) := by
    intro receive member
    simp only [admitted, CIOCPModel.admitted] at member
    split at member
    · exact .inl member
    · exact (List.mem_append.mp member).imp id List.mem_singleton.mp
  have cases_of_client : ∀ client ∈ admitted.arrayClientContext,
      client ∈ model.arrayClientContext ∨
        client = ⟨model.next, socket, [⟨model.next + 1, socket, .recvPosted⟩]⟩ := by
    intro client member
    exact (List.mem_append.mp member).imp id List.mem_singleton.mp
  refine ⟨?_, ?_, ?_, ?_, ?_⟩
  · intro receive member freed
    rcases cases_of_receive receive member with before | rfl
    · exact served.unfreed receive before freed
    · have := served.freed _ freed
      omega
  · simp only [admitted, CIOCPModel.admitted]
    split
    · exact served.distinct
    · rw [List.map_append, List.nodup_append]
      refine ⟨served.distinct, List.nodup_singleton _, ?_⟩
      rintro first member second new rfl
      rcases List.mem_map.mp member with ⟨receive, before, same⟩
      have := (served.received receive before).1
      rw [List.map_singleton, List.mem_singleton] at new
      omega
  · intro receive member
    have next : admitted.next = model.next + 2 := rfl
    rcases cases_of_receive receive member with before | rfl
    · have := served.received receive before
      omega
    · simp only
      omega
  · intro client member
    have next : admitted.next = model.next + 2 := rfl
    rcases cases_of_client client member with before | rfl
    · have := served.clients client before
      omega
    · simp only
      omega
  · intro receive member client clientMember here
    rcases cases_of_receive receive member with before | rfl
    · rcases cases_of_client client clientMember with old | rfl
      · exact served.owned receive before client old here
      · have := (served.received receive before).2
        simp only at here
        omega
    · rcases cases_of_client client clientMember with old | rfl
      · have := served.clients client old
        simp only at here
        omega
      · rfl

theorem Served.accepted (served : model.Served) {address target : Nat} {socket : Socket}
    {recv : Overlapped} {post : PostOutcome} {posted : Bool} (outstanding : address ∈ model.accepts)
    (reposted : (model.admitted address socket recv).postAccept target post =
      some (posted, next))
    (success : posted = true) : next.Served := by
  rcases postAccept_eq reposted with ⟨_, _, rfl⟩
  rcases served.admitted address socket recv with ⟨unfreed, distinct, received, clients, owned⟩
  have freed : ∀ freed ∈ model.freed, freed < model.next + 2 := by
    intro freed member
    have := served.freed freed member
    omega
  refine ⟨⟨?_, unfreed⟩, distinct, received, freed, clients, owned⟩
  rw [if_pos success, List.length_append, List.length_singleton]
  simp only [CIOCPModel.admitted]
  have := List.length_pos_of_mem outstanding
  rw [List.length_erase_of_mem outstanding, served.accepts] at *
  omega

/-! ## Runs -/

theorem Served.complete (served : model.Served) {completion : Completion}
    (done : model.complete completion = some next) (reposts : completion.Reposts) :
    next.Served := by
  cases completes_of_complete done with
  | unassociated => cases reposts.1
  | pending => exact absurd rfl reposts.2.1
  | accepted _ outstanding _ _ reposted =>
      exact served.accepted outstanding reposted
        ((postAccept_eq reposted).2.1.mpr reposts.2.2)
  | acceptError => exact reposts.elim
  | disconnect outstanding => exact served.removed outstanding
  | received outstanding =>
      split
      · exact served.taken _
      · exact served.again outstanding
  | receiveError outstanding => exact served.failed outstanding _ _

theorem accepts_removeContext (model : CIOCPModel) (address : Nat) :
    (model.removeContext address).accepts = model.accepts := by
  rcases model.removeContext_cases address with same | ⟨_, _, _, _, _, same⟩
  · rw [same]
  · rw [same]
    rfl

theorem Served.reposts_of_posted (served : model.Served) {completion : Completion}
    (done : model.complete completion = some next) (posted : next.Posted) :
    completion.Reposts := by
  have erased : ∀ {address : Nat}, address ∈ model.accepts →
      (model.accepts.erase address).length ≠ MAX_POST_ACCEPT := by
    intro address outstanding
    have := List.length_pos_of_mem outstanding
    rw [List.length_erase_of_mem outstanding, served.accepts] at *
    omega
  cases completes_of_complete done with
  | unassociated _ outstanding => exact absurd posted.accepts (erased outstanding)
  | pending _ outstanding => exact absurd posted.accepts (erased outstanding)
  | accepted _ outstanding _ notPending reposted =>
      rcases postAccept_eq reposted with ⟨_, success, rfl⟩
      refine ⟨rfl, notPending, success.mp ?_⟩
      by_contra lost
      have missing := posted.accepts
      rw [if_neg lost] at missing
      exact erased outstanding missing
  | @acceptError address dwErr alive listen listening outstanding =>
      have missing := posted.accepts
      rcases failCompletion_cases { model with accepts := model.accepts.erase address }
        listen.address dwErr alive with ⟨threads, same⟩ | same
      · rw [same] at missing
        exact absurd missing (erased outstanding)
      · rw [same, accepts_removeContext] at missing
        exact absurd missing (erased outstanding)
  | disconnect => exact trivial
  | received => exact trivial
  | receiveError => exact trivial

/-- All requests stay outstanding and no pending receive loses its context exactly if each
accept is answered: the new socket is associated, its receive is not pending, and the next
`AcceptEx` is posted. -/
theorem posted_iff_reposts {processors : Nat} {listenSocket : Socket}
    {posts : Nat → PostOutcome} {completions : List Completion} {last : CIOCPModel}
    (started : start processors listenSocket posts = some (true, model))
    (run : runPartial complete model completions = some last) :
    RunHolds complete Posted model completions ↔
      ∀ completion ∈ completions, completion.Reposts := by
  rcases started_of_start started with ⟨value, initial⟩
  rw [← runPermits_iff_forall run]
  apply runHolds_iff_of_run _ _ initial.served initial.served.toPosted run
  · intro state completion next served done reposts
    exact ⟨served.complete done reposts, (served.complete done reposts).toPosted⟩
  · intro state completion next served done posted
    exact served.reposts_of_posted done posted

/-- Two clients come: the receive of the first ends at once, that of the second fails. -/
def twoClients : List Completion :=
  [.accept 1 true .done ⟨some 300, .pending⟩, .accept 2 true .failed ⟨some 301, .done⟩]

theorem posted_iff_reposts_two :
    ∃ model last, start 1 (some 100) pendingPosts = some (true, model) ∧
      runPartial complete model twoClients = some last ∧
      RunHolds complete Posted model twoClients := by
  refine ⟨_, _, rfl, rfl,
    (@posted_iff_reposts _ 1 (some 100) pendingPosts twoClients _ rfl rfl).mpr ?_⟩
  simp [twoClients, Completion.Reposts]

/-- The first receive of a client is pending, as it usually is. -/
theorem pending_receive_freed :
    ∃ model last, start 1 (some 100) pendingPosts = some (true, model) ∧
      complete model (.accept 1 true .pending ⟨some 300, .pending⟩) = some last ∧
      last.accepts.length = 9 ∧ (∃ receive ∈ last.receives, receive.1 ∈ last.freed) ∧
      ¬ last.Posted := by
  refine ⟨_, _, rfl, rfl, rfl, ⟨(12, 11), ?_, ?_⟩, ?_⟩
  · decide
  · decide
  · intro posted
    exact absurd posted.accepts (by decide)

end CIOCPModel

end MyBookSources.IOCPServer
