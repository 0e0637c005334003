import MyBookSources.IOCPServer.IOCPModel

/-! # Who closes a client's socket

`_DoAccept` copies the socket of the listener's I/O context to the client's context and to the
I/O context of the first receive, and the destructor of each closes what it finds. The copies are
never taken back, so a client leaves one call of `closesocket` too many on every path: either both
contexts of the client close its socket, or the client's context and the listener's do.
-/

namespace MyBookSources.IOCPServer

open Machine

def Completion.isAccept : Completion → Bool
  | .accept .. => true
  | _ => false

theorem sockets_append (left right : List PerIoContext) :
    sockets (left ++ right) = sockets left ++ sockets right :=
  List.flatMap_append

@[simp] theorem sockets_cons (context : PerIoContext) (contexts : List PerIoContext) :
    sockets (context :: contexts) = context.sockAccept.toList ++ sockets contexts :=
  rfl

@[simp] theorem sockets_nil : sockets [] = [] :=
  rfl

namespace CIOCPModel

variable {model next : CIOCPModel}

def clientHandles (model : CIOCPModel) : List Nat :=
  model.arrayClientContext.flatMap PerSocketContext.handles

/-- A model that listens on `value` with the I/O contexts `contexts`. The calls that close so far
and those that will be made are `surplus` more than the sockets that were created. -/
structure Held (value : Nat) (contexts : List PerIoContext) (surplus : Nat)
    (model : CIOCPModel) : Prop where
  listening : model.listenContext = some ⟨0, some value, contexts⟩
  distinct : (contexts.map PerIoContext.address).Nodup
  accepts : ∀ address ∈ model.accepts, ∀ context ∈ contexts, context.address = address →
    context.sockAccept.isSome = true
  outstanding : model.accepts.Nodup
  isOpen : model.handles.isOpen value = true
  uncounted : model.handles.named value = none
  wellFormed : model.handles.WellFormed
  known : ∀ socket ∈ sockets contexts ++ model.clientHandles,
    (model.handles.named socket).isSome = true
  count : model.handles.closed.length + (sockets contexts).length + model.clientHandles.length =
    model.handles.created + surplus

variable {value surplus : Nat} {contexts : List PerIoContext}

theorem Started.held (started : model.Started value MAX_POST_ACCEPT) :
    ∃ contexts, model.Held value contexts 0 := by
  rcases started.listening with ⟨contexts, listening, addresses, numbers, _⟩
  have each : ∀ context ∈ contexts, ∃ socket number, context.sockAccept = some socket ∧
      model.handles.named socket = some number := by
    intro context member
    have found : context.sockAccept.bind model.handles.named ∈
        (List.range MAX_POST_ACCEPT).map some := by
      rw [← numbers]
      exact List.mem_map_of_mem member
    rcases List.mem_map.mp found with ⟨number, _, same⟩
    rcases Option.bind_eq_some_iff.mp same.symm with ⟨socket, held, named⟩
    exact ⟨socket, number, held, named⟩
  have length : (sockets contexts).length = contexts.length := by
    rw [sockets, List.length_flatMap]
    have ones : contexts.map (fun context => context.sockAccept.toList.length) =
        contexts.map fun _ => 1 := by
      apply List.map_congr_left
      intro context member
      rcases each context member with ⟨socket, _, held, _⟩
      rw [held]
      rfl
    rw [ones]
    simp
  refine ⟨contexts, ?_⟩
  constructor
  case listening => exact listening
  case distinct =>
    rw [addresses]
    exact List.nodup_range'
  case accepts =>
    intro address _ context member _
    rcases each context member with ⟨socket, _, held, _⟩
    rw [held]
    rfl
  case outstanding =>
    rw [started.accepts]
    exact List.nodup_range'
  case isOpen => exact started.isOpen
  case uncounted => exact started.uncounted
  case wellFormed => exact started.wellFormed
  case known =>
    intro socket member
    rw [clientHandles, started.clients, List.flatMap_nil, List.append_nil, sockets,
      List.mem_flatMap] at member
    rcases member with ⟨context, member, found⟩
    rcases each context member with ⟨other, number, held, named⟩
    rw [held, Option.mem_toList] at found
    cases found
    rw [named]
    rfl
  case count =>
    have amount := congrArg List.length addresses
    rw [List.length_map, List.length_range'] at amount
    rw [clientHandles, started.clients, started.closed, started.created, length, amount]
    rfl

/-! ## Closing -/

theorem Held.not_known (held : model.Held value contexts surplus) {values : List Nat}
    (known : ∀ socket ∈ values, socket ∈ sockets contexts ++ model.clientHandles) :
    value ∉ values := by
  intro member
  have counted := held.known value (known value member)
  rw [held.uncounted] at counted
  cases counted

theorem Held.close (held : model.Held value contexts surplus) (values : List Nat) {later : Nat}
    (listening : next.listenContext = model.listenContext)
    (accepts : next.accepts.Sublist model.accepts)
    (handles : next.handles = model.handles.closeAll values)
    (known : ∀ socket ∈ values, socket ∈ sockets contexts ++ model.clientHandles)
    (clients : ∀ socket ∈ next.clientHandles, socket ∈ model.clientHandles)
    (count : values.length + next.clientHandles.length + surplus =
      model.clientHandles.length + later) : next.Held value contexts later := by
  constructor
  case listening => exact listening.trans held.listening
  case distinct => exact held.distinct
  case accepts =>
    intro address outstanding
    exact held.accepts address (accepts.subset outstanding)
  case outstanding => exact accepts.nodup held.outstanding
  case isOpen =>
    rw [handles, HandleTable.closeAll_eq]
    simp [held.isOpen, held.not_known known]
  case uncounted =>
    rw [handles, HandleTable.named_closeAll]
    exact held.uncounted
  case wellFormed =>
    rw [handles]
    exact held.wellFormed.closeAll values
  case known =>
    rw [handles, HandleTable.named_closeAll]
    intro socket member
    rcases List.mem_append.mp member with listens | client
    · exact held.known socket (List.mem_append_left _ listens)
    · exact held.known socket (List.mem_append_right _ (clients socket client))
  case count =>
    have closed := HandleTable.length_closed_closeAll fun socket member =>
      held.known socket (known socket member)
    have before := held.count
    rw [handles, closed, HandleTable.created_closeAll]
    omega

theorem Held.same (held : model.Held value contexts surplus)
    (listening : next.listenContext = model.listenContext)
    (accepts : next.accepts.Sublist model.accepts) (handles : next.handles = model.handles)
    (clients : next.arrayClientContext = model.arrayClientContext) :
    next.Held value contexts surplus := by
  refine held.close [] listening accepts handles ?_ ?_ ?_
  · simp
  · simp [clientHandles, clients]
  · simp [clientHandles, clients]

theorem Held.removed (held : model.Held value contexts surplus) (address : Nat) :
    (model.removeContext address).Held value contexts surplus := by
  rcases model.removeContext_cases address with same | ⟨client, front, back, _, split, removed⟩
  · rw [same]
    exact held
  · rw [removed]
    have handles : model.clientHandles = front.flatMap PerSocketContext.handles ++
        (client.handles ++ back.flatMap PerSocketContext.handles) := by
      rw [clientHandles, split, List.flatMap_append, List.flatMap_cons]
    have rest : ∀ state : CIOCPModel,
        ({ state with arrayClientContext := front ++ back } : CIOCPModel).clientHandles =
          front.flatMap PerSocketContext.handles ++ back.flatMap PerSocketContext.handles := by
      intro state
      exact List.flatMap_append
    refine held.close client.handles rfl (List.Sublist.refl _) rfl ?_ ?_ ?_
    · intro socket member
      rw [handles]
      simp [member]
    · intro socket member
      rw [rest] at member
      rw [handles]
      rcases List.mem_append.mp member with before | after
      · simp [before]
      · simp [after]
    · rw [rest, handles]
      simp only [List.length_append]
      omega

theorem Held.failed (held : model.Held value contexts surplus) (key dwErr : Nat) (alive : Bool) :
    (model.failCompletion key dwErr alive).Held value contexts surplus := by
  rcases model.failCompletion_cases key dwErr alive with ⟨threads, same⟩ | same
  · rw [same]
    exact held.same rfl (List.Sublist.refl _) rfl rfl
  · rw [same]
    exact held.removed key

/-! ## A new client -/

theorem Held.found (held : model.Held value contexts surplus) {listen : PerSocketContext}
    {address : Nat} {context : PerIoContext}
    (listening : model.listenContext = some listen) (outstanding : address ∈ model.accepts)
    (found : listen.arrayIoContext.find? (·.address = address) = some context) :
    ∃ socket front back, context.sockAccept = some socket ∧ context.address = address ∧
      contexts = front ++ context :: back := by
  rw [held.listening] at listening
  cases listening
  rcases List.find?_eq_some_iff_append.mp found with ⟨here, front, back, split, _⟩
  have same : context.address = address := by simpa using here
  have accepted := held.accepts address outstanding context
    (List.mem_of_find?_eq_some found) same
  rcases Option.isSome_iff_exists.mp accepted with ⟨socket, socketFound⟩
  exact ⟨socket, front, back, socketFound, same, split⟩

/-- A path on which a new context of the client is deleted and the listener's context keeps its
copy of the socket. -/
theorem Held.dropped (held : model.Held value contexts surplus) {context : PerIoContext}
    {socket : Nat} {front back : List PerIoContext} (socketFound : context.sockAccept = some socket)
    (split : contexts = front ++ context :: back)
    (listening : next.listenContext = model.listenContext)
    (accepts : next.accepts.Sublist model.accepts)
    (handles : next.handles = model.handles.closeAll [socket])
    (clients : next.arrayClientContext = model.arrayClientContext) :
    next.Held value contexts (surplus + 1) := by
  refine held.close [socket] listening accepts handles ?_ ?_ ?_
  · intro other member
    rw [List.mem_singleton.mp member, split, sockets_append, sockets_cons, socketFound]
    simp
  · simp [clientHandles, clients]
  · simp only [clientHandles, clients, List.length_singleton]
    omega

theorem map_write {front back : List PerIoContext} {context : PerIoContext}
    (written : PerIoContext) (same : context.address = written.address)
    (distinct : ((front ++ context :: back).map PerIoContext.address).Nodup) :
    (front ++ context :: back).map
        (fun other => if other.address = written.address then written else other) =
      front ++ written :: back := by
  rw [List.map_append, List.map_cons, List.nodup_append, List.nodup_cons] at distinct
  rcases distinct with ⟨_, ⟨afterwards, _⟩, apart⟩
  rw [List.map_append, List.map_cons, if_pos same, map_write_other written, map_write_other written]
  · rw [← same]
    exact afterwards
  · intro member
    exact apart _ member _ List.mem_cons_self same.symm

theorem mem_reposted {accepts : List Nat} (distinct : accepts.Nodup) {address other : Nat}
    (outstanding : address ∈ accepts) {posted : Bool}
    (member : other ∈ if posted then accepts.erase address ++ [address]
      else accepts.erase address) :
    other ∈ accepts ∧ (other = address → posted = true) := by
  have fewer : ∀ {other : Nat}, other ∈ accepts.erase address →
      other ≠ address ∧ other ∈ accepts := fun left => distinct.mem_erase_iff.mp left
  split at member
  · next again =>
    refine ⟨?_, fun _ => again⟩
    rcases List.mem_append.mp member with before | last
    · exact (fewer before).2
    · rw [List.mem_singleton.mp last]
      exact outstanding
  · rcases fewer member with ⟨apart, before⟩
    exact ⟨before, fun same => absurd same apart⟩

theorem nodup_reposted {accepts : List Nat} (distinct : accepts.Nodup) {address : Nat}
    (outstanding : address ∈ accepts) (posted : Bool) :
    (if posted then accepts.erase address ++ [address] else accepts.erase address).Nodup := by
  split
  · exact (perm_erase_concat outstanding).nodup_iff.mpr distinct
  · exact List.erase_sublist.nodup distinct

theorem mem_written {front back : List PerIoContext} {context written kept : PerIoContext}
    (member : kept ∈ front ++ written :: back) :
    kept ∈ front ++ context :: back ∨ kept = written := by
  rcases List.mem_append.mp member with before | after
  · exact .inl (List.mem_append_left _ before)
  · rcases List.mem_cons.mp after with new | later
    · exact .inr new
    · exact .inl (List.mem_append_right _ (List.mem_cons_of_mem _ later))

theorem Held.accepted (held : model.Held value contexts surplus) {context : PerIoContext}
    {socket address : Nat} {front back : List PerIoContext} {recv : Overlapped}
    {post : PostOutcome} {posted : Bool} (socketFound : context.sockAccept = some socket)
    (here : context.address = address)
    (split : contexts = front ++ context :: back) (outstanding : address ∈ model.accepts)
    (reposted : (model.admitted address context.sockAccept recv).postAccept context.address post =
      some (posted, next)) :
    ∃ contexts, next.Held value contexts (surplus + 1) := by
  rcases postAccept_eq reposted with ⟨unused, success, same⟩
  let written : PerIoContext := ⟨context.address, post.socket, .acceptPosted⟩
  have distinct := held.distinct
  rw [split] at distinct
  have listens : sockets contexts = sockets front ++ socket :: sockets back := by
    rw [split, sockets_append, sockets_cons, socketFound]
    rfl
  have clients : next.clientHandles = model.clientHandles ++ [socket, socket] := by
    rw [same]
    simp [clientHandles, setIoContext, admitted, PerSocketContext.handles, socketFound]
  subst same
  refine ⟨front ++ written :: back, ?_⟩
  constructor
  case listening =>
    have contexts_written := map_write written (rfl : context.address = _) distinct
    simp only [setIoContext, admitted, held.listening, Option.map_some, split]
    rw [← contexts_written]
  case distinct =>
    rw [List.map_append, List.map_cons] at distinct ⊢
    exact distinct
  case accepts =>
    intro other otherPosted kept member keptHere
    rw [here] at otherPosted
    rcases mem_reposted held.outstanding outstanding otherPosted with ⟨earlier, again⟩
    rcases mem_written member with old | rfl
    · rw [← split] at old
      exact held.accepts other earlier kept old keptHere
    · exact (success.mp (again (keptHere.symm.trans here))).1
  case outstanding =>
    rw [here]
    exact nodup_reposted held.outstanding outstanding posted
  case isOpen => exact isOpen_created held.isOpen unused
  case uncounted => exact (named_created_of_open held.isOpen unused).trans held.uncounted
  case wellFormed => exact wellFormed_created held.wellFormed post.socket
  case known =>
    have known : ∀ other ∈ sockets contexts ++ model.clientHandles,
        (((model.admitted address context.sockAccept recv).created post.socket).named
          other).isSome = true := by
      intro other otherMember
      exact named_created (held.known other otherMember)
    have taken := known socket (by simp [listens])
    intro other otherMember
    rw [clients, sockets_append, sockets_cons] at otherMember
    simp only [List.mem_append, List.mem_cons, List.not_mem_nil, or_false] at otherMember
    rcases otherMember with (before | new | after) | old | rfl | rfl
    · exact known other (by simp [listens, before])
    · exact named_created_self _ new
    · exact known other (by simp [listens, after])
    · exact known other (by simp [old])
    · exact taken
    · exact taken
  case count =>
    have before := held.count
    rw [clients, sockets_append, sockets_cons, created_created, closed_created]
    rw [listens] at before
    simp only [List.length_append, List.length_cons, List.length_nil, admitted, written]
      at before ⊢
    omega

/-! ## Runs -/

theorem Held.acceptTaken (held : model.Held value contexts surplus) (address : Nat) :
    { model with accepts := model.accepts.erase address }.Held value contexts surplus :=
  held.same rfl List.erase_sublist rfl rfl

theorem Held.receiveTaken (held : model.Held value contexts surplus) (receive : Nat × Nat) :
    { model with receives := model.receives.erase receive }.Held value contexts surplus :=
  held.same rfl (List.Sublist.refl _) rfl rfl

theorem Held.complete (held : model.Held value contexts surplus) {completion : Completion}
    (done : model.complete completion = some next) :
    ∃ contexts, next.Held value contexts (surplus + completion.isAccept.toNat) := by
  cases completes_of_complete done with
  | unassociated listening outstanding found =>
      rcases held.found listening outstanding found with
        ⟨socket, front, back, socketFound, _, split⟩
      refine ⟨contexts, held.dropped socketFound split rfl List.erase_sublist ?_ rfl⟩
      rw [socketFound]
      rfl
  | pending listening outstanding found =>
      rcases held.found listening outstanding found with
        ⟨socket, front, back, socketFound, _, split⟩
      refine ⟨contexts, held.dropped socketFound split rfl List.erase_sublist ?_ rfl⟩
      rw [socketFound]
      rfl
  | accepted listening outstanding found _ reposted =>
      rcases held.found listening outstanding found with
        ⟨socket, front, back, socketFound, here, split⟩
      exact held.accepted socketFound here split outstanding reposted
  | acceptError =>
      exact ⟨contexts, (held.acceptTaken _).failed _ _ _⟩
  | disconnect =>
      exact ⟨contexts, (held.receiveTaken _).removed _⟩
  | received => exact ⟨contexts, held.same rfl (List.Sublist.refl _) rfl rfl⟩
  | receiveError =>
      exact ⟨contexts, (held.receiveTaken _).failed _ _ _⟩

theorem Held.run {completions : List Completion} {last : CIOCPModel}
    (held : model.Held value contexts surplus)
    (run : runPartial CIOCPModel.complete model completions = some last) :
    ∃ contexts, last.Held value contexts (surplus + completions.countP Completion.isAccept) := by
  induction completions generalizing model contexts surplus with
  | nil =>
      cases run
      exact ⟨contexts, held⟩
  | cons completion completions induction =>
      rcases Option.bind_eq_some_iff.mp run with ⟨next, done, rest⟩
      rcases held.complete done with ⟨_, heldNext⟩
      rcases induction heldNext rest with ⟨lastContexts, heldLast⟩
      refine ⟨lastContexts, ?_⟩
      have count : (completion :: completions).countP Completion.isAccept =
          completion.isAccept.toNat + completions.countP Completion.isAccept := by
        rw [List.countP_cons]
        cases completion.isAccept <;> simp [Nat.add_comm]
      rw [count, ← Nat.add_assoc]
      exact heldLast

/-! ## Stop -/

theorem foldl_deleteSocketContext (model : CIOCPModel) (contexts : List PerSocketContext) :
    (contexts.foldl deleteSocketContext model).handles =
        model.handles.closeAll (contexts.flatMap PerSocketContext.handles) ∧
      (contexts.foldl deleteSocketContext model).listenContext = model.listenContext := by
  induction contexts generalizing model with
  | nil => exact ⟨rfl, rfl⟩
  | cons context contexts induction =>
      rw [List.foldl_cons]
      constructor
      · rw [(induction _).1]
        simp only [deleteSocketContext, HandleTable.closeAll, List.flatMap_cons, List.foldl_append]
      · rw [(induction _).2]
        rfl

theorem clearContextList_eq (model : CIOCPModel) :
    model.clearContextList.handles = model.handles.closeAll model.clientHandles ∧
      model.clearContextList.listenContext = model.listenContext :=
  foldl_deleteSocketContext model model.arrayClientContext

theorem handles_uninitializeModel {context : PerSocketContext}
    (listening : model.listenContext = some context) :
    model.uninitializeModel.handles = model.handles.closeAll context.handles := by
  rw [uninitializeModel, listening]
  rfl

/-- `Stop` closes the clients' sockets, the listening socket and those of its contexts. -/
theorem handles_stop (listening : model.listenContext = some ⟨0, some value, contexts⟩) :
    model.stop.handles =
      model.handles.closeAll (model.clientHandles ++ value :: sockets contexts) := by
  rcases clearContextList_eq { model with threads := 0 } with ⟨cleared, same⟩
  have stopped : model.stop = ({ model with threads := 0 }.clearContextList).uninitializeModel := by
    rw [stop, listening]
  rw [stopped, handles_uninitializeModel (same.trans listening), cleared, HandleTable.closeAll,
    HandleTable.closeAll, ← List.foldl_append]
  rfl

theorem Held.stop (held : model.Held value contexts surplus) :
    model.stop.handles.WellFormed ∧
      model.stop.handles.closed.length = model.stop.handles.created + surplus := by
  rw [handles_stop held.listening]
  refine ⟨held.wellFormed.closeAll _, ?_⟩
  have known : ∀ socket ∈ model.clientHandles ++ sockets contexts,
      (model.handles.named socket).isSome = true := by
    intro socket member
    exact held.known socket (by simpa [or_comm] using member)
  -- the listening socket is not one of the sockets that are counted
  have counted : (model.clientHandles ++ value :: sockets contexts).filterMap model.handles.named =
      (model.clientHandles ++ sockets contexts).filterMap model.handles.named := by
    simp only [List.filterMap_append, List.filterMap_cons, held.uncounted]
  have closed := HandleTable.length_closed_closeAll known
  have count := held.count
  rw [HandleTable.closeAll_eq] at closed ⊢
  simp only [counted]
  simp only [List.length_append] at closed ⊢
  omega

/-! ## No client -/

structure Idle (first model : CIOCPModel) : Prop where
  listenContext : model.listenContext = first.listenContext
  handles : model.handles = first.handles
  receives : model.receives = []
  clients : model.arrayClientContext = []

theorem removeContext_of_no_client (clients : model.arrayClientContext = []) {address : Nat} :
    model.removeContext address = model := by
  rw [removeContext, clients]
  rfl

theorem Idle.complete {first : CIOCPModel} (idle : first.Idle model) {completion : Completion}
    (done : model.complete completion = some next) (noAccept : completion.isAccept = false) :
    first.Idle next := by
  have none_received : ∀ {receive : Nat × Nat}, receive ∉ model.receives := by
    rw [idle.receives]
    exact List.not_mem_nil
  cases completes_of_complete done with
  | unassociated => cases noAccept
  | pending => cases noAccept
  | accepted => cases noAccept
  | @acceptError address dwErr alive listen =>
      have taken : first.Idle { model with accepts := model.accepts.erase address } :=
        ⟨idle.listenContext, idle.handles, idle.receives, idle.clients⟩
      rcases failCompletion_cases { model with accepts := model.accepts.erase address }
        listen.address dwErr alive with ⟨threads, same⟩ | same
      · rw [same]
        exact ⟨taken.listenContext, taken.handles, taken.receives, taken.clients⟩
      · rw [same, removeContext_of_no_client taken.clients]
        exact taken
  | disconnect outstanding => exact absurd outstanding none_received
  | received outstanding => exact absurd outstanding none_received
  | receiveError outstanding => exact absurd outstanding none_received

theorem Idle.run {first last : CIOCPModel} {completions : List Completion}
    (idle : first.Idle model) (noAccept : ∀ completion ∈ completions, completion.isAccept = false)
    (run : runPartial CIOCPModel.complete model completions = some last) : first.Idle last := by
  induction completions generalizing model with
  | nil =>
      cases run
      exact idle
  | cons completion completions induction =>
      rcases Option.bind_eq_some_iff.mp run with ⟨next, done, rest⟩
      rcases List.forall_mem_cons.mp noAccept with ⟨here, later⟩
      exact induction (idle.complete done here) later rest

/-- `Stop` closes each of the sockets of `Start`. -/
theorem Started.closedOnce {last : CIOCPModel} (started : model.Started value MAX_POST_ACCEPT)
    (idle : model.Idle last) : last.stop.handles.ClosedOnce := by
  rcases started.listening with ⟨contexts, listening, _, numbers, _⟩
  have closed : (value :: sockets contexts).filterMap model.handles.named =
      List.range MAX_POST_ACCEPT := by
    rw [List.filterMap_cons, started.uncounted, sockets, List.filterMap_flatMap]
    have each : ∀ contexts : List PerIoContext,
        contexts.flatMap (fun context => context.sockAccept.toList.filterMap model.handles.named) =
          (contexts.map fun context => context.sockAccept.bind model.handles.named).filterMap
            id := by
      intro contexts
      induction contexts with
      | nil => rfl
      | cons context contexts induction =>
          rw [List.flatMap_cons, induction, List.map_cons, List.filterMap_cons]
          cases context.sockAccept with
          | none => rfl
          | some socket => cases named : model.handles.named socket <;> simp [named]
    simp only [each, numbers, List.filterMap_map]
    simp
  intro number created
  rw [handles_stop (idle.listenContext.trans listening), idle.handles,
    HandleTable.closeAll_eq] at created ⊢
  simp only [clientHandles, idle.clients, List.flatMap_nil, List.nil_append, closed,
    started.closed, started.created] at created ⊢
  exact List.count_eq_one_of_mem List.nodup_range (List.mem_range.mpr created)

/-- Each socket for an `AcceptEx` is closed once exactly if no client has come. -/
theorem closedOnce_iff_no_accept {processors : Nat} {listenSocket : Socket}
    {posts : Nat → PostOutcome} {completions : List Completion} {last : CIOCPModel}
    (done : start processors listenSocket posts = some (true, model))
    (run : runPartial complete model completions = some last) :
    last.stop.handles.ClosedOnce ↔
      ∀ completion ∈ completions, completion.isAccept = false := by
  rcases started_of_start done with ⟨value, started⟩
  constructor
  · intro once
    rcases started.held with ⟨contexts, held⟩
    rcases held.run run with ⟨lastContexts, heldLast⟩
    rcases heldLast.stop with ⟨wellFormed, closed⟩
    have surplus : completions.countP Completion.isAccept = 0 := by
      have := once.length wellFormed
      omega
    intro completion member
    simpa using List.countP_eq_zero.mp surplus completion member
  · intro noAccept
    have idle : model.Idle model := ⟨rfl, rfl, started.receives, started.clients⟩
    exact started.closedOnce (idle.run noAccept run)

/-- A request that fails is not posted again. -/
theorem closedOnce_iff_no_accept_error :
    ∃ model last, start 1 (some 100) pendingPosts = some (true, model) ∧
      runPartial complete model [.acceptError 3 995 true] = some last ∧
      last.stop.handles.ClosedOnce :=
  ⟨_, _, rfl, rfl, (@closedOnce_iff_no_accept _ 1 (some 100) pendingPosts
    [.acceptError 3 995 true] _ rfl rfl).mpr (by decide)⟩

def oneClient : List Completion :=
  [.accept 1 true .done ⟨some 300, .pending⟩, .receive 12 11 0 .done]

/-- Both contexts of the client close its socket. -/
theorem client_socket_closed_twice :
    ∃ model last, start 1 (some 100) pendingPosts = some (true, model) ∧
      runPartial complete model oneClient = some last ∧
      last.stop.handles.closed.count 0 = 2 ∧ ¬ last.stop.handles.ClosedOnce := by
  refine ⟨_, _, rfl, rfl, ?_, ?_⟩
  · decide
  · intro once
    exact absurd (once 0 (by decide)) (by decide)

end CIOCPModel

end MyBookSources.IOCPServer
