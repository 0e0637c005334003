import MyBookSources.Foundation.Execution
import MyBookSources.Foundation.Handles

/-! # CIOCPModel

The server keeps `MAX_POST_ACCEPT` requests for `AcceptEx` outstanding on its listening socket.
The completion of one brings a client, for whose socket a context and an I/O context are made
and a first `WSARecv` is posted. Worker threads take completions from the port, so a run is a
list of completions with the outcomes of the calls that handling them makes.

The contexts are owned by the arrays that hold them; an address stands for a pointer, and no
address is given twice. Buffers and client addresses serve messages only and are left out.
-/

namespace MyBookSources.IOCPServer

def MAX_POST_ACCEPT : Nat := 10

def WORKER_THREADS_PER_PROCESSOR : Nat := 2

def WAIT_TIMEOUT : Nat := 258

def ERROR_NETNAME_DELETED : Nat := 64

inductive OperationType
  | acceptPosted
  | sendPosted
  | recvPosted
  | nullPosted
  deriving DecidableEq

/-- How an overlapped call returns: with success, with an error that is `WSA_IO_PENDING`, or
with another error. -/
inductive Overlapped
  | done
  | pending
  | failed
  deriving DecidableEq

/-- `INVALID_SOCKET` is `none`. -/
abbrev Socket := Option Nat

structure PerIoContext where
  address : Nat
  sockAccept : Socket
  opType : OperationType
  deriving DecidableEq

structure PerSocketContext where
  address : Nat
  socket : Socket
  arrayIoContext : List PerIoContext
  deriving DecidableEq

/-- The results of `WSASocket` and `AcceptEx` in `_PostAccept`. -/
structure PostOutcome where
  socket : Socket
  acceptEx : Overlapped
  deriving DecidableEq

/-- `freed` lists the I/O contexts that were deleted, `accepts` those with an outstanding
`AcceptEx`, and `receives` those with an outstanding `WSARecv` beside the completion key of
their socket. A call that returns with success is outstanding too: its completion comes. -/
structure CIOCPModel where
  listenContext : Option PerSocketContext
  arrayClientContext : List PerSocketContext
  threads : Nat
  next : Nat
  handles : HandleTable Nat
  freed : List Nat
  accepts : List Nat
  receives : List (Nat × Nat)

/-! ## Contexts -/

def sockets (contexts : List PerIoContext) : List Nat :=
  contexts.flatMap fun context => context.sockAccept.toList

/-- The sockets that `~PER_SOCKET_CONTEXT` closes, its own first. -/
def PerSocketContext.handles (context : PerSocketContext) : List Nat :=
  context.socket.toList ++ sockets context.arrayIoContext

namespace CIOCPModel

variable (model : CIOCPModel)

/-- `delete` of I/O contexts. -/
def deleteIoContexts (contexts : List PerIoContext) : CIOCPModel :=
  { model with
    handles := model.handles.closeAll (sockets contexts)
    freed := model.freed ++ contexts.map PerIoContext.address }

/-- `delete` of a socket's context. -/
def deleteSocketContext (context : PerSocketContext) : CIOCPModel :=
  { model with
    handles := model.handles.closeAll context.handles
    freed := model.freed ++ context.arrayIoContext.map PerIoContext.address }

def removeContext (address : Nat) : CIOCPModel :=
  match model.arrayClientContext.find? (·.address = address) with
  | none => model
  | some context =>
      { model.deleteSocketContext context with
        arrayClientContext := model.arrayClientContext.eraseP (·.address = address) }

def clearContextList : CIOCPModel :=
  { model.arrayClientContext.foldl deleteSocketContext model with arrayClientContext := [] }

/-- What `_Uninitialize` does to the contexts. -/
def uninitializeModel : CIOCPModel :=
  match model.listenContext with
  | none => model
  | some context => { model.deleteSocketContext context with listenContext := none }

/-! ## Posting requests -/

def setIoContext (context : PerIoContext) : CIOCPModel :=
  { model with
    listenContext := model.listenContext.map fun listen =>
      { listen with
        arrayIoContext := listen.arrayIoContext.map fun other =>
          if other.address = context.address then context else other } }

/-- `GetNewIoContext` on the context of the listening socket. -/
def getNewIoContext : CIOCPModel :=
  { model with
    next := model.next + 1
    listenContext := model.listenContext.map fun listen =>
      { listen with
        arrayIoContext := listen.arrayIoContext ++ [⟨model.next, none, .nullPosted⟩] } }

/-- `RemoveContext` on the context of the listening socket. -/
def removeIoContext (address : Nat) : CIOCPModel :=
  match model.listenContext with
  | none => model
  | some listen =>
      match listen.arrayIoContext.find? (·.address = address) with
      | none => model
      | some context =>
          { model.deleteIoContexts [context] with
            listenContext := some
              { listen with
                arrayIoContext := listen.arrayIoContext.eraseP (·.address = address) } }

/-- `WSASocket` in `_PostAccept`, which gives no value that is open. -/
def createSocket (socket : Socket) : Option CIOCPModel :=
  match socket with
  | none => some model
  | some value =>
      if model.handles.isOpen value then none
      else some { model with handles := model.handles.create value }

def postAccept (address : Nat) (outcome : PostOutcome) : Option (Bool × CIOCPModel) := do
  let model ← model.createSocket outcome.socket
  let model := model.setIoContext ⟨address, outcome.socket, .acceptPosted⟩
  match outcome.socket, outcome.acceptEx with
  | none, _ => some (false, model)
  | some _, .failed => some (false, model)
  | some _, _ => some (true, { model with accepts := model.accepts ++ [address] })

/-- `_PostRecv` fails if the error is `WSA_IO_PENDING`, and not if it is another one. -/
def postRecv (address key : Nat) (outcome : Overlapped) : Bool × CIOCPModel :=
  (outcome ≠ .pending,
    if outcome = .failed then model
    else { model with receives := model.receives ++ [(address, key)] })

/-- `associated` is the success of `_AssociateWithIOCP`. A new context that is left after a
failed `_PostRecv` is in no array. -/
def doAccept (context : PerIoContext) (associated : Bool) (recv : Overlapped)
    (post : PostOutcome) : Option (Bool × CIOCPModel) :=
  let newSocketContext : PerSocketContext := ⟨model.next, context.sockAccept, []⟩
  if !associated then
    some (false, { model with next := model.next + 1 }.deleteSocketContext newSocketContext)
  else
    let newIoContext : PerIoContext := ⟨model.next + 1, newSocketContext.socket, .recvPosted⟩
    let (posted, model) := { model with next := model.next + 2 }.postRecv newIoContext.address
      newSocketContext.address recv
    if !posted then some (false, model.deleteIoContexts [newIoContext])
    else
      { model with
        arrayClientContext := model.arrayClientContext ++
          [{ newSocketContext with arrayIoContext := [newIoContext] }] }.postAccept
        context.address post

/-- `HandleError`; `alive` is the answer of `_IsSocketAlive`. -/
def handleError (key dwErr : Nat) (alive : Bool) : Bool × CIOCPModel :=
  if dwErr = WAIT_TIMEOUT then
    if alive then (true, model) else (true, model.removeContext key)
  else if dwErr = ERROR_NETNAME_DELETED then (true, model.removeContext key)
  else (false, model)

end CIOCPModel

/-! ## Completions -/

/-- A completion with the outcomes of the calls that follow; `receive` with no bytes is a
disconnect. -/
inductive Completion
  | accept (context : Nat) (associated : Bool) (recv : Overlapped) (post : PostOutcome)
  | acceptError (context : Nat) (dwErr : Nat) (alive : Bool)
  | receive (context key : Nat) (bytes : Nat) (recv : Overlapped)
  | receiveError (context key : Nat) (dwErr : Nat) (alive : Bool)
  deriving DecidableEq

namespace CIOCPModel

variable (model : CIOCPModel)

/-- The worker thread leaves its loop if `HandleError` fails. -/
def failCompletion (key dwErr : Nat) (alive : Bool) : CIOCPModel :=
  let (handled, model) := model.handleError key dwErr alive
  if handled then model else { model with threads := model.threads - 1 }

/-- One round of `_WorkerThread`. A receive that has been successful is read from its context,
which must not have been freed. -/
def complete (model : CIOCPModel) (completion : Completion) : Option CIOCPModel :=
  if model.threads = 0 then none
  else match completion, model.listenContext with
  | .accept address associated recv post, some listen =>
      if address ∈ model.accepts then do
        let context ← listen.arrayIoContext.find? (·.address = address)
        let (_, model) ← { model with accepts := model.accepts.erase address }.doAccept context
          associated recv post
        some model
      else none
  | .acceptError address dwErr alive, some listen =>
      if address ∈ model.accepts then
        some ({ model with accepts := model.accepts.erase address }.failCompletion listen.address
          dwErr alive)
      else none
  | .receive address key bytes recv, some _ =>
      if (address, key) ∈ model.receives ∧ address ∉ model.freed then
        let model := { model with receives := model.receives.erase (address, key) }
        if bytes = 0 then some (model.removeContext key)
        else some (model.postRecv address key recv).2
      else none
  | .receiveError address key dwErr alive, some _ =>
      if (address, key) ∈ model.receives then
        some ({ model with receives := model.receives.erase (address, key) }.failCompletion key
          dwErr alive)
      else none
  | _, none => none

/-! ## Start and stop -/

def create : CIOCPModel where
  listenContext := none
  arrayClientContext := []
  threads := 0
  next := 0
  handles := .empty
  freed := []
  accepts := []
  receives := []

/-- The loop of `_InitializeListenSocket`. -/
def postAccepts (posts : Nat → PostOutcome) (model : CIOCPModel) :
    Nat → Option (Bool × CIOCPModel)
  | 0 => some (true, model)
  | count + 1 => do
      let (posted, model) ← postAccepts posts model count
      if !posted then some (false, model)
      else
        let (posted, next) ← model.getNewIoContext.postAccept model.next (posts count)
        if posted then some (true, next) else some (false, next.removeIoContext model.next)

/-- `Start` on a machine with `processors` processors. `listenSocket` is there if the socket
could be made, bound and listened on and the extension functions were found. -/
def start (processors : Nat) (listenSocket : Socket) (posts : Nat → PostOutcome) :
    Option (Bool × CIOCPModel) :=
  match listenSocket with
  | none => some (false, create)
  | some value => do
      let model := { create with
        threads := WORKER_THREADS_PER_PROCESSOR * processors
        listenContext := some ⟨0, some value, []⟩
        next := 1
        handles := HandleTable.empty.adopt value }
      let (posted, model) ← postAccepts posts model MAX_POST_ACCEPT
      if posted then some (true, model) else some (false, model.uninitializeModel)

/-- `Stop` waits for the threads before it deletes the contexts. -/
def stop : CIOCPModel :=
  match model.listenContext with
  | some ⟨_, some _, _⟩ => { model with threads := 0 }.clearContextList.uninitializeModel
  | _ => model

end CIOCPModel

theorem perm_erase_concat {Request : Type} [BEq Request] [LawfulBEq Request] {request : Request}
    {requests : List Request} (outstanding : request ∈ requests) :
    (requests.erase request ++ [request]).Perm requests :=
  (List.perm_append_singleton _ _).trans (List.perm_cons_erase outstanding).symm

/-! ## What the functions do -/

namespace CIOCPModel

variable {model next : CIOCPModel}

/-- The handles after a call of `WSASocket`. -/
def created (model : CIOCPModel) (socket : Socket) : HandleTable Nat :=
  match socket with
  | none => model.handles
  | some value => model.handles.create value

theorem createSocket_eq {socket : Socket} (done : model.createSocket socket = some next) :
    (∀ value, socket = some value → model.handles.isOpen value = false) ∧
      next = { model with handles := model.created socket } := by
  cases socket with
  | none =>
      cases done
      exact ⟨fun _ same => (by cases same), rfl⟩
  | some value =>
      simp only [createSocket] at done
      split at done
      · cases done
      · next unused =>
        cases done
        refine ⟨fun other same => ?_, rfl⟩
        cases same
        simpa using unused

section

variable {socket : Socket} {value : Nat} (isOpen : model.handles.isOpen value = true)
  (unused : ∀ value, socket = some value → model.handles.isOpen value = false)

include isOpen unused

theorem isOpen_created : (model.created socket).isOpen value = true := by
  cases socket with
  | none => exact isOpen
  | some other =>
      have apart : value ≠ other := by
        rintro rfl
        rw [unused value rfl] at isOpen
        cases isOpen
      exact (HandleTable.isOpen_create_of_ne apart).trans isOpen

theorem named_created_of_open :
    (model.created socket).named value = model.handles.named value := by
  cases socket with
  | none => rfl
  | some other =>
      have apart : value ≠ other := by
        rintro rfl
        rw [unused value rfl] at isOpen
        cases isOpen
      exact HandleTable.named_create_of_ne apart

end

theorem wellFormed_created (wellFormed : model.handles.WellFormed) (socket : Socket) :
    (model.created socket).WellFormed := by
  cases socket with
  | none => exact wellFormed
  | some value => exact wellFormed.create value

theorem created_created (model : CIOCPModel) (socket : Socket) :
    (model.created socket).created = model.handles.created + socket.toList.length := by
  cases socket <;> rfl

theorem closed_created (model : CIOCPModel) (socket : Socket) :
    (model.created socket).closed = model.handles.closed := by
  cases socket <;> rfl

theorem named_created_self (model : CIOCPModel) {socket : Socket} {value : Nat}
    (member : value ∈ socket.toList) : ((model.created socket).named value).isSome = true := by
  rw [Option.mem_toList] at member
  cases member
  simp [created]

theorem named_created {socket : Socket} {other : Nat}
    (known : (model.handles.named other).isSome = true) :
    ((model.created socket).named other).isSome = true := by
  cases socket with
  | none => exact known
  | some value =>
      by_cases same : other = value
      · simp [created, same]
      · simpa [created, HandleTable.named_create_of_ne same] using known

theorem postAccept_eq {address : Nat} {outcome : PostOutcome} {posted : Bool}
    (done : model.postAccept address outcome = some (posted, next)) :
    (∀ value, outcome.socket = some value → model.handles.isOpen value = false) ∧
      (posted = true ↔ outcome.socket.isSome = true ∧ outcome.acceptEx ≠ .failed) ∧
      next = { model.setIoContext ⟨address, outcome.socket, .acceptPosted⟩ with
        handles := model.created outcome.socket
        accepts := if posted then model.accepts ++ [address] else model.accepts } := by
  rcases Option.bind_eq_some_iff.mp done with ⟨middle, socketMade, rest⟩
  rcases createSocket_eq socketMade with ⟨unused, rfl⟩
  refine ⟨unused, ?_⟩
  cases socket : outcome.socket with
  | none =>
      simp only [socket] at rest
      cases rest
      exact ⟨by simp, rfl⟩
  | some value =>
      cases ended : outcome.acceptEx with
      | failed =>
          simp only [socket, ended] at rest
          cases rest
          exact ⟨by simp, rfl⟩
      | done =>
          simp only [socket, ended] at rest
          cases rest
          exact ⟨by simp, rfl⟩
      | pending =>
          simp only [socket, ended] at rest
          cases rest
          exact ⟨by simp, rfl⟩

theorem removeContext_cases (model : CIOCPModel) (address : Nat) :
    model.removeContext address = model ∨
      ∃ context front back, context.address = address ∧
        model.arrayClientContext = front ++ context :: back ∧
        model.removeContext address =
          { model.deleteSocketContext context with arrayClientContext := front ++ back } := by
  rw [removeContext]
  cases found : model.arrayClientContext.find? (·.address = address) with
  | none => exact .inl rfl
  | some context =>
      rcases List.find?_eq_some_iff_append.mp found with ⟨here, front, back, split, before⟩
      refine .inr ⟨context, front, back, by simpa using here, split, ?_⟩
      have erased : model.arrayClientContext.eraseP (·.address = address) = front ++ back := by
        rw [split, List.eraseP_append_right _ (by simpa using before),
          List.eraseP_cons_of_pos (by simpa using here)]
      simp only [erased]

theorem failCompletion_cases (model : CIOCPModel) (key dwErr : Nat) (alive : Bool) :
    (∃ threads, model.failCompletion key dwErr alive = { model with threads := threads }) ∨
      model.failCompletion key dwErr alive = model.removeContext key := by
  simp only [failCompletion, handleError]
  split
  · split
    · exact .inl ⟨model.threads, rfl⟩
    · exact .inr rfl
  · split
    · exact .inr rfl
    · exact .inl ⟨_, rfl⟩

/-- The state in which a client is handed to `_PostAccept`. -/
def admitted (model : CIOCPModel) (address : Nat) (socket : Socket) (recv : Overlapped) :
    CIOCPModel :=
  { model with
    accepts := model.accepts.erase address
    next := model.next + 2
    receives := if recv = .failed then model.receives
      else model.receives ++ [(model.next + 1, model.next)]
    arrayClientContext := model.arrayClientContext ++
      [⟨model.next, socket, [⟨model.next + 1, socket, .recvPosted⟩]⟩] }

inductive Completes (model : CIOCPModel) : Completion → CIOCPModel → Prop
  | unassociated {address : Nat} {recv : Overlapped} {post : PostOutcome}
      {listen : PerSocketContext} {context : PerIoContext}
      (listening : model.listenContext = some listen) (outstanding : address ∈ model.accepts)
      (found : listen.arrayIoContext.find? (·.address = address) = some context) :
      Completes model (.accept address false recv post)
        ({ model with
          accepts := model.accepts.erase address
          next := model.next + 1 }.deleteSocketContext ⟨model.next, context.sockAccept, []⟩)
  | pending {address : Nat} {post : PostOutcome} {listen : PerSocketContext}
      {context : PerIoContext} (listening : model.listenContext = some listen)
      (outstanding : address ∈ model.accepts)
      (found : listen.arrayIoContext.find? (·.address = address) = some context) :
      Completes model (.accept address true .pending post)
        ({ model with
          accepts := model.accepts.erase address
          next := model.next + 2
          receives := model.receives ++ [(model.next + 1, model.next)] }.deleteIoContexts
            [⟨model.next + 1, context.sockAccept, .recvPosted⟩])
  | accepted {address : Nat} {recv : Overlapped} {post : PostOutcome}
      {listen : PerSocketContext} {context : PerIoContext} {posted : Bool} {next : CIOCPModel}
      (listening : model.listenContext = some listen) (outstanding : address ∈ model.accepts)
      (found : listen.arrayIoContext.find? (·.address = address) = some context)
      (notPending : recv ≠ .pending)
      (reposted : (model.admitted address context.sockAccept recv).postAccept context.address
        post = some (posted, next)) :
      Completes model (.accept address true recv post) next
  | acceptError {address dwErr : Nat} {alive : Bool} {listen : PerSocketContext}
      (listening : model.listenContext = some listen) (outstanding : address ∈ model.accepts) :
      Completes model (.acceptError address dwErr alive)
        ({ model with accepts := model.accepts.erase address }.failCompletion listen.address
          dwErr alive)
  | disconnect {address key : Nat} {recv : Overlapped}
      (outstanding : (address, key) ∈ model.receives) (unfreed : address ∉ model.freed) :
      Completes model (.receive address key 0 recv)
        ({ model with receives := model.receives.erase (address, key) }.removeContext key)
  | received {address key bytes : Nat} {recv : Overlapped}
      (outstanding : (address, key) ∈ model.receives) (unfreed : address ∉ model.freed)
      (some_bytes : bytes ≠ 0) :
      Completes model (.receive address key bytes recv)
        { model with
          receives := if recv = .failed then model.receives.erase (address, key)
            else model.receives.erase (address, key) ++ [(address, key)] }
  | receiveError {address key dwErr : Nat} {alive : Bool}
      (outstanding : (address, key) ∈ model.receives) :
      Completes model (.receiveError address key dwErr alive)
        ({ model with receives := model.receives.erase (address, key) }.failCompletion key
          dwErr alive)

theorem completes_of_complete {completion : Completion}
    (done : model.complete completion = some next) : Completes model completion next := by
  rw [complete.eq_def] at done
  split at done
  · cases done
  split at done
  · next address associated recv post listen listening =>
    split at done
    · next outstanding =>
      rcases Option.bind_eq_some_iff.mp done with ⟨context, found, rest⟩
      rcases Option.bind_eq_some_iff.mp rest with ⟨⟨posted, last⟩, accepted, same⟩
      cases same
      cases associated with
      | false =>
          cases accepted
          exact .unassociated listening outstanding found
      | true =>
          cases recv with
          | pending =>
              cases accepted
              exact .pending listening outstanding found
          | done => exact .accepted listening outstanding found (by decide) accepted
          | failed => exact .accepted listening outstanding found (by decide) accepted
    · cases done
  · next address dwErr alive listen listening =>
    split at done
    · next outstanding =>
      cases done
      exact .acceptError listening outstanding
    · cases done
  · next address key bytes recv listen listening =>
    split at done
    · next valid =>
      split at done
      · next none =>
        cases done
        rw [none]
        exact .disconnect valid.1 valid.2
      · next some_bytes =>
        cases done
        cases recv with
        | done => exact .received valid.1 valid.2 some_bytes
        | pending => exact .received valid.1 valid.2 some_bytes
        | failed => exact .received valid.1 valid.2 some_bytes
    · cases done
  · next address key dwErr alive listen listening =>
    split at done
    · next outstanding =>
      cases done
      exact .receiveError outstanding
    · cases done
  · cases done

/-! ## After `Start` -/

/-- Every `AcceptEx` of `Start` gets a socket and is pending. -/
def pendingPosts (index : Nat) : PostOutcome :=
  ⟨some (200 + index), .pending⟩

/-- The listening socket `value` has `count` requests outstanding, each with a socket of its
own, and nothing has happened yet. -/
structure Started (value count : Nat) (model : CIOCPModel) : Prop where
  listening : ∃ contexts, model.listenContext = some ⟨0, some value, contexts⟩ ∧
    contexts.map PerIoContext.address = List.range' 1 count ∧
    (contexts.map fun context => context.sockAccept.bind model.handles.named) =
      (List.range count).map some ∧
    ∀ context ∈ contexts, ∀ socket, context.sockAccept = some socket →
      model.handles.isOpen socket = true
  isOpen : model.handles.isOpen value = true
  uncounted : model.handles.named value = none
  created : model.handles.created = count
  wellFormed : model.handles.WellFormed
  closed : model.handles.closed = []
  next : model.next = count + 1
  accepts : model.accepts = List.range' 1 count
  receives : model.receives = []
  freed : model.freed = []
  clients : model.arrayClientContext = []

theorem map_write_other {contexts : List PerIoContext} (written : PerIoContext)
    (fresh : written.address ∉ contexts.map PerIoContext.address) :
    contexts.map (fun other => if other.address = written.address then written else other) =
      contexts := by
  conv_rhs => rw [← List.map_id contexts]
  apply List.map_congr_left
  intro other member
  rw [if_neg, id]
  intro same
  rw [← same] at fresh
  exact fresh (List.mem_map_of_mem member)

theorem Started.post {value count : Nat} (started : model.Started value count)
    {outcome : PostOutcome}
    (posted : model.getNewIoContext.postAccept model.next outcome = some (true, next)) :
    next.Started value (count + 1) := by
  rcases postAccept_eq posted with ⟨unused, success, rfl⟩
  rcases Option.isSome_iff_exists.mp (success.mp rfl).1 with ⟨socket, made⟩
  rcases started.listening with ⟨contexts, listening, addresses, numbers, opened⟩
  have fresh : model.next ∉ contexts.map PerIoContext.address := by
    rw [addresses, started.next, List.mem_range'_1]
    omega
  have handles : model.getNewIoContext.created outcome.socket = model.handles.create socket := by
    rw [made]
    rfl
  constructor
  case listening =>
    refine ⟨contexts ++ [⟨model.next, some socket, .acceptPosted⟩], ?_, ?_, ?_, ?_⟩
    · simp only [setIoContext, getNewIoContext, listening, Option.map_some, List.map_append, made]
      rw [map_write_other ⟨model.next, some socket, .acceptPosted⟩ fresh]
      simp
    · rw [List.map_append, addresses, List.map_singleton, started.next, List.range'_1_concat,
        Nat.add_comm]
    · rw [List.map_append, List.map_singleton, List.range_succ, List.map_append]
      congr 1
      · rw [← numbers]
        apply List.map_congr_left
        intro context member
        cases held : context.sockAccept with
        | none => rfl
        | some other => exact named_created_of_open (opened context member other held) unused
      · simp [handles, started.created]
    · intro context member other held
      rcases List.mem_append.mp member with before | new
      · exact isOpen_created (opened context before other held) unused
      · rw [List.mem_singleton.mp new] at held
        cases held
        simp only [handles]
        exact HandleTable.isOpen_create_self socket
  case isOpen => exact isOpen_created started.isOpen unused
  case uncounted => exact (named_created_of_open started.isOpen unused).trans started.uncounted
  case created =>
    simp only [handles]
    exact congrArg (· + 1) started.created
  case wellFormed => exact wellFormed_created started.wellFormed outcome.socket
  case closed => exact (closed_created _ outcome.socket).trans started.closed
  case next => exact congrArg (· + 1) started.next
  case accepts =>
    simp only [if_true]
    rw [List.range'_1_concat, ← started.accepts, ← started.next.trans (Nat.add_comm count 1)]
    rfl
  case receives => exact started.receives
  case freed => exact started.freed
  case clients => exact started.clients

theorem started_of_postAccepts {value count : Nat} {posts : Nat → PostOutcome}
    (initial : model.Started value 0)
    (posted : postAccepts posts model count = some (true, next)) : next.Started value count := by
  induction count generalizing next with
  | zero =>
      cases posted
      exact initial
  | succ count induction =>
      rcases Option.bind_eq_some_iff.mp posted with ⟨⟨before, middle⟩, earlier, rest⟩
      cases before with
      | false => cases rest
      | true =>
          rcases Option.bind_eq_some_iff.mp rest with ⟨⟨last, reached⟩, post, same⟩
          cases last with
          | false => cases same
          | true =>
              cases same
              exact (induction earlier).post post

theorem started_of_start {processors : Nat} {listenSocket : Socket} {posts : Nat → PostOutcome}
    (done : start processors listenSocket posts = some (true, model)) :
    ∃ value, model.Started value MAX_POST_ACCEPT := by
  cases listenSocket with
  | none => cases done
  | some value =>
      rcases Option.bind_eq_some_iff.mp done with ⟨⟨posted, middle⟩, loop, same⟩
      cases posted with
      | false => cases same
      | true =>
          cases same
          refine ⟨value, started_of_postAccepts ?_ loop⟩
          exact {
            listening := ⟨[], rfl, rfl, rfl, fun _ member => by cases member⟩
            isOpen := Function.update_self ..
            uncounted := Function.update_self ..
            created := rfl
            wellFormed := HandleTable.empty_wellFormed.adopt value
            closed := rfl
            next := rfl
            accepts := rfl
            receives := rfl
            freed := rfl
            clients := rfl }

end CIOCPModel

end MyBookSources.IOCPServer
