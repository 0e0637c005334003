import MyBookSources.Net.ConnectionLifecycle

/-! # Messages and the session behind them

`MyWebSocketServer` binds the message callback of a connection to a session that it
erases when the connection goes down. Messages reach that session only before, as
long as no event brings bytes together with, or after, the close of the connection.
-/

namespace MyBookSources.Net

namespace MyWebSocketServer

/-- The session of the connection in `m_listSessions`. -/
inductive Session
  | none
  | listed
  | erased
  deriving DecidableEq

/-- `onConnection` adds a session, or erases the one there is by `onClose`. -/
def onConnection (session : Session) : Callback → Session
  | .connectionCallback true => .listed
  | .connectionCallback false => if session = .listed then .erased else session
  | _ => session

def sessionAfter (log : List Callback) : Session := log.foldl onConnection .none

theorem down_of_erased {log : List Callback} (erased : sessionAfter log = .erased) :
    .connectionCallback false ∈ log := by
  induction log using List.reverseRecOn with
  | nil => cases erased
  | append_singleton log callback induction =>
      rw [sessionAfter, List.foldl_append] at erased
      rw [List.mem_append]
      match callback with
      | .connectionCallback false => exact .inr (List.mem_singleton.mpr rfl)
      | .connectionCallback true => cases erased
      | .messageCallback input => exact .inl (induction erased)
      | .closeCallback => exact .inl (induction erased)

end MyWebSocketServer

open Config MyWebSocketServer

/-- No message comes after a down, so none is given to an erased session. -/
def MessageSafe (log : List Callback) : Prop :=
  ∀ earlier input later, log = earlier ++ .messageCallback input :: later →
    .connectionCallback false ∉ earlier ∧ sessionAfter earlier ≠ .erased

theorem messageSafe_concat {log : List Callback} {callback : Callback}
    (safe : MessageSafe log)
    (last : ∀ input, callback = .messageCallback input → .connectionCallback false ∉ log) :
    MessageSafe (log ++ [callback]) := by
  intro earlier input later split
  rcases List.eq_nil_or_concat later with empty | ⟨front, final, concat⟩
  · rw [empty] at split
    rcases List.append_inj' split rfl with ⟨same, message⟩
    rw [← same]
    have noDown := last input (List.singleton_inj.mp message)
    exact ⟨noDown, fun erased => noDown (down_of_erased erased)⟩
  · rw [concat, List.concat_eq_append, ← List.cons_append, ← List.append_assoc] at split
    exact safe earlier input front (List.append_inj' split rfl).1

/-- The events that make a channel run the read handler. -/
def readMask : Events := XPOLLIN ||| XPOLLPRI ||| XPOLLRDHUP

/-- The events that make a channel run the close or the error handler. -/
def closesFirst (revents : Events) : Bool :=
  (revents.has XPOLLHUP && !revents.has XPOLLIN) || revents.has (XPOLLERR ||| XPOLLNVAL)

/-- An event that brings bytes finds the connection not disconnected and does not
close it first. -/
def harmless (config : Config) : Label → Bool
  | .enter (.handleEvent revents (.received _) _) =>
      !revents.has readMask ||
        config.endpoint.state != .kDisconnected && !closesFirst revents
  | _ => true

def Call.Armed : Call → Prop
  | .handleEvent revents (.received _) _ => revents.has readMask = true
  | .handleRead (.received _) => True
  | _ => False

def Call.Direct : Call → Prop
  | .handleEvent revents _ _ => closesFirst revents = false
  | _ => True

/-- Bytes are only ever about to be shown by the call on top of the stack, on a
connection that is not disconnected. -/
structure Guarded (config : Config) : Prop where
  below : ∀ call ∈ config.stack.tail, ¬ call.Armed
  top : ∀ call rest, config.stack = call :: rest → call.Armed →
    config.endpoint.state ≠ .kDisconnected ∧ call.Direct
  safe : MessageSafe config.log

theorem handsOver_not_armed {endpoint : Endpoint} {next : Call}
    (handed : endpoint.HandsOver next) : ¬ next.Armed := by
  cases handed <;> exact id

private theorem guarded_of_unarmed {config : Config}
    (unarmed : ∀ call ∈ config.stack, ¬ call.Armed) (safe : MessageSafe config.log) :
    Guarded config where
  below call member := unarmed call (List.mem_of_mem_tail member)
  top call rest stack armed := absurd armed (unarmed call (by rw [stack]; exact .head _))
  safe := safe

private theorem unarmed_append {calls rest : List Call}
    (handed : ∀ call ∈ calls, ¬ call.Armed) (below : ∀ call ∈ rest, ¬ call.Armed) :
    ∀ call ∈ calls ++ rest, ¬ call.Armed := by
  intro call member
  rcases List.mem_append.mp member with lined | other
  · exact handed call lined
  · exact below call other

theorem mem_handleEventWithGuard {revents : Events} {read : ReadResult} {write : WriteResult}
    {next : Call} (lined : next ∈ Endpoint.handleEventWithGuard revents read write) :
    next = .handleClose ∨ next = .handleError ∨
      (next = .handleRead read ∧ revents.has readMask = true) ∨ next = .handleWrite write := by
  simp only [Endpoint.handleEventWithGuard, List.mem_append] at lined
  rcases lined with ((close | error) | bytes) | output
  · left
    split at close <;> simp_all
  · right; left
    split at error <;> simp_all
  · right; right; left
    split at bytes
    · next reads => exact ⟨List.mem_singleton.mp bytes, reads⟩
    · cases bytes
  · right; right; right
    split at output <;> simp_all

theorem handleEventWithGuard_of_direct {revents : Events} {read : ReadResult}
    {write : WriteResult} (reads : revents.has readMask = true)
    (direct : closesFirst revents = false) :
    Endpoint.handleEventWithGuard revents read write =
      .handleRead read :: (if revents.has XPOLLOUT then [.handleWrite write] else []) := by
  rw [closesFirst, Bool.or_eq_false_iff] at direct
  rw [readMask] at reads
  simp [Endpoint.handleEventWithGuard, direct.1, direct.2, reads]

private theorem event_guarded {config after : Config} {revents : Events} {read : ReadResult}
    {write : WriteResult} {rest : List Call} (guarded : Guarded config)
    (stack : config.stack = .handleEvent revents read write :: rest)
    (lined : after.stack = Endpoint.handleEventWithGuard revents read write ++ rest)
    (state : after.endpoint.state = config.endpoint.state) (log : after.log = config.log) :
    Guarded after := by
  have below : ∀ other ∈ rest, ¬ other.Armed := by simpa [stack] using guarded.below
  have safe : MessageSafe after.log := log ▸ guarded.safe
  by_cases armed : (Call.handleEvent revents read write).Armed
  · rcases guarded.top _ rest stack armed with ⟨alive, direct⟩
    have reads : revents.has readMask = true := by
      cases read with
      | received data => exact armed
      | endOfStream => exact armed.elim
      | failed errno => exact armed.elim
    rw [handleEventWithGuard_of_direct reads direct, List.cons_append] at lined
    refine ⟨?_, fun call others top _ => ?_, safe⟩
    · rw [lined]
      refine unarmed_append (fun next member => ?_) below
      split at member
      · rw [List.mem_singleton.mp member]
        exact id
      · cases member
    · rw [lined] at top
      cases top
      exact ⟨by rw [state]; exact alive, trivial⟩
  · refine guarded_of_unarmed ?_ safe
    rw [lined]
    refine unarmed_append (fun next member => ?_) below
    rcases mem_handleEventWithGuard member with rfl | rfl | ⟨rfl, reads⟩ | rfl
    · exact id
    · exact id
    · cases read with
      | received data => exact absurd reads armed
      | endOfStream => exact id
      | failed errno => exact id
    · exact id

theorem advance_guarded {platform : Platform} {config : Config} {call : Call}
    {rest : List Call} (lifecycle : config.Lifecycle) (guarded : Guarded config)
    (stack : config.stack = call :: rest) (ctl : Bool) :
    Guarded (config.advance platform ctl call rest) := by
  have below : ∀ other ∈ rest, ¬ other.Armed := by simpa [stack] using guarded.below
  have change := config.endpoint.execute_change platform ctl call
  unfold Config.advance
  generalize config.endpoint.execute platform ctl call = outcome at change ⊢
  cases change with
  | event revents read write =>
      exact event_guarded guarded stack rfl rfl (List.append_nil _)
  | message data after kept state =>
      apply guarded_of_unarmed (unarmed_append (by simp [Call.Armed]) below)
      apply messageSafe_concat guarded.safe
      intro _ _
      have alive := (guarded.top _ rest stack trivial).1
      exact List.count_eq_zero.mp (lifecycle.downs_alive alive)
  | quiet _ after calls kept state handed closing =>
      refine guarded_of_unarmed
        (unarmed_append (fun next member => handsOver_not_armed (handed next member)) below) ?_
      simpa using guarded.safe
  | queued message write after updated state alive =>
      apply guarded_of_unarmed (unarmed_append (by simp) below)
      simpa using guarded.safe
  | drained write after writing updated state =>
      apply guarded_of_unarmed (unarmed_append (by simp) below)
      simpa using guarded.safe
  | removed =>
      apply guarded_of_unarmed (unarmed_append (by simp) below)
      simpa using guarded.safe
  | opened after opening connected updated answer =>
      apply guarded_of_unarmed (unarmed_append (by simp [Call.Armed]) below)
      exact messageSafe_concat guarded.safe (by simp)
  | openingFailed after opening connected updated =>
      apply guarded_of_unarmed (unarmed_append (by simp [Call.Armed]) below)
      simpa using guarded.safe
  | closed _ after last alive disconnected updated origin =>
      refine guarded_of_unarmed (unarmed_append ?_ below) ?_
      · rcases origin with ⟨-, rfl⟩ | ⟨-, rfl, -⟩ <;> simp [Call.Armed]
      · exact messageSafe_concat guarded.safe (by simp)
  | closeDelivered =>
      apply guarded_of_unarmed (unarmed_append (by simp [Call.Armed]) below)
      exact messageSafe_concat guarded.safe (by simp)

/-- One harmless step of the loop thread stays guarded. -/
theorem step_guarded {platform : Platform} {before after : Config} {label : Label}
    (lifecycle : before.Lifecycle) (guarded : Guarded before)
    (moves : before.Moves platform label after) (safe : harmless before label = true) :
    Guarded after := by
  cases moves with
  | advance ctl call rest stack running => exact advance_guarded lifecycle guarded stack ctl
  | enter call idle entry =>
      have unarmed : ∀ other ∈ before.stack, ¬ other.Armed := by
        intro other member
        cases stack : before.stack with
        | nil =>
            rw [stack] at member
            cases member
        | cons top rest =>
            have callback : top = .userCode := by simpa [isOpen, stack] using idle
            have below := guarded.below
            rw [stack] at below member
            rcases List.mem_cons.mp member with rfl | lower
            · rw [callback]
              exact id
            · exact below other lower
      refine ⟨unarmed, fun top rest stack armed => ?_, guarded.safe⟩
      cases stack
      cases call with
      | handleEvent revents read write =>
          cases read with
          | received data =>
              have reads : revents.has readMask = true := armed
              simpa [harmless, reads, Call.Direct] using safe
          | endOfStream => exact armed.elim
          | failed errno => exact armed.elim
      | handleRead read => cases entry
      | _ => exact armed.elim
  | leave rest stack =>
      refine guarded_of_unarmed ?_ guarded.safe
      simpa [stack] using guarded.below
  | dispatch functor others stack =>
      refine guarded_of_unarmed ?_ guarded.safe
      cases functor <;> simp [Functor.calls, Call.Armed]

theorem create_guarded (endpoint : Endpoint) : Guarded (.create endpoint) :=
  guarded_of_unarmed (by simp [Config.create]) (by
    intro earlier input later split
    simp [Config.create] at split)

/-- In every run whose events are harmless, no message is delivered after a down, and
none to an erased session. -/
theorem harmless_run_is_messageSafe (platform : Platform) (address : Nat) (fd : Int)
    (poller : EPollPoller) (writeComplete highWaterMark : Bool) (labels : List Label)
    (config : Config)
    (run : ((connectionMachine platform).restrict fun config label =>
        harmless config label = true).Transitions
      (.create (.create address fd poller writeComplete highWaterMark)) labels config) :
    MessageSafe config.log := by
  have guarded : Guarded config := by
    refine run.invariant_of_invariant ?_ ?_
      (create_lifecycle address fd poller writeComplete highWaterMark) (create_guarded _)
    · rintro before label after holds ⟨taken, -⟩
      exact step_lifecycle holds (step_moves taken)
    · rintro before label after lifecycle - holds ⟨taken, safe⟩
      exact step_guarded lifecycle holds (step_moves taken) safe
  exact guarded.safe

/-- Bytes that arrive on an open connection are delivered before any down. -/
theorem harmless_run_is_messageSafe_received :
    ∃ config, Machine.runPartial (fun config label =>
        if harmless config label = true then config.step .posix label else none)
        (.create (.create 1 5 .empty false false))
        [.enter .connectEstablished, .advance true, .leave,
          .enter (.handleEvent XPOLLIN (.received [65]) (.accepted 0)), .advance true,
          .advance true] = some config ∧ MessageSafe config.log := by
  have ran : ((Machine.runPartial (fun config label =>
      if harmless config label = true then config.step .posix label else none)
      (.create (.create 1 5 .empty false false))
      [.enter .connectEstablished, .advance true, .leave,
        .enter (.handleEvent XPOLLIN (.received [65]) (.accepted 0)), .advance true,
        .advance true])).isSome = true := by decide +kernel
  rcases Option.isSome_iff_exists.mp ran with ⟨config, ran⟩
  exact ⟨config, ran, harmless_run_is_messageSafe .posix 1 5 .empty false false _ config
    (Machine.transitions_of_checked_run ran)⟩

/-- An error event that also brings bytes: the connection goes down, its session is
erased, and the bytes are shown to it. -/
theorem error_event_with_bytes_is_not_messageSafe :
    ¬ ∀ (platform : Platform) (address : Nat) (fd : Int) (poller : EPollPoller)
      (writeComplete highWaterMark : Bool) (labels : List Label) (config : Config),
      (connectionMachine platform).Transitions
        (.create (.create address fd poller writeComplete highWaterMark)) labels config →
        MessageSafe config.log := by
  intro law
  have logged : (Machine.runPartial (Config.step .posix)
      (.create (.create 1 5 .empty false false))
      [.enter .connectEstablished, .advance true, .leave,
        .enter (.handleEvent (XPOLLIN ||| XPOLLERR) (.received [65]) (.accepted 0)),
        .advance true, .advance true, .advance true, .leave, .advance true, .leave,
        .advance true]).map (fun config => (config.log.take 3,
          config.log.drop 3 == [.messageCallback config.endpoint.inputBuffer])) =
      some ([.connectionCallback true, .connectionCallback false, .closeCallback], true) := by
    decide +kernel
  rcases Option.map_eq_some_iff.mp logged with ⟨config, ran, logged⟩
  simp only [Prod.mk.injEq, beq_iff_eq] at logged
  have split : config.log = [.connectionCallback true, .connectionCallback false,
      .closeCallback] ++ .messageCallback config.endpoint.inputBuffer :: [] := by
    rw [← logged.1, ← logged.2, List.take_append_drop]
  have safe := law .posix 1 5 .empty false false _ config
    (Machine.transitions_of_runPartial ran)
  exact (safe _ _ _ split).1 (by simp)

/-! ## Every other event breaks the rule -/

section Harmful

variable {platform : Platform} {config : Config} {rest : List Call}

private theorem advance_reaches {call : Call} (stack : config.stack = call :: rest)
    (running : call ≠ .userCode) :
    (connectionMachine platform).Reaches config (config.advance platform true call rest) := by
  have taken : (connectionMachine platform).Step config (.advance true)
      (config.advance platform true call rest) := by
    change config.step platform (.advance true) = _
    simp [Config.step, stack, running]
  exact .of_step taken

private theorem leave_reaches (stack : config.stack = .userCode :: rest) :
    (connectionMachine platform).Reaches config { config with stack := rest } := by
  have taken : (connectionMachine platform).Step config .leave
      { config with stack := rest } := by
    change config.step platform .leave = _
    simp [Config.step, stack]
  exact .of_step taken

private theorem handleClose_reaches (stack : config.stack = .handleClose :: rest) :
    ∃ later, (connectionMachine platform).Reaches config later ∧ later.stack = rest ∧
      later.Disconnected := by
  have first : (connectionMachine platform).Reaches config
      (config.advance platform true .handleClose rest) := advance_reaches stack (by simp)
  by_cases gone : config.endpoint.state = .kDisconnected
  · refine ⟨_, first, ?_, ?_⟩
    · simp [Config.advance, Endpoint.execute, Endpoint.handleClose, gone]
    · simp [Disconnected, Config.advance, Endpoint.execute, Endpoint.handleClose, gone]
  · have closed : (config.advance platform true .handleClose rest).Disconnected := by
      simp [Disconnected, Config.advance, Endpoint.execute, Endpoint.handleClose, gone,
        Endpoint.connectionCallback, Endpoint.disableAll, Endpoint.setState]
    have callbacks : (config.advance platform true .handleClose rest).stack =
        .userCode :: .closeCallback :: rest := by
      simp [Config.advance, Endpoint.execute, Endpoint.handleClose, gone,
        Endpoint.connectionCallback]
    generalize config.advance platform true .handleClose rest = down at first closed callbacks
    have second : (connectionMachine platform).Reaches down
        { down with stack := .closeCallback :: rest } := leave_reaches callbacks
    have third : (connectionMachine platform).Reaches
        { down with stack := .closeCallback :: rest }
        (Config.advance { down with stack := .closeCallback :: rest } platform true
          .closeCallback rest) := advance_reaches rfl (by simp)
    have fourth : (connectionMachine platform).Reaches
        ⟨down.endpoint, .userCode :: rest, down.log ++ [.closeCallback]⟩
        ⟨down.endpoint, rest, down.log ++ [.closeCallback]⟩ := leave_reaches rfl
    exact ⟨_, ((first.trans second).trans third).trans fourth, rfl, closed⟩

private theorem handleError_reaches (stack : config.stack = .handleError :: rest) :
    ∃ later, (connectionMachine platform).Reaches config later ∧ later.stack = rest ∧
      later.Disconnected := by
  have first : (connectionMachine platform).Reaches config
      ⟨config.endpoint, .handleClose :: rest, config.log ++ []⟩ :=
    advance_reaches stack (by simp)
  rcases handleClose_reaches
    (show (⟨config.endpoint, .handleClose :: rest, config.log ++ []⟩ : Config).stack = _
      from rfl) with
    ⟨later, reaches, finished⟩
  exact ⟨later, first.trans reaches, finished⟩

/-- The close and error handlers of an event run to their end; if there are any, the
connection is disconnected then. -/
private theorem closing_reaches {calls : List Call}
    (closing : ∀ call ∈ calls, call = .handleClose ∨ call = .handleError)
    (stack : config.stack = calls ++ rest) (harmful : calls ≠ [] ∨ config.Disconnected) :
    ∃ later, (connectionMachine platform).Reaches config later ∧ later.stack = rest ∧
      later.Disconnected := by
  induction calls generalizing config with
  | nil => exact ⟨config, .refl _ config, stack, harmful.resolve_left (· rfl)⟩
  | cons call calls induction =>
      have one : ∃ later, (connectionMachine platform).Reaches config later ∧
          later.stack = calls ++ rest ∧ later.Disconnected := by
        rcases closing call (.head _) with rfl | rfl
        · exact handleClose_reaches stack
        · exact handleError_reaches stack
      rcases one with ⟨middle, reaches, middleStack, gone⟩
      rcases induction
        (fun other member => closing other (.tail _ member)) middleStack (.inr gone) with
        ⟨later, continues, finished⟩
      exact ⟨later, reaches.trans continues, finished⟩

private theorem handleEventWithGuard_split {revents : Events} (read : ReadResult)
    (write : WriteResult) (reads : revents.has readMask = true) :
    ∃ calls output, Endpoint.handleEventWithGuard revents read write =
        calls ++ .handleRead read :: output ∧
      (∀ call ∈ calls, call = .handleClose ∨ call = .handleError) ∧
      (closesFirst revents = true → calls ≠ []) := by
  refine ⟨(if revents.has XPOLLHUP && !revents.has XPOLLIN then [.handleClose] else []) ++
    (if revents.has (XPOLLERR ||| XPOLLNVAL) then [.handleError] else []),
    if revents.has XPOLLOUT then [.handleWrite write] else [], ?_, ?_, ?_⟩
  · rw [readMask] at reads
    simp [Endpoint.handleEventWithGuard, reads]
  · intro call member
    rcases List.mem_append.mp member with close | error
    · split at close <;> simp_all
    · split at error <;> simp_all
  · intro closing empty
    rw [List.append_eq_nil_iff] at empty
    rw [closesFirst, Bool.or_eq_true] at closing
    rcases closing with hangUp | error
    · simp [hangUp] at empty
    · simp [error] at empty

private theorem handleRead_unsafe {data : Bytes} (lifecycle : config.Lifecycle)
    (gone : config.Disconnected) (stack : config.stack = .handleRead (.received data) :: rest)
    (some : data ≠ []) :
    ∃ later, (connectionMachine platform).Reaches config later ∧ ¬ MessageSafe later.log := by
  refine ⟨_, advance_reaches stack (by simp), fun safe => ?_⟩
  have told : .connectionCallback false ∈ config.log :=
    List.count_pos_iff.mp (lifecycle.downs_ended gone)
  have count := config.endpoint.inputBuffer.readFd_count platform (.received data)
  have positive : 0 < data.length := List.length_pos_iff.mpr some
  have logged : (config.advance platform true (.handleRead (.received data)) rest).log =
      config.log ++ .messageCallback
        (config.endpoint.inputBuffer.readFd platform (.received data)).2 :: [] := by
    simp [Config.advance, Endpoint.execute, Endpoint.handleRead, count, ReadResult.count,
      positive]
  exact (safe _ _ _ logged).1 told

/-- From any reachable state, an event that is not harmless can go on to show a message
to a connection that has been told down. -/
theorem harmful_event_reaches_unsafe {address : Nat} {fd : Int} {poller : EPollPoller}
    {writeComplete highWaterMark : Bool} {labels : List Label} {revents : Events}
    {data : Bytes} {write : WriteResult}
    (run : (connectionMachine platform).Transitions
      (.create (.create address fd poller writeComplete highWaterMark)) labels config)
    (idle : config.isOpen = true) (some : data ≠ [])
    (harmful : harmless config (.enter (.handleEvent revents (.received data) write)) = false) :
    ∃ later, (connectionMachine platform).Reaches config later ∧ ¬ MessageSafe later.log := by
  simp only [harmless, Bool.or_eq_false_iff, Bool.and_eq_false_iff, Bool.not_eq_false',
    bne_eq_false_iff_eq] at harmful
  rcases harmful with ⟨reads, harmful⟩
  have entered : (connectionMachine platform).Step config
      (.enter (.handleEvent revents (.received data) write))
      { config with stack := .handleEvent revents (.received data) write :: config.stack } := by
    change config.step platform (.enter _) = _
    simp [Config.step, idle, Call.isEntry]
  rcases handleEventWithGuard_split (.received data) write reads with
    ⟨calls, output, handlers, closing, closed⟩
  have lined : (connectionMachine platform).Reaches config
      (Config.advance
        { config with stack := .handleEvent revents (.received data) write :: config.stack }
        platform true (.handleEvent revents (.received data) write) config.stack) :=
    (Machine.Reaches.of_step entered).trans (advance_reaches rfl (by simp))
  have stack : (Config.advance
        { config with stack := .handleEvent revents (.received data) write :: config.stack }
        platform true (.handleEvent revents (.received data) write) config.stack).stack =
      calls ++ (.handleRead (.received data) :: (output ++ config.stack)) := by
    simp [Config.advance, Endpoint.execute, handlers]
  have state : (Config.advance
        { config with stack := .handleEvent revents (.received data) write :: config.stack }
        platform true (.handleEvent revents (.received data) write)
          config.stack).endpoint.state = config.endpoint.state := rfl
  generalize Config.advance _ platform true _ config.stack = ready at lined stack state
  have closable : calls ≠ [] ∨ ready.Disconnected := by
    rcases harmful with disconnected | closing
    · exact .inr (state.trans disconnected)
    · exact .inl (closed closing)
  rcases closing_reaches closing stack closable with ⟨middle, closes, middleStack, gone⟩
  have reaches := lined.trans closes
  have lifecycle : middle.Lifecycle :=
    reaches.invariant (fun _ _ _ holds taken => step_lifecycle holds (step_moves taken))
      (run_lifecycle run)
  rcases handleRead_unsafe lifecycle gone middleStack some with ⟨later, continues, broken⟩
  exact ⟨later, reaches.trans continues, broken⟩

end Harmful

end MyBookSources.Net
