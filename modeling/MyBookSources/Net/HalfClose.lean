import MyBookSources.Net.OutputEffects
import MyBookSources.Net.OutputPath
import MyBookSources.Net.SharedConnection

/-! # Half-close

`shutdownWrite` against the messages that other threads have sent: which of them
have reached the socket when the write side is shut, and whether anything is
written after that.
-/

namespace MyBookSources.Net

namespace SharedConnection

variable (connection : SharedConnection)

/-- The messages of the `sendInLoop` calls on the stack. -/
def stackSends : List Bytes := connection.config.stack.filterMap Call.message

/-- The messages of the `sendInLoop` functors in the queue of the loop. -/
def waitingSends : List Bytes := connection.loop.waiting.filterMap OutputFunctor.message

/-- The messages that were sent before `shutdown` was called have been taken, the socket
has all bytes of what was taken, and nothing is written later. -/
def ClosesInOrder : Prop :=
  (connection.config.endpoint.writeShutdown = true →
    (∀ message, connection.owed.count message ≤ connection.handled.count message) ∧
      connection.config.endpoint.accepted = connection.handled.flatten) ∧
  connection.lateWrite = false

/-- The next call shuts the write side: a `shutdown` with no output queued, or a write that
drains the output of a connection that is disconnecting. -/
def shutsWrite : Bool :=
  match connection.config.stack with
  | .shutdown :: _ =>
      connection.config.endpoint.state == .kConnected &&
        !connection.config.endpoint.channel.isWriting
  | .handleWrite (.accepted count) :: _ =>
      connection.config.endpoint.drains count &&
        connection.config.endpoint.state == .kDisconnecting
  | _ => false

/-- No thread is on its way to the loop with a message. -/
def NothingUnderWay : Prop := connection.sending = [] ∧ connection.waitingSends = []

/-- What the socket answers the next call: a count within the request or an error, and for
a first write not an error on which the message is given up. Message and queue are short. -/
def Answered : Prop :=
  match connection.config.stack with
  | .sendInLoop message write :: _ =>
      message.length < 2 ^ 31 ∧
        connection.config.endpoint.outputBuffer.readable.length < 2 ^ 31 ∧
        write.Within message.length ∧ ¬ write.Fatal
  | .handleWrite write :: _ =>
      connection.config.endpoint.outputBuffer.readable.length < 2 ^ 31 ∧
        write.Within connection.config.endpoint.outputBuffer.readableBytes
  | _ => True

/-- The condition: the write side is shut only when no message is under way. -/
def ShutsInTime (connection : SharedConnection) : SharedLabel → Prop
  | .advance _ => (connection.shutsWrite = true → connection.NothingUnderWay) ∧
      connection.Answered
  | _ => True

instance (connection : SharedConnection) : Decidable connection.NothingUnderWay :=
  inferInstanceAs (Decidable (_ ∧ _))

instance (connection : SharedConnection) : Decidable connection.Answered := by
  unfold Answered
  split <;> infer_instance

instance (connection : SharedConnection) (label : SharedLabel) :
    Decidable (connection.ShutsInTime label) := by
  unfold ShutsInTime
  split <;> infer_instance

structure Shut : Prop where
  state : connection.config.endpoint.state ≠ .kConnecting ∧
    connection.config.endpoint.state ≠ .kConnected
  quiet : connection.config.endpoint.channel.isWriting = false
  nothing : connection.NothingUnderWay
  stack : connection.stackSends = []
  written : ∀ message, connection.owed.count message ≤ connection.handled.count message
  whole : connection.config.endpoint.accepted = connection.handled.flatten

/-- The messages that were sent are taken, on the stack or in the queue of the loop, as
long as the connection is not closed. -/
structure Ordered : Prop where
  sound : OutputPath.Sound ⟨connection.config.endpoint, connection.handled⟩
  closed : connection.config.endpoint.state = .kDisconnected →
    connection.config.endpoint.channel.isWriting = false
  kept : connection.config.endpoint.state ≠ .kDisconnected → ∀ message,
    connection.completed.count message ≤ connection.handled.count message +
      connection.stackSends.count message + connection.waitingSends.count message
  owing : connection.config.endpoint.state ≠ .kDisconnected → ∀ message,
    connection.owed.count message ≤ connection.completed.count message
  topmost : ∀ call ∈ connection.config.stack.tail, call.message = none
  shut : connection.config.endpoint.writeShutdown = true → connection.Shut
  punctual : connection.lateWrite = false

variable {connection} {next : SharedConnection} {platform : Platform}

theorem Ordered.closesInOrder (ordered : connection.Ordered) : connection.ClosesInOrder := by
  constructor
  · intro shut
    exact ⟨(ordered.shut shut).written, (ordered.shut shut).whole⟩
  · exact ordered.punctual

theorem create_ordered {endpoint : Endpoint} (unsent : OutputPath.Unsent endpoint)
    (fresh : endpoint.writeShutdown = false) : (create endpoint).Ordered where
  sound := OutputPath.sound_of_unsent unsent
  closed _ := unsent.quiet
  kept _ _ := Nat.zero_le _
  owing _ _ := Nat.zero_le _
  topmost _ member := by cases member
  shut shut := by
    rw [show endpoint.writeShutdown = true from shut] at fresh
    cases fresh
  punctual := rfl

/-! ## Calls on the loop thread -/

def advanced (connection : SharedConnection) (platform : Platform) (ctl : Bool) (call : Call)
    (rest : List Call) : SharedConnection :=
  { connection with
    config := connection.config.advance platform ctl call rest
    completed := connection.completed ++ connection.sends
    owed := if connection.shutsDown then connection.completed else connection.owed
    handled := connection.handled ++ connection.takes
    lateWrite := connection.lateWrite ||
      connection.config.endpoint.writeShutdown && connection.writes }

theorem advance_cases {ctl : Bool} (taken : connection.advance platform ctl = some next) :
    ∃ call rest, connection.config.stack = call :: rest ∧
      next = connection.advanced platform ctl call rest := by
  rcases Option.map_eq_some_iff.mp taken with ⟨config, moved, rfl⟩
  cases Config.step_moves moved with
  | advance _ call rest stack running => exact ⟨call, rest, stack, rfl⟩

theorem filterMap_execute {call : Call} {rest : List Call}
    (stack : connection.config.stack = call :: rest) (ctl : Bool) :
    (connection.config.endpoint.execute platform ctl call).calls.filterMap Call.message =
      connection.sends := by
  have none (other : ∀ message write, call ≠ .send message write) :
      (connection.config.endpoint.execute platform ctl call).calls.filterMap Call.message = [] :=
    List.filterMap_eq_nil_iff.mpr fun next member =>
      connection.config.endpoint.execute_message platform ctl other next member
  cases call with
  | send message write =>
      simp only [sends, stack, Endpoint.execute, Endpoint.send]
      split
      · rfl
      · rfl
  | _ =>
      rw [none (by simp)]
      simp only [sends, stack]

theorem execute_tail (platform : Platform) (call : Call) (ctl : Bool) (endpoint : Endpoint) :
    ∀ next ∈ (endpoint.execute platform ctl call).calls.tail, next.message = none := by
  intro next member
  by_cases sends : ∃ message write, call = .send message write
  · rcases sends with ⟨message, write, rfl⟩
    simp only [Endpoint.execute, Endpoint.send] at member
    split at member
    · cases member
    · cases member
  · apply endpoint.execute_message platform ctl _ next (List.mem_of_mem_tail member)
    intro message write same
    exact sends ⟨message, write, same⟩

theorem stack_of_advance (platform : Platform) (ordered : connection.Ordered) {call : Call}
    {rest : List Call}
    (stack : connection.config.stack = call :: rest) (ctl : Bool) :
    (connection.config.advance platform ctl call rest).stack.filterMap Call.message =
        connection.sends ∧
      rest.filterMap Call.message = [] ∧
      ∀ next ∈ (connection.config.advance platform ctl call rest).stack.tail,
        next.message = none := by
  have below : ∀ next ∈ rest, next.message = none := by
    have topmost := ordered.topmost
    rw [stack] at topmost
    exact topmost
  have nothing : rest.filterMap Call.message = [] :=
    List.filterMap_eq_nil_iff.mpr below
  refine ⟨?_, nothing, ?_⟩
  · change ((connection.config.endpoint.execute platform ctl call).calls ++ rest).filterMap
      Call.message = _
    rw [List.filterMap_append, filterMap_execute stack, nothing, List.append_nil]
  · intro next member
    change next ∈ ((connection.config.endpoint.execute platform ctl call).calls ++ rest).tail
      at member
    have tail := execute_tail platform call ctl
      connection.config.endpoint
    cases calls : (connection.config.endpoint.execute platform ctl call).calls with
    | nil =>
        rw [calls] at member
        exact below next (List.mem_of_mem_tail member)
    | cons first others =>
        rw [calls] at member tail
        rcases List.mem_append.mp member with handed | under
        · exact tail next handed
        · exact below next under

theorem stackSends_of_stack (ordered : connection.Ordered) {call : Call} {rest : List Call}
    (stack : connection.config.stack = call :: rest) :
    connection.stackSends = call.message.toList := by
  have topmost := ordered.topmost
  rw [stack] at topmost
  have nothing : rest.filterMap Call.message = [] := List.filterMap_eq_nil_iff.mpr topmost
  rw [stackSends, stack]
  cases message : call.message with
  | none => rw [List.filterMap_cons_none message, nothing]; rfl
  | some sent => rw [List.filterMap_cons_some message, nothing]; rfl

theorem takes_of_stack {call : Call} {rest : List Call}
    (stack : connection.config.stack = call :: rest) (sends : call.message = none) :
    connection.takes = [] := by
  cases call with
  | sendInLoop message write => cases sends
  | _ => simp only [takes, stack]

theorem writes_of_stack {call : Call} {rest : List Call}
    (stack : connection.config.stack = call :: rest) (sends : call.message = none)
    (writes : ∀ write, call ≠ .handleWrite write) : connection.writes = false := by
  cases call with
  | sendInLoop message write => cases sends
  | handleWrite write => exact absurd rfl (writes write)
  | _ => simp only [SharedConnection.writes, stack]

theorem shutsDown_of_stack {call : Call} {rest : List Call}
    (stack : connection.config.stack = call :: rest) (shuts : call ≠ .shutdown) :
    connection.shutsDown = false := by
  cases call with
  | shutdown => exact absurd rfl shuts
  | _ => simp only [shutsDown, stack]

theorem sends_of_state (other : connection.config.endpoint.state ≠ .kConnected) :
    connection.sends = [] := by
  unfold sends
  split
  · rw [if_neg other]
  · rfl

theorem sound_of_kept {before after : Endpoint} {messages : List Bytes}
    (sound : OutputPath.Sound ⟨before, messages⟩)
    (outputBuffer : after.outputBuffer = before.outputBuffer)
    (accepted : after.accepted = before.accepted)
    (alive : after.state ≠ .kDisconnected → before.state ≠ .kDisconnected ∧
      after.channel.isWriting = before.channel.isWriting) :
    OutputPath.Sound ⟨after, messages⟩ where
  wellFormed := by
    dsimp only
    rw [outputBuffer]
    exact sound.wellFormed
  bounded := by
    dsimp only
    rw [outputBuffer]
    exact sound.bounded
  conserves := by
    rw [OutputPath.Conserves]
    dsimp only
    rw [outputBuffer, accepted]
    exact sound.conserves
  interest living := by
    rw [OutputPath.WritesQueued]
    dsimp only
    rw [(alive living).2, outputBuffer]
    exact sound.interest (alive living).1

theorem Ordered.keep (ordered : connection.Ordered) {call : Call} {rest : List Call}
    (stack : connection.config.stack = call :: rest) (ctl : Bool)
    (sends : call.message = none) (writes : ∀ write, call ≠ .handleWrite write)
    (shuts : call ≠ .shutdown) : (connection.advanced platform ctl call rest).Ordered := by
  have kept := connection.config.endpoint.execute_keepsOutput platform ctl sends writes shuts
  rcases stack_of_advance platform ordered stack ctl with ⟨sent, _, tail⟩
  have stackBefore := stackSends_of_stack ordered stack
  rw [sends] at stackBefore
  have takes := takes_of_stack stack sends
  have handled : (connection.advanced platform ctl call rest).handled = connection.handled := by
    simp only [advanced, takes, List.append_nil]
  have owed : (connection.advanced platform ctl call rest).owed = connection.owed := by
    simp only [advanced, shutsDown_of_stack stack shuts, Bool.false_eq_true, if_false]
  have alive (after : (connection.advanced platform ctl call rest).config.endpoint.state ≠
      .kDisconnected) : connection.config.endpoint.state ≠ .kDisconnected ∧
      (connection.advanced platform ctl call rest).config.endpoint.channel.isWriting =
        connection.config.endpoint.channel.isWriting := by
    rcases kept.place with ⟨writing, goes⟩ | ⟨_, gone⟩
    · exact ⟨goes.alive after, writing⟩
    · exact absurd gone after
  constructor
  · rw [handled]
    exact sound_of_kept ordered.sound kept.outputBuffer kept.accepted alive
  · intro gone
    rcases kept.place with ⟨writing, goes⟩ | ⟨quiet, _⟩
    · exact writing.trans (ordered.closed (goes.closed gone))
    · exact quiet
  · intro after message
    have before := ordered.kept (alive after).1 message
    rw [handled]
    simp only [stackBefore, Option.toList_none, List.count_nil, Nat.add_zero] at before
    change (connection.completed ++ connection.sends).count message ≤ _ +
      ((connection.config.advance platform ctl call rest).stack.filterMap
        Call.message).count message + _
    rw [sent, List.count_append]
    change _ ≤ _ + _ + connection.waitingSends.count message
    omega
  · intro after message
    rw [owed]
    have before := ordered.owing (alive after).1 message
    change _ ≤ (connection.completed ++ connection.sends).count message
    rw [List.count_append]
    omega
  · exact tail
  · intro shut
    have before := ordered.shut (kept.writeShutdown.symm.trans shut)
    have state : (connection.advanced platform ctl call rest).config.endpoint.state =
        connection.config.endpoint.state ∨
        (connection.advanced platform ctl call rest).config.endpoint.state = .kDisconnected := by
      rcases kept.place with ⟨_, goes⟩ | ⟨_, gone⟩
      · exact .inl (goes.closing before.state)
      · exact .inr gone
    have quiet := sends_of_state before.state.2
    constructor
    · rcases state with same | gone
      · rw [same]
        exact before.state
      · rw [gone]
        simp
    · rcases kept.place with ⟨writing, _⟩ | ⟨quiet, _⟩
      · exact writing.trans before.quiet
      · exact quiet
    · exact before.nothing
    · exact sent.trans quiet
    · rw [owed, handled]
      exact before.written
    · rw [handled]
      exact kept.accepted.trans before.whole
  · simp only [advanced, writes_of_stack stack sends writes, Bool.and_false, Bool.or_false]
    exact ordered.punctual

theorem Ordered.open_of_not_shut (ordered : connection.Ordered) (open_side : ¬ connection.Shut) :
    connection.config.endpoint.writeShutdown = false :=
  Bool.eq_false_iff.mpr fun shut => open_side (ordered.shut shut)

theorem Ordered.open_of_send (ordered : connection.Ordered) {message : Bytes}
    {write : WriteResult} {rest : List Call}
    (stack : connection.config.stack = .sendInLoop message write :: rest) :
    connection.config.endpoint.writeShutdown = false := by
  apply ordered.open_of_not_shut
  intro shut
  have none := shut.stack
  rw [stackSends_of_stack ordered stack] at none
  cases none

theorem sendInLoop_sound (ordered : connection.Ordered) {message : Bytes}
    {write : WriteResult} {rest : List Call}
    (stack : connection.config.stack = .sendInLoop message write :: rest) (ctl : Bool)
    (answered : connection.Answered) :
    OutputPath.Sound ⟨connection.config.endpoint.sendInLoop message write ctl,
      connection.handled ++ connection.takes⟩ := by
  have open_side := ordered.open_of_send stack
  simp only [Answered, stack] at answered
  by_cases gone : connection.config.endpoint.state = .kDisconnected
  · have nothing : connection.takes = [] := by
      simp only [takes, stack, gone, true_or, if_true]
    rw [nothing, List.append_nil]
    simp only [Endpoint.sendInLoop, gone, if_true]
    exact ordered.sound
  · have taken : connection.takes = [message] := by
      simp [takes, stack, gone, open_side]
    rw [taken]
    have admissible : OutputPath.Admissible ⟨connection.config.endpoint, connection.handled⟩
        (.sendInLoop message write ctl) := ⟨gone, answered⟩
    exact OutputPath.perform_sound ordered.sound admissible

theorem Ordered.send (ordered : connection.Ordered) {message : Bytes} {write : WriteResult}
    {rest : List Call} (stack : connection.config.stack = .sendInLoop message write :: rest)
    (ctl : Bool) (answered : connection.Answered) :
    (connection.advanced platform ctl (.sendInLoop message write) rest).Ordered := by
  rcases stack_of_advance platform ordered stack ctl with ⟨sent, _, tail⟩
  have stackBefore := stackSends_of_stack ordered stack
  have open_side := ordered.open_of_send stack
  rcases connection.config.endpoint.sendInLoop_place message write ctl with ⟨state, shut⟩
  have noSends : connection.sends = [] := by simp only [sends, stack]
  have notShutdown := shutsDown_of_stack stack (by simp)
  constructor
  · exact sendInLoop_sound ordered stack ctl answered
  · intro gone
    have before : connection.config.endpoint.state = .kDisconnected := state.symm.trans gone
    change (connection.config.endpoint.sendInLoop message write ctl).channel.isWriting = false
    simp only [Endpoint.sendInLoop, before, if_true]
    exact ordered.closed before
  · intro after other
    have alive : connection.config.endpoint.state ≠ .kDisconnected := by
      rw [← state]
      exact after
    have taken : connection.takes = [message] := by simp [takes, stack, alive, open_side]
    have before := ordered.kept alive other
    rw [stackBefore] at before
    change (connection.completed ++ connection.sends).count other ≤
      (connection.handled ++ connection.takes).count other +
        ((connection.config.advance platform ctl _ rest).stack.filterMap
          Call.message).count other + connection.waitingSends.count other
    rw [sent, noSends, taken, List.append_nil, List.count_append]
    exact before
  · intro after other
    have alive : connection.config.endpoint.state ≠ .kDisconnected := by
      rw [← state]
      exact after
    have before := ordered.owing alive other
    simp only [advanced, notShutdown, noSends, List.append_nil]
    exact before
  · exact tail
  · intro shutAfter
    change (connection.config.endpoint.sendInLoop message write ctl).writeShutdown = true
      at shutAfter
    rw [shut, open_side] at shutAfter
    cases shutAfter
  · simp only [advanced, open_side, Bool.false_and, Bool.or_false]
    exact ordered.punctual

theorem Ordered.shut_now (ordered : connection.Ordered)
    (alive : connection.config.endpoint.state ≠ .kDisconnected)
    (nothing : connection.NothingUnderWay) (stack : connection.stackSends = []) (message : Bytes) :
    connection.completed.count message ≤ connection.handled.count message := by
  have kept := ordered.kept alive message
  rw [stack, nothing.2, List.count_nil] at kept
  exact kept

theorem advanced_silent (platform : Platform) (ordered : connection.Ordered) {call : Call}
    {rest : List Call} (stack : connection.config.stack = call :: rest) (ctl : Bool)
    (sends : call.message = none) (noSends : connection.sends = []) :
    (connection.advanced platform ctl call rest).stackSends = [] ∧
      (connection.advanced platform ctl call rest).handled = connection.handled ∧
      (connection.advanced platform ctl call rest).completed = connection.completed := by
  have takes := takes_of_stack stack sends
  constructor
  · exact (stack_of_advance platform ordered stack ctl).1.trans noSends
  · constructor
    · simp only [advanced, takes, List.append_nil]
    · simp only [advanced, noSends, List.append_nil]

section Shutdown

variable {rest : List Call} (stack : connection.config.stack = .shutdown :: rest)

include stack

theorem Ordered.kept_of_shutdown (ordered : connection.Ordered)
    (alive : connection.config.endpoint.state ≠ .kDisconnected) (message : Bytes) :
    connection.completed.count message ≤ connection.handled.count message +
      [].count message + connection.waitingSends.count message := by
  have before := ordered.kept alive message
  rw [stackSends_of_stack ordered stack] at before
  exact before

theorem Ordered.punctual_of_shutdown (ordered : connection.Ordered) (ctl : Bool) :
    (connection.advanced platform ctl .shutdown rest).lateWrite = false := by
  have writes := writes_of_stack stack rfl (by simp)
  simp only [advanced, writes, Bool.and_false, Bool.or_false]
  exact ordered.punctual

theorem Ordered.shutdown_connected (ordered : connection.Ordered) (ctl : Bool)
    (connected : connection.config.endpoint.state = .kConnected)
    (inTime : connection.shutsWrite = true → connection.NothingUnderWay) :
    (connection.advanced platform ctl .shutdown rest).Ordered := by
  have noSends : connection.sends = [] := by simp only [sends, stack]
  rcases stack_of_advance platform ordered stack ctl with ⟨_, _, tail⟩
  rcases advanced_silent platform ordered stack ctl rfl noSends with
    ⟨stackAfter, handled, completed⟩
  have alive : connection.config.endpoint.state ≠ .kDisconnected := by simp [connected]
  have owed : (connection.advanced platform ctl .shutdown rest).owed =
      connection.completed := by simp [advanced, shutsDown, stack, connected]
  have endpoint : (connection.advanced platform ctl .shutdown rest).config.endpoint =
      connection.config.endpoint.shutdown := rfl
  rw [Endpoint.shutdown_eq, if_pos connected] at endpoint
  constructor
  · rw [endpoint, handled]
    exact sound_of_kept ordered.sound rfl rfl fun _ => ⟨alive, rfl⟩
  · rw [endpoint]
    intro gone
    cases gone
  · intro _ message
    rw [completed, handled, stackAfter]
    exact ordered.kept_of_shutdown stack alive message
  · intro _ message
    rw [owed, completed]
  · exact tail
  · intro shut
    have open_side := ordered.open_of_not_shut fun already => already.state.2 connected
    rw [endpoint] at shut
    simp only [open_side, Bool.false_or, Bool.not_eq_true'] at shut
    have nothing := inTime (by simp [shutsWrite, stack, connected, shut])
    have drained : connection.config.endpoint.outputBuffer.readable = [] := by
      have interest := ordered.sound.interest alive
      by_contra queued
      have writing := interest.mpr queued
      rw [shut] at writing
      cases writing
    constructor
    · rw [endpoint]
      simp
    · rw [endpoint]
      exact shut
    · exact nothing
    · exact stackAfter
    · intro message
      rw [owed, handled]
      exact ordered.shut_now alive nothing (stackSends_of_stack ordered stack) message
    · rw [endpoint, handled]
      have conserves := ordered.sound.conserves
      rw [OutputPath.Conserves] at conserves
      dsimp only at conserves
      rw [drained, List.append_nil] at conserves
      exact conserves
  · exact ordered.punctual_of_shutdown stack ctl

theorem Ordered.shutdown_ignored (ordered : connection.Ordered) (ctl : Bool)
    (other : connection.config.endpoint.state ≠ .kConnected) :
    (connection.advanced platform ctl .shutdown rest).Ordered := by
  have noSends : connection.sends = [] := by simp only [sends, stack]
  rcases stack_of_advance platform ordered stack ctl with ⟨_, _, tail⟩
  rcases advanced_silent platform ordered stack ctl rfl noSends with
    ⟨stackAfter, handled, completed⟩
  have owed : (connection.advanced platform ctl .shutdown rest).owed =
      connection.owed := by simp [advanced, shutsDown, stack, other]
  have endpoint : (connection.advanced platform ctl .shutdown rest).config.endpoint =
      connection.config.endpoint.shutdown := rfl
  rw [Endpoint.shutdown_eq, if_neg other] at endpoint
  constructor
  · rw [endpoint, handled]
    exact ordered.sound
  · rw [endpoint]
    exact ordered.closed
  · rw [endpoint]
    intro alive message
    rw [completed, handled, stackAfter]
    exact ordered.kept_of_shutdown stack alive message
  · rw [endpoint]
    intro alive message
    rw [owed, completed]
    exact ordered.owing alive message
  · exact tail
  · rw [endpoint]
    intro shut
    have before := ordered.shut shut
    constructor
    · rw [endpoint]
      exact before.state
    · rw [endpoint]
      exact before.quiet
    · exact before.nothing
    · exact stackAfter
    · rw [owed, handled]
      exact before.written
    · rw [endpoint, handled]
      exact before.whole
  · exact ordered.punctual_of_shutdown stack ctl

end Shutdown

theorem Ordered.write (ordered : connection.Ordered) {write : WriteResult} {rest : List Call}
    (stack : connection.config.stack = .handleWrite write :: rest) (ctl : Bool)
    (writing : connection.config.endpoint.channel.isWriting = true)
    (inTime : connection.shutsWrite = true → connection.NothingUnderWay)
    (answered : connection.Answered) :
    (connection.advanced platform ctl (.handleWrite write) rest).Ordered := by
  have noSends : connection.sends = [] := by simp only [sends, stack]
  rcases stack_of_advance platform ordered stack ctl with ⟨_, _, tail⟩
  rcases advanced_silent platform ordered stack ctl rfl noSends with
    ⟨stackAfter, handled, completed⟩
  have stackBefore := stackSends_of_stack ordered stack
  have alive : connection.config.endpoint.state ≠ .kDisconnected := by
    intro gone
    rw [ordered.closed gone] at writing
    cases writing
  have open_side : connection.config.endpoint.writeShutdown = false := by
    apply ordered.open_of_not_shut
    intro shut
    rw [shut.quiet] at writing
    cases writing
  simp only [Answered, stack] at answered
  rcases OutputPath.handleWrite_spec ordered.sound.wellFormed (ordered.sound.interest alive)
    answered.1 answered.2 ctl with ⟨wellFormed, size, conserves, interest⟩
  rcases connection.config.endpoint.handleWrite_shutdown write ctl with ⟨state, shutAfter⟩
  have owed : (connection.advanced platform ctl (.handleWrite write) rest).owed =
      connection.owed := by
    simp only [advanced, shutsDown_of_stack stack (show Call.handleWrite write ≠ .shutdown by simp),
      Bool.false_eq_true, if_false]
  have kept := ordered.kept alive
  rw [stackBefore] at kept
  constructor
  · rw [handled]
    constructor
    · exact wellFormed
    · change (connection.config.endpoint.handleWrite write ctl).endpoint.outputBuffer.buffer.length
        ≤ 2 ^ 34
      rw [show (connection.config.endpoint.handleWrite write ctl).endpoint.outputBuffer.buffer =
        connection.config.endpoint.outputBuffer.buffer from size]
      exact ordered.sound.bounded
    · exact conserves.trans ordered.sound.conserves
    · intro _
      exact interest
  · intro gone
    exact absurd (state.symm.trans gone) alive
  · intro _ message
    rw [completed, handled, stackAfter]
    exact kept message
  · intro _ message
    rw [owed, completed]
    exact ordered.owing alive message
  · exact tail
  · intro shut
    change (connection.config.endpoint.handleWrite write ctl).endpoint.writeShutdown = true at shut
    rw [shutAfter, open_side, Bool.false_or] at shut
    cases write with
    | failed errno => cases shut
    | accepted count =>
        rcases (Bool.and_eq_true _ _).mp shut with ⟨drains, disconnecting⟩
        rw [beq_iff_eq] at disconnecting
        have nothing := inTime (by simp only [shutsWrite, stack]; exact shut)
        have quiet := connection.config.endpoint.handleWrite_quiet drains ctl
        have drained : (connection.config.endpoint.handleWrite (.accepted count)
            ctl).endpoint.outputBuffer.readable = [] := by
          by_contra queued
          have still := interest.mpr queued
          rw [quiet] at still
          cases still
        have closing : (connection.config.endpoint.handleWrite (.accepted count)
            ctl).endpoint.state = .kDisconnecting := state.trans disconnecting
        constructor
        · change (connection.config.endpoint.handleWrite (.accepted count) ctl).endpoint.state ≠
            _ ∧ (connection.config.endpoint.handleWrite (.accepted count) ctl).endpoint.state ≠ _
          rw [closing]
          simp
        · exact quiet
        · exact nothing
        · exact stackAfter
        · intro message
          have before := ordered.owing alive message
          have now := ordered.shut_now alive nothing stackBefore message
          rw [owed, handled]
          exact Nat.le_trans before now
        · have all := conserves.trans ordered.sound.conserves
          rw [drained, List.append_nil] at all
          rw [handled]
          exact all
  · simp only [advanced, open_side, Bool.false_and, Bool.or_false]
    exact ordered.punctual

theorem Ordered.rearrange (ordered : connection.Ordered) {config : Config}
    {loop : EventLoop OutputFunctor} (functors : List Functor)
    (endpoint : config.endpoint =
      { connection.config.endpoint with pendingFunctors := functors })
    (sends : ∀ message, (config.stack.filterMap Call.message).count message +
        (loop.waiting.filterMap OutputFunctor.message).count message =
      connection.stackSends.count message + connection.waitingSends.count message)
    (topmost : ∀ call ∈ config.stack.tail, call.message = none) :
    ({ connection with config := config, loop := loop } : SharedConnection).Ordered := by
  have state : config.endpoint.state = connection.config.endpoint.state := by rw [endpoint]
  have empty (none : connection.stackSends = [] ∧ connection.waitingSends = []) :
      config.stack.filterMap Call.message = [] ∧
        loop.waiting.filterMap OutputFunctor.message = [] := by
    have nothing (message : Bytes) :
        (config.stack.filterMap Call.message).count message = 0 ∧
          (loop.waiting.filterMap OutputFunctor.message).count message = 0 := by
      have here := sends message
      rw [none.1, none.2] at here
      simp only [List.count_nil] at here
      omega
    constructor
    · apply List.eq_nil_iff_forall_not_mem.mpr
      exact fun message => List.count_eq_zero.mp (nothing message).1
    · apply List.eq_nil_iff_forall_not_mem.mpr
      exact fun message => List.count_eq_zero.mp (nothing message).2
  constructor
  · exact sound_of_kept ordered.sound (by rw [endpoint]) (by rw [endpoint])
      fun alive => ⟨by rw [← state]; exact alive, by rw [endpoint]⟩
  · dsimp only
    rw [endpoint]
    exact ordered.closed
  · intro alive message
    have before := ordered.kept (by rw [← state]; exact alive) message
    have same := sends message
    simp only [stackSends, waitingSends] at before same ⊢
    omega
  · intro alive
    exact ordered.owing (by rw [← state]; exact alive)
  · exact topmost
  · dsimp only
    intro shut
    have before := ordered.shut (by rw [endpoint] at shut; exact shut)
    have none := empty ⟨before.stack, before.nothing.2⟩
    constructor
    · dsimp only
      rw [endpoint]
      exact before.state
    · dsimp only
      rw [endpoint]
      exact before.quiet
    · exact ⟨before.nothing.1, none.2⟩
    · exact none.1
    · exact before.written
    · dsimp only
      rw [endpoint]
      exact before.whole
  · exact ordered.punctual

theorem Ordered.pop (ordered : connection.Ordered) {call : Call} {rest : List Call}
    (stack : connection.config.stack = call :: rest) (silent : call.message = none) :
    ({ connection with config := { connection.config with stack := rest } } :
      SharedConnection).Ordered := by
  have topmost := ordered.topmost
  rw [stack] at topmost
  apply ordered.rearrange connection.config.endpoint.pendingFunctors
  · rfl
  · intro message
    have same : connection.stackSends = rest.filterMap Call.message := by
      rw [stackSends, stack, List.filterMap_cons_none silent]
    rw [same]
    rfl
  · intro below member
    exact topmost below (List.mem_of_mem_tail member)

theorem Ordered.noWrite (ordered : connection.Ordered) {write : WriteResult}
    {rest : List Call} (stack : connection.config.stack = .handleWrite write :: rest)
    (ctl : Bool) (quiet : connection.config.endpoint.channel.isWriting = false) :
    (connection.advanced platform ctl (.handleWrite write) rest).Ordered := by
  have nothing : connection.advanced platform ctl (.handleWrite write) rest =
      { connection with config := { connection.config with stack := rest } } := by
    simp [advanced, Config.advance, Endpoint.execute, Endpoint.handleWrite, quiet, sends,
      shutsDown, takes, SharedConnection.writes, stack]
  rw [nothing]
  exact ordered.pop stack rfl

theorem Ordered.advance (ordered : connection.Ordered) {ctl : Bool}
    (taken : connection.advance platform ctl = some next)
    (inTime : connection.shutsWrite = true → connection.NothingUnderWay)
    (answered : connection.Answered) : next.Ordered := by
  rcases advance_cases taken with ⟨call, rest, stack, rfl⟩
  cases call with
  | sendInLoop message write => exact ordered.send stack ctl answered
  | handleWrite write =>
      cases writing : connection.config.endpoint.channel.isWriting with
      | true => exact ordered.write stack ctl writing inTime answered
      | false => exact ordered.noWrite stack ctl writing
  | shutdown =>
      by_cases connected : connection.config.endpoint.state = .kConnected
      · exact ordered.shutdown_connected stack ctl connected inTime
      · exact ordered.shutdown_ignored stack ctl connected
  | _ => exact ordered.keep stack ctl rfl (by simp) (by simp)

/-! ## The other steps -/

theorem Ordered.stepConfig (ordered : connection.Ordered) {label : Label}
    (taken : connection.stepConfig platform label = some next)
    (runs : ∀ ctl, label ≠ .advance ctl)
    (sends : ∀ call, label = .enter call → call.message = none) : next.Ordered := by
  rcases Option.map_eq_some_iff.mp taken with ⟨config, moved, rfl⟩
  cases Config.step_moves moved with
  | enter call idle entry =>
      have none := sends call rfl
      apply Ordered.rearrange ordered connection.config.endpoint.pendingFunctors
      · rfl
      · intro message
        simp only [stackSends, List.filterMap_cons_none none]
        rfl
      · intro below member
        cases stack : connection.config.stack with
        | nil =>
            rw [stack] at member
            cases member
        | cons top rest =>
            rw [stack] at member
            rcases List.mem_cons.mp member with rfl | deeper
            · simp only [Config.isOpen, stack, beq_iff_eq] at idle
              rw [idle]
              rfl
            · have topmost := ordered.topmost
              rw [stack] at topmost
              exact topmost below deeper
  | advance ctl call rest stack running => exact absurd rfl (runs ctl)
  | leave rest stack => exact ordered.pop stack rfl
  | dispatch functor others stack =>
      have calls : functor.calls.filterMap Call.message = [] := by
        cases functor with
        | forceCloseInLoop => rfl
        | writeCompleteCallback => rfl
        | highWaterMarkCallback size => rfl
      apply Ordered.rearrange ordered others
      · rfl
      · intro message
        simp only [stackSends, stack, calls]
        rfl
      · intro call member
        cases functor with
        | forceCloseInLoop => cases member
        | writeCompleteCallback => cases member
        | highWaterMarkCallback size => cases member

theorem Ordered.setLoop (ordered : connection.Ordered) {loop : EventLoop OutputFunctor}
    (same : loop.waiting.filterMap OutputFunctor.message = connection.waitingSends) :
    ({ connection with loop := loop } : SharedConnection).Ordered := by
  apply Ordered.rearrange ordered connection.config.endpoint.pendingFunctors
  · rfl
  · intro message
    rw [same]
    rfl
  · exact ordered.topmost

theorem Ordered.call (ordered : connection.Ordered) {write : WriteResult}
    (taken : connection.step platform (.call write) = some next) : next.Ordered := by
  simp only [step] at taken
  split at taken
  · next idle =>
      split at taken
      · next called functor acted first =>
          cases EventLoop.acts_of_act acted with
          | call head functors phase =>
              simp only [EventLoop.nextFunctor, phase, Option.some.injEq] at first
              cases first
              have waiting := EventLoop.waiting_of_call phase
              have empty : connection.config.stack = [] := List.isEmpty_iff.mp idle
              cases functor with
              | other =>
                  cases taken
                  apply ordered.setLoop
                  rw [waitingSends, waiting]
                  rfl
              | sendInLoop message =>
                  rcases Option.map_eq_some_iff.mp taken with ⟨config, moved, rfl⟩
                  cases Config.step_moves moved with
                  | enter _ _ _ =>
                      apply ordered.rearrange connection.config.endpoint.pendingFunctors
                      · rfl
                      · intro other
                        have sends : connection.waitingSends = message ::
                            ({ connection.loop with phase := .calling functors } :
                              EventLoop OutputFunctor).waiting.filterMap
                              OutputFunctor.message := by
                          rw [waitingSends, waiting]
                          rfl
                        rw [sends]
                        simp only [stackSends, empty, List.count_cons]
                        simp [Call.message, List.count_cons]
                        omega
                      · intro below member
                        rw [empty] at member
                        cases member
      · cases taken
  · cases taken

theorem Ordered.testState (ordered : connection.Ordered) {message : Bytes}
    (connected : connection.config.endpoint.state = .kConnected) :
    ({ connection with sending := connection.sending ++ [message] } :
      SharedConnection).Ordered where
  sound := ordered.sound
  closed := ordered.closed
  kept := ordered.kept
  owing := ordered.owing
  topmost := ordered.topmost
  shut already := absurd connected (ordered.shut already).state.2
  punctual := ordered.punctual

theorem Ordered.post (ordered : connection.Ordered) {message : Bytes}
    (member : message ∈ connection.sending) :
    ({ connection with
      loop := connection.loop.queueInLoop (.sendInLoop message)
      sending := connection.sending.erase message
      completed := connection.completed ++ [message] } : SharedConnection).Ordered where
  sound := ordered.sound
  closed := ordered.closed
  kept alive other := by
    have before := ordered.kept alive other
    simp only [waitingSends] at before
    simp only [stackSends, waitingSends, EventLoop.waiting_queueInLoop, List.filterMap_append,
      List.count_append] at before ⊢
    change _ + List.count other [message] ≤ _ + _ + (_ + List.count other [message])
    omega
  owing alive other := by
    have before := ordered.owing alive other
    simp only [List.count_append]
    omega
  topmost := ordered.topmost
  shut already := by
    have nothing := (ordered.shut already).nothing.1
    rw [nothing] at member
    cases member
  punctual := ordered.punctual

/-- Every step that meets the condition keeps the order. -/
theorem step_ordered {label : SharedLabel} (ordered : connection.Ordered)
    (condition : connection.ShutsInTime label)
    (taken : (sharedMachine platform).Step connection label next) : next.Ordered := by
  change connection.step platform label = some next at taken
  cases label with
  | act action =>
      simp only [step] at taken
      split at taken
      · next free =>
          rcases Option.map_eq_some_iff.mp taken with ⟨loop, acted, rfl⟩
          simp only [Bool.and_eq_true, bne_iff_ne] at free
          apply ordered.setLoop
          rw [(EventLoop.acts_of_act acted).waiting free.2]
          rfl
      · cases taken
  | call write => exact ordered.call taken
  | enter call =>
      simp only [step] at taken
      split at taken
      · next allowed =>
          simp only [Bool.and_eq_true] at allowed
          apply ordered.stepConfig taken
          · simp
          · intro entered same
            cases same
            cases call with
            | sendInLoop message write => cases allowed.1
            | _ => rfl
      · cases taken
  | event revents read write =>
      simp only [step] at taken
      split at taken
      · apply ordered.stepConfig taken
        · simp
        · intro entered same
          cases same
          rfl
      · cases taken
  | dispatch =>
      simp only [step] at taken
      split at taken
      · exact ordered.stepConfig taken (by simp) (by simp)
      · cases taken
  | advance ctl => exact ordered.advance taken condition.1 condition.2
  | leave => exact ordered.stepConfig taken (by simp) (by simp)
  | testState message =>
      simp only [step] at taken
      split at taken
      · next connected =>
          cases taken
          exact ordered.testState connected
      · cases taken
        exact ordered
  | post message =>
      simp only [step] at taken
      split at taken
      · next member =>
          cases taken
          exact ordered.post (List.contains_iff_mem.mp member)
      · cases taken
  | queueOther =>
      cases taken
      apply ordered.setLoop
      rw [EventLoop.waiting_queueInLoop, List.filterMap_append]
      exact List.append_nil _
  | quit =>
      cases taken
      exact ordered.setLoop rfl

end SharedConnection

open SharedConnection in
/-- In every run in which the write side is shut only when no message is under way, what was
sent before `shutdown` is written before the write side is shut, and nothing later. -/
theorem shutdown_behind_messages {platform : Platform} {address : Nat} {fd : Int}
    {poller : EPollPoller} {writeComplete highWaterMark : Bool} {labels : List SharedLabel}
    {connection : SharedConnection}
    (transitions : ((sharedMachine platform).restrict ShutsInTime).Transitions
      (SharedConnection.create (.create address fd poller writeComplete highWaterMark)) labels
      connection) : connection.ClosesInOrder := by
  have ordered : connection.Ordered := by
    apply transitions.invariant
    · intro before label after ordered taken
      exact step_ordered ordered taken.2 taken.1
    · apply create_ordered
      · exact ⟨rfl, by simp [Endpoint.create, Channel.create, Channel.isWriting, Events.has], rfl⟩
      · rfl
  exact ordered.closesInOrder

/-- A worker's message of two bytes is written in two parts; `shutdown` comes in between, and
the write that drains the output shuts the write side. -/
theorem shutdown_behind_messages_drained : ∃ connection : SharedConnection,
    connection.config.endpoint.writeShutdown = true ∧ connection.owed = [[1, 2]] ∧
      connection.ClosesInOrder := by
  have facts : (Machine.runPartial (fun connection label =>
      if connection.ShutsInTime label then SharedConnection.step connection .posix label
      else none)
      (SharedConnection.create (.create 1 5 .empty false false))
      [.act .enter, .act .test, .enter .connectEstablished, .advance true, .leave,
        .testState [1, 2], .post [1, 2], .act .handle, .act .swap, .call (.accepted 1),
        .advance true, .act .back, .act .finish, .enter .shutdown, .advance true, .act .frame,
        .act .test, .event XPOLLOUT (.received []) (.accepted 1), .advance true,
        .advance true]).map
        (fun connection => (connection.config.endpoint.writeShutdown, connection.owed)) =
      some (true, [[1, 2]]) := by decide +kernel
  rcases Option.map_eq_some_iff.mp facts with ⟨connection, ran, facts⟩
  simp only [Prod.mk.injEq] at facts
  apply Exists.intro connection
  constructor
  · exact facts.1
  · exact ⟨facts.2, shutdown_behind_messages (Machine.transitions_of_checked_run ran)⟩

/-- A worker's message is still in the queue of the loop when `shutdown` shuts the write
side at once. -/
theorem queued_message_overtaken_by_shutdown :
    ¬ ∀ (platform : Platform) (address : Nat) (fd : Int) (poller : EPollPoller)
      (writeComplete highWaterMark : Bool) (labels : List SharedLabel)
      (connection : SharedConnection),
      (sharedMachine platform).Transitions
        (SharedConnection.create (.create address fd poller writeComplete highWaterMark)) labels
        connection → connection.ClosesInOrder := by
  intro law
  have facts : (Machine.runPartial (fun connection label =>
      SharedConnection.step connection .posix label)
      (SharedConnection.create (.create 1 5 .empty false false))
      [.act .enter, .act .test, .enter .connectEstablished, .advance true, .leave,
        .testState [1], .post [1], .enter .shutdown, .advance true]).map
        (fun connection => (connection.config.endpoint.writeShutdown, connection.owed,
          connection.handled)) =
      some (true, [[1]], []) := by decide +kernel
  rcases Option.map_eq_some_iff.mp facts with ⟨connection, ran, facts⟩
  simp only [Prod.mk.injEq] at facts
  have inOrder := law .posix 1 5 .empty false false _ connection
    (Machine.transitions_of_runPartial ran)
  have taken := (inOrder.1 facts.1).1 [1]
  rw [facts.2.1, facts.2.2] at taken
  revert taken
  decide

end MyBookSources.Net
