import MyBookSources.Net.TcpConnection

/-! # What the calls do to the output

Which calls leave the output of a connection alone, which write to the socket,
which shut its write side, and which hand over to `sendInLoop`.
-/

namespace MyBookSources.Net

/-- The message of a `sendInLoop`. -/
def Call.message : Call → Option Bytes
  | .sendInLoop message _ => some message
  | _ => none

namespace StateE

def Goes (before after : StateE) : Prop :=
  after = before ∨ before = .kConnecting ∧ after = .kConnected ∨
    before = .kConnected ∧ after = .kDisconnecting

theorem Goes.closed {before after : StateE} (goes : before.Goes after)
    (gone : after = .kDisconnected) : before = .kDisconnected := by
  rcases goes with same | opens | closes
  · exact same.symm.trans gone
  · rw [opens.2] at gone
    cases gone
  · rw [closes.2] at gone
    cases gone

theorem Goes.alive {before after : StateE} (goes : before.Goes after)
    (alive : after ≠ .kDisconnected) : before ≠ .kDisconnected := by
  rcases goes with same | opens | closes
  · rw [← same]
    exact alive
  · simp [opens.1]
  · simp [closes.1]

theorem Goes.closing {before after : StateE} (goes : before.Goes after)
    (closing : before ≠ .kConnecting ∧ before ≠ .kConnected) : after = before := by
  rcases goes with same | opens | closes
  · exact same
  · exact absurd opens.1 closing.1
  · exact absurd closes.1 closing.2

end StateE

namespace Endpoint

structure KeepsOutput (before after : Endpoint) : Prop where
  outputBuffer : after.outputBuffer = before.outputBuffer
  accepted : after.accepted = before.accepted
  writeShutdown : after.writeShutdown = before.writeShutdown
  place : after.channel.isWriting = before.channel.isWriting ∧
      before.state.Goes after.state ∨
    after.channel.isWriting = false ∧ after.state = .kDisconnected

variable (endpoint : Endpoint)

theorem keepsOutput_refl : endpoint.KeepsOutput endpoint := ⟨rfl, rfl, rfl, .inl ⟨rfl, .inl rfl⟩⟩

theorem removeChannel_keepsOutput (ctl : Bool) :
    endpoint.KeepsOutput (endpoint.removeChannel ctl) := by
  unfold removeChannel
  split
  · exact endpoint.keepsOutput_refl
  · refine ⟨rfl, rfl, rfl, .inl ⟨?_, .inl rfl⟩⟩
    simp only [EPollPoller.removeChannel]
    split
    · rfl
    · split
      · rfl
      · rfl

theorem connectEstablished_keepsOutput (ctl : Bool) :
    endpoint.KeepsOutput (endpoint.connectEstablished ctl).endpoint := by
  have enabled : endpoint.KeepsOutput ((endpoint.setState .kConnected).enableReading ctl).2 ∨
      endpoint.state ≠ .kConnecting := by
    by_cases connecting : endpoint.state = .kConnecting
    · refine .inl ⟨rfl, rfl, rfl, .inl ⟨?_, .inr (.inl ⟨connecting, rfl⟩)⟩⟩
      simp [enableReading, setState]
    · exact .inr connecting
  unfold connectEstablished
  split
  · exact endpoint.keepsOutput_refl
  · next connecting =>
      have kept := enabled.resolve_right connecting
      dsimp only
      split
      · exact kept
      · exact kept

theorem disableAll_keepsOutput (ctl : Bool) :
    endpoint.KeepsOutput ((endpoint.setState .kDisconnected).disableAll ctl).2 := by
  refine ⟨rfl, rfl, rfl, .inr ⟨?_, rfl⟩⟩
  simp [disableAll]

theorem execute_keepsOutput (platform : Platform) (ctl : Bool) {call : Call}
    (sends : call.message = none) (writes : ∀ write, call ≠ .handleWrite write)
    (shuts : call ≠ .shutdown) :
    endpoint.KeepsOutput (endpoint.execute platform ctl call).endpoint := by
  cases call with
  | connectEstablished => exact endpoint.connectEstablished_keepsOutput ctl
  | connectDestroyed =>
      simp only [execute, connectDestroyed]
      split
      · exact endpoint.disableAll_keepsOutput ctl
      · exact endpoint.keepsOutput_refl
  | handleEvent revents read write => exact ⟨rfl, rfl, rfl, .inl ⟨rfl, .inl rfl⟩⟩
  | handleRead read =>
      simp only [execute, handleRead]
      split
      · exact ⟨rfl, rfl, rfl, .inl ⟨rfl, .inl rfl⟩⟩
      · split
        · exact ⟨rfl, rfl, rfl, .inl ⟨rfl, .inl rfl⟩⟩
        · exact ⟨rfl, rfl, rfl, .inl ⟨rfl, .inl rfl⟩⟩
  | handleWrite write => exact absurd rfl (writes write)
  | handleClose =>
      simp only [execute, handleClose]
      split
      · exact endpoint.keepsOutput_refl
      · exact endpoint.disableAll_keepsOutput ctl
  | sendInLoop message write => cases sends
  | shutdown => exact absurd rfl shuts
  | forceClose =>
      simp only [execute, forceClose]
      split
      · next live =>
          refine ⟨rfl, rfl, rfl, .inl ⟨rfl, ?_⟩⟩
          rcases live with connected | disconnecting
          · exact .inr (.inr ⟨connected, rfl⟩)
          · exact .inl disconnecting.symm
      · exact endpoint.keepsOutput_refl
  | removeChannel => exact endpoint.removeChannel_keepsOutput ctl
  | handleError => exact endpoint.keepsOutput_refl
  | send message write => exact endpoint.keepsOutput_refl
  | forceCloseInLoop => exact endpoint.keepsOutput_refl
  | retrieveInput len => exact ⟨rfl, rfl, rfl, .inl ⟨rfl, .inl rfl⟩⟩
  | closeCallback => exact endpoint.keepsOutput_refl
  | userCode => exact endpoint.keepsOutput_refl

theorem shutdown_eq : endpoint.shutdown =
    if endpoint.state = .kConnected then
      { endpoint with
        state := .kDisconnecting
        writeShutdown := endpoint.writeShutdown || !endpoint.channel.isWriting }
    else endpoint := by
  unfold shutdown
  split
  · cases writing : endpoint.channel.isWriting with
    | true => simp [shutdownInLoop, setState, writing]
    | false => simp [shutdownInLoop, setState, writing]
  · rfl

def drains (count : Nat) : Bool :=
  endpoint.channel.isWriting && count != 0 &&
    (endpoint.retrieveOutput count).outputBuffer.readableBytes == 0

theorem outputDrained_shutdown (ctl : Bool) :
    (endpoint.outputDrained ctl).state = endpoint.state ∧
      (endpoint.outputDrained ctl).writeShutdown =
        (endpoint.writeShutdown || endpoint.state == .kDisconnecting) := by
  unfold outputDrained
  rcases (endpoint.disableWriting ctl).2.postWriteComplete_eq with ⟨functors, posted⟩
  rw [posted]
  have quiet : (endpoint.disableWriting ctl).2.channel.isWriting = false := by
    simp [disableWriting]
  dsimp only
  split
  · next disconnecting =>
      have state : endpoint.state = .kDisconnecting := disconnecting
      simp only [shutdownInLoop, quiet, state]
      exact ⟨state, by simp⟩
  · next other =>
      have state : endpoint.state ≠ .kDisconnecting := other
      constructor
      · rfl
      · rw [beq_eq_false_iff_ne.mpr state, Bool.or_false]
        rfl

/-- `handleWrite` shuts the write side when it drains the output of a connection that is
disconnecting. -/
theorem handleWrite_shutdown (write : WriteResult) (ctl : Bool) :
    (endpoint.handleWrite write ctl).endpoint.state = endpoint.state ∧
      (endpoint.handleWrite write ctl).endpoint.writeShutdown =
        (endpoint.writeShutdown || match write with
          | .accepted count => endpoint.drains count && endpoint.state == .kDisconnecting
          | .failed _ => false) := by
  unfold handleWrite
  cases writing : endpoint.channel.isWriting with
  | false => cases write <;> simp [drains, writing]
  | true =>
      cases write with
      | failed errno => simp
      | accepted count =>
          by_cases nothing : count = 0
          · simp [nothing, drains]
          · by_cases empty : (endpoint.retrieveOutput count).outputBuffer.readableBytes = 0
            · have drained := (endpoint.retrieveOutput count).outputDrained_shutdown ctl
              have drains : endpoint.drains count = true := by
                simp [drains, writing, nothing, empty]
              simp only [nothing, empty, drains, Bool.true_and, if_true, if_false]
              exact drained
            · have drains : endpoint.drains count = false := by simp [drains, empty]
              simp only [nothing, empty, drains, Bool.false_and, Bool.or_false, if_false]
              exact ⟨rfl, rfl⟩

theorem handleWrite_quiet {count : Nat} (drains : endpoint.drains count = true) (ctl : Bool) :
    (endpoint.handleWrite (.accepted count) ctl).endpoint.channel.isWriting = false := by
  simp only [Endpoint.drains, Bool.and_eq_true, bne_iff_ne, beq_iff_eq] at drains
  rcases drains with ⟨⟨writing, some⟩, empty⟩
  rcases (endpoint.retrieveOutput count).outputDrained_eq ctl with ⟨functors, shut, drained⟩
  simp only [handleWrite, writing, some, empty, drained, if_true, if_false]
  simp [disableWriting]

theorem handleWrite_calls (write : WriteResult) (ctl : Bool) :
    (endpoint.handleWrite write ctl).calls = [] ∨
      (endpoint.handleWrite write ctl).calls = [.handleClose] := by
  unfold handleWrite
  split
  · exact .inl rfl
  · cases write with
    | failed errno => exact .inr rfl
    | accepted count =>
        dsimp only
        split
        · exact .inr rfl
        · split
          · exact .inl rfl
          · exact .inl rfl

theorem queueOutput_place (data : Bytes) (progress : WriteProgress) (ctl : Bool) :
    (endpoint.queueOutput data progress ctl).state = endpoint.state ∧
      (endpoint.queueOutput data progress ctl).writeShutdown = endpoint.writeShutdown := by
  unfold queueOutput
  split
  · exact ⟨rfl, rfl⟩
  · split
    · rcases endpoint.warnHighWater_eq progress.remaining with ⟨functors, warned⟩
      dsimp only
      rw [warned]
      unfold ensureWriting
      split
      · exact ⟨rfl, rfl⟩
      · exact ⟨rfl, rfl⟩
    · exact ⟨rfl, rfl⟩

theorem writeDirectly_place (data : Bytes) (write : WriteResult) :
    (endpoint.writeDirectly data write).1.state = endpoint.state ∧
      (endpoint.writeDirectly data write).1.writeShutdown = endpoint.writeShutdown := by
  cases write with
  | failed errno => exact ⟨rfl, rfl⟩
  | accepted count =>
      simp only [writeDirectly]
      split
      · unfold postWriteComplete
        split
        · exact ⟨rfl, rfl⟩
        · exact ⟨rfl, rfl⟩
      · exact ⟨rfl, rfl⟩

theorem sendInLoop_place (data : Bytes) (write : WriteResult) (ctl : Bool) :
    (endpoint.sendInLoop data write ctl).state = endpoint.state ∧
      (endpoint.sendInLoop data write ctl).writeShutdown = endpoint.writeShutdown := by
  unfold sendInLoop
  split
  · exact ⟨rfl, rfl⟩
  · dsimp only
    split
    · rcases endpoint.writeDirectly_place data write with ⟨state, shut⟩
      rcases (endpoint.writeDirectly data write).1.queueOutput_place data
        (endpoint.writeDirectly data write).2 ctl with ⟨queuedState, queuedShut⟩
      exact ⟨queuedState.trans state, queuedShut.trans shut⟩
    · exact endpoint.queueOutput_place data _ ctl

theorem execute_message (platform : Platform) (ctl : Bool) {call : Call}
    (other : ∀ message write, call ≠ .send message write) :
    ∀ next ∈ (endpoint.execute platform ctl call).calls, next.message = none := by
  intro next member
  cases call with
  | send message write => exact absurd rfl (other message write)
  | connectEstablished =>
      simp only [execute, connectEstablished, connectionCallback] at member
      split at member
      · cases member
      · split at member
        · rw [List.mem_singleton.mp member]
          rfl
        · rw [List.mem_singleton.mp member]
          rfl
  | connectDestroyed =>
      simp only [execute, connectDestroyed, connectionCallback] at member
      split at member
      · simp only [List.mem_cons, List.not_mem_nil, or_false] at member
        rcases member with rfl | rfl
        · rfl
        · rfl
      · rw [List.mem_singleton.mp member]
        rfl
  | handleEvent revents read write =>
      simp only [execute, handleEventWithGuard, List.mem_append] at member
      rcases member with ((closes | fails) | reads) | writes
      · split at closes
        · rw [List.mem_singleton.mp closes]
          rfl
        · cases closes
      · split at fails
        · rw [List.mem_singleton.mp fails]
          rfl
        · cases fails
      · split at reads
        · rw [List.mem_singleton.mp reads]
          rfl
        · cases reads
      · split at writes
        · rw [List.mem_singleton.mp writes]
          rfl
        · cases writes
  | handleRead read =>
      simp only [execute, handleRead] at member
      split at member
      · rw [List.mem_singleton.mp member]
        rfl
      · split at member
        · rw [List.mem_singleton.mp member]
          rfl
        · rw [List.mem_singleton.mp member]
          rfl
  | handleWrite write =>
      rcases endpoint.handleWrite_calls write ctl with calls | calls
      · rw [show (endpoint.execute platform ctl (.handleWrite write)).calls = [] from calls]
          at member
        cases member
      · rw [show (endpoint.execute platform ctl (.handleWrite write)).calls = [.handleClose]
          from calls] at member
        rw [List.mem_singleton.mp member]
        rfl
  | handleClose =>
      simp only [execute, handleClose, connectionCallback] at member
      split at member
      · cases member
      · simp only [List.mem_cons, List.not_mem_nil, or_false] at member
        rcases member with rfl | rfl
        · rfl
        · rfl
  | forceCloseInLoop =>
      simp only [execute, forceCloseInLoop] at member
      split at member
      · rw [List.mem_singleton.mp member]
        rfl
      · cases member
  | handleError =>
      rw [List.mem_singleton.mp member]
      rfl
  | closeCallback =>
      rw [List.mem_singleton.mp member]
      rfl
  | sendInLoop message write => cases member
  | shutdown => cases member
  | forceClose => cases member
  | retrieveInput len => cases member
  | removeChannel => cases member
  | userCode => cases member

end Endpoint

end MyBookSources.Net
