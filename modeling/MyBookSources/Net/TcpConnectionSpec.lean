import MyBookSources.Net.TcpConnection

/-! # What a call on a connection can do

One inversion of `Endpoint.execute` for all later invariants: the states, the
callbacks, the calls handed over and what becomes of the channel and the poller.
-/

namespace MyBookSources.Net.Endpoint

structure KeepsChannel (before after : Endpoint) : Prop where
  channel : after.channel = before.channel
  poller : after.poller = before.poller

/-- The poller is updated for the channel `changed`. -/
structure Updates (before : Endpoint) (changed : Channel) (ctl : Bool) (after : Endpoint) :
    Prop where
  channel : after.channel = (before.poller.updateChannel changed ctl).channel
  poller : after.poller = (before.poller.updateChannel changed ctl).poller

inductive HandsOver (before : Endpoint) : Call → Prop
  | handleClose : HandsOver before .handleClose
  | handleError : HandsOver before .handleError
  | removeChannel : before.state ≠ .kConnected → HandsOver before .removeChannel
  | sendInLoop (message : Bytes) (write : WriteResult) :
      before.state = .kConnected → HandsOver before (.sendInLoop message write)

inductive Change (before : Endpoint) (ctl : Bool) : Call → Outcome → Prop
  /-- The handlers for `revents` are lined up. -/
  | event (revents : Events) (read : ReadResult) (write : WriteResult) :
      Change before ctl (.handleEvent revents read write)
        ⟨{ before with channel := { before.channel with revents := revents } }, [],
          handleEventWithGuard revents read write⟩
  /-- Bytes were received and are shown to the message callback. -/
  | message (data : Bytes) (after : Endpoint) :
      before.KeepsChannel after → after.state = before.state →
      Change before ctl (.handleRead (.received data))
        ⟨after, [.messageCallback after.inputBuffer], [.userCode]⟩
  /-- No callback runs and the channel stays; `shutdown` and `forceClose` leave the
  connected state. A close is quiet only when there is nothing left to close. -/
  | quiet (call : Call) (after : Endpoint) (calls : List Call) :
      before.KeepsChannel after →
      (after.state = before.state ∨
        before.state = .kConnected ∧ after.state = .kDisconnecting) →
      (∀ next ∈ calls, before.HandsOver next) →
      (call = .handleClose → before.state = .kDisconnected) →
      Change before ctl call ⟨after, [], calls⟩
  /-- Output is queued and write interest turned on. -/
  | queued (message : Bytes) (write : WriteResult) (after : Endpoint) :
      before.Updates before.channel.withWriting ctl after → after.state = before.state →
      before.state ≠ .kDisconnected →
      Change before ctl (.sendInLoop message write) ⟨after, [], []⟩
  /-- The output buffer has run empty and write interest is turned off. -/
  | drained (write : WriteResult) (after : Endpoint) :
      before.channel.isWriting = true →
      before.Updates before.channel.withoutWriting ctl after → after.state = before.state →
      Change before ctl (.handleWrite write) ⟨after, [], []⟩
  | removed :
      Change before ctl .removeChannel ⟨before.removeChannel ctl, [], []⟩
  | opened (after : Endpoint) :
      before.state = .kConnecting → after.state = .kConnected →
      before.Updates before.channel.withReading ctl after →
      (before.poller.updateChannel before.channel.withReading ctl).answer = true →
      Change before ctl .connectEstablished
        ⟨after, [.connectionCallback true], [.userCode]⟩
  | openingFailed (after : Endpoint) :
      before.state = .kConnecting → after.state = .kConnected →
      before.Updates before.channel.withReading ctl after →
      Change before ctl .connectEstablished ⟨after, [], [.handleClose]⟩
  | closed (call : Call) (after : Endpoint) (last : Call) :
      before.state ≠ .kDisconnected → after.state = .kDisconnected →
      before.Updates before.channel.withoutAll ctl after →
      (call = .handleClose ∧ last = .closeCallback ∨
        call = .connectDestroyed ∧ last = .removeChannel ∧ before.state = .kConnected) →
      Change before ctl call
        ⟨after, [.connectionCallback false], [.userCode, last]⟩
  | closeDelivered :
      Change before ctl .closeCallback ⟨before, [.closeCallback], [.userCode]⟩

variable (endpoint : Endpoint)

theorem KeepsChannel.refl : endpoint.KeepsChannel endpoint := ⟨rfl, rfl⟩

private theorem quiet_self (ctl : Bool) (call : Call) {calls : List Call}
    (handed : ∀ next ∈ calls, endpoint.HandsOver next) (other : call ≠ .handleClose) :
    endpoint.Change ctl call ⟨endpoint, [], calls⟩ :=
  .quiet call endpoint calls (KeepsChannel.refl endpoint) (.inl rfl) handed
    fun same => absurd same other

private theorem handsOver_handleClose :
    ∀ next ∈ [Call.handleClose], endpoint.HandsOver next := by
  intro next member
  rw [List.mem_singleton] at member
  rw [member]
  exact .handleClose

private theorem connectEstablished_change (ctl : Bool) :
    endpoint.Change ctl .connectEstablished (endpoint.connectEstablished ctl) := by
  unfold connectEstablished
  split
  · exact quiet_self endpoint ctl _ (by simp) (by simp)
  · next connecting =>
    rw [not_not] at connecting
    dsimp only
    split
    · exact .openingFailed _ connecting rfl ⟨rfl, rfl⟩
    · next enabled =>
      exact .opened _ connecting rfl ⟨rfl, rfl⟩ ((Bool.not_eq_false _).mp enabled)

private theorem connectDestroyed_change (ctl : Bool) :
    endpoint.Change ctl .connectDestroyed (endpoint.connectDestroyed ctl) := by
  unfold connectDestroyed
  split
  · next connected =>
    exact .closed _ _ _ (by simp [connected]) rfl ⟨rfl, rfl⟩ (.inr ⟨rfl, rfl, connected⟩)
  · next other =>
    refine quiet_self endpoint ctl _ (fun next member => ?_) (by simp)
    rw [List.mem_singleton] at member
    rw [member]
    exact .removeChannel other

private theorem handleClose_change (ctl : Bool) :
    endpoint.Change ctl .handleClose (endpoint.handleClose ctl) := by
  unfold handleClose
  split
  · next gone =>
    exact .quiet _ _ _ (KeepsChannel.refl endpoint) (.inl rfl) (by simp) fun _ => gone
  · next alive =>
    exact .closed _ _ _ alive rfl ⟨rfl, rfl⟩ (.inl ⟨rfl, rfl⟩)

private theorem handleRead_change (platform : Platform) (ctl : Bool) (read : ReadResult) :
    endpoint.Change ctl (.handleRead read) (endpoint.handleRead platform read) := by
  have count := endpoint.inputBuffer.readFd_count platform read
  unfold handleRead
  dsimp only
  rw [count]
  split
  · next some =>
    cases read with
    | received data => exact .message data _ ⟨rfl, rfl⟩ rfl
    | endOfStream => cases some
    | failed errno => cases some
  · split
    · exact .quiet _ _ _ ⟨rfl, rfl⟩ (.inl rfl) (handsOver_handleClose endpoint) (by simp)
    · refine .quiet _ _ _ ⟨rfl, rfl⟩ (.inl rfl) (fun next member => ?_) (by simp)
      rw [List.mem_singleton] at member
      rw [member]
      exact .handleError

private theorem handleWrite_change (ctl : Bool) (write : WriteResult) :
    endpoint.Change ctl (.handleWrite write) (endpoint.handleWrite write ctl) := by
  unfold handleWrite
  split
  · exact quiet_self endpoint ctl _ (by simp) (by simp)
  · next writing =>
    cases write with
    | failed errno => exact quiet_self endpoint ctl _ (handsOver_handleClose endpoint) (by simp)
    | accepted count =>
        dsimp only
        split
        · exact quiet_self endpoint ctl _ (handsOver_handleClose endpoint) (by simp)
        · split
          · rcases (endpoint.retrieveOutput count).outputDrained_eq ctl with
              ⟨functors, shut, drained⟩
            rw [drained]
            exact .drained _ _ ((Bool.not_eq_false _).mp writing) ⟨rfl, rfl⟩ rfl
          · exact .quiet _ _ _ ⟨rfl, rfl⟩ (.inl rfl) (by simp) (by simp)

private theorem queueOutput_change (data : Bytes) (progress : WriteProgress) (ctl : Bool) :
    (endpoint.queueOutput data progress ctl).state = endpoint.state ∧
      (endpoint.KeepsChannel (endpoint.queueOutput data progress ctl) ∨
        endpoint.Updates endpoint.channel.withWriting ctl
          (endpoint.queueOutput data progress ctl)) := by
  unfold queueOutput
  split
  · exact ⟨rfl, .inl (KeepsChannel.refl endpoint)⟩
  · split
    · rcases endpoint.warnHighWater_eq progress.remaining with ⟨functors, warned⟩
      rw [warned]
      unfold ensureWriting
      dsimp only
      split
      · exact ⟨rfl, .inl ⟨rfl, rfl⟩⟩
      · exact ⟨rfl, .inr ⟨rfl, rfl⟩⟩
    · exact ⟨rfl, .inl (KeepsChannel.refl endpoint)⟩

private theorem writeDirectly_keeps (data : Bytes) (write : WriteResult) :
    endpoint.KeepsChannel (endpoint.writeDirectly data write).1 ∧
      (endpoint.writeDirectly data write).1.state = endpoint.state := by
  cases write with
  | failed errno => exact ⟨⟨rfl, rfl⟩, rfl⟩
  | accepted count =>
      rcases postWriteComplete_eq
        { endpoint with accepted := endpoint.accepted ++ data.take count } with ⟨functors, posted⟩
      simp only [writeDirectly, posted]
      split
      · exact ⟨⟨rfl, rfl⟩, rfl⟩
      · exact ⟨⟨rfl, rfl⟩, rfl⟩

private theorem sendInLoop_change (message : Bytes) (write : WriteResult) (ctl : Bool) :
    endpoint.Change ctl (.sendInLoop message write)
      ⟨endpoint.sendInLoop message write ctl, [], []⟩ := by
  unfold sendInLoop
  split
  · exact quiet_self endpoint ctl _ (by simp) (by simp)
  · next alive =>
    dsimp only
    generalize triedEq : (if endpoint.channel.isWriting = false ∧
        endpoint.outputBuffer.readableBytes = 0 then endpoint.writeDirectly message write
      else (endpoint, ⟨0, message.length, false⟩)) = tried
    have kept : endpoint.KeepsChannel tried.1 ∧ tried.1.state = endpoint.state := by
      rw [← triedEq]
      split
      · exact writeDirectly_keeps endpoint message write
      · exact ⟨KeepsChannel.refl endpoint, rfl⟩
    rcases kept with ⟨⟨channel, poller⟩, state⟩
    rcases queueOutput_change tried.1 message tried.2 ctl with ⟨queuedState, queued⟩
    rcases queued with same | updated
    · exact .quiet _ _ _ ⟨by rw [same.channel, channel], by rw [same.poller, poller]⟩
        (.inl (by rw [queuedState, state])) (by simp) (by simp)
    · refine .queued _ _ _ ?_ (by rw [queuedState, state]) alive
      exact ⟨by rw [updated.channel, channel, poller], by rw [updated.poller, channel, poller]⟩

private theorem shutdown_change (ctl : Bool) :
    endpoint.Change ctl .shutdown ⟨endpoint.shutdown, [], []⟩ := by
  unfold shutdown
  split
  · next connected =>
    rcases (endpoint.setState .kDisconnecting).shutdownInLoop_eq with ⟨shut, closed⟩
    rw [closed]
    exact .quiet _ _ _ ⟨rfl, rfl⟩ (.inr ⟨connected, rfl⟩) (by simp) (by simp)
  · exact quiet_self endpoint ctl _ (by simp) (by simp)

private theorem forceClose_change (ctl : Bool) :
    endpoint.Change ctl .forceClose ⟨endpoint.forceClose, [], []⟩ := by
  unfold forceClose
  split
  · next closable =>
    refine .quiet _ _ _ ⟨rfl, rfl⟩ ?_ (by simp) (by simp)
    rcases closable with connected | disconnecting
    · exact .inr ⟨connected, rfl⟩
    · exact .inl disconnecting.symm
  · exact quiet_self endpoint ctl _ (by simp) (by simp)

theorem execute_change (platform : Platform) (ctl : Bool) (call : Call) :
    endpoint.Change ctl call (endpoint.execute platform ctl call) := by
  cases call with
  | connectEstablished => exact connectEstablished_change endpoint ctl
  | connectDestroyed => exact connectDestroyed_change endpoint ctl
  | handleEvent revents read write => exact .event revents read write
  | handleRead read => exact handleRead_change endpoint platform ctl read
  | handleWrite write => exact handleWrite_change endpoint ctl write
  | handleClose => exact handleClose_change endpoint ctl
  | handleError => exact quiet_self endpoint ctl _ (handsOver_handleClose endpoint) (by simp)
  | send message write =>
      refine quiet_self endpoint ctl _ (fun next member => ?_) (by simp)
      unfold send at member
      split at member
      · next connected =>
        rw [List.mem_singleton] at member
        rw [member]
        exact .sendInLoop message write connected
      · cases member
  | sendInLoop message write => exact sendInLoop_change endpoint message write ctl
  | shutdown => exact shutdown_change endpoint ctl
  | forceClose => exact forceClose_change endpoint ctl
  | forceCloseInLoop =>
      refine quiet_self endpoint ctl _ (fun next member => ?_) (by simp)
      unfold forceCloseInLoop at member
      split at member
      · exact handsOver_handleClose endpoint next member
      · cases member
  | retrieveInput len => exact .quiet _ _ _ ⟨rfl, rfl⟩ (.inl rfl) (by simp) (by simp)
  | removeChannel => exact .removed
  | closeCallback => exact .closeDelivered
  | userCode => exact quiet_self endpoint ctl _ (by simp) (by simp)

end MyBookSources.Net.Endpoint
