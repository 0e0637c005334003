import MyBookSources.Net.Buffer
import MyBookSources.Net.EPollPoller

/-! # TCP connections

`net::TcpConnection` with the channel, the poller and the kernel it drives. A
member function that ends in a callback or in another member function hands that
call back in `Outcome.calls`, innermost first, so that whatever the callback does
can be placed between the two. Answers of the kernel are arguments.
-/

namespace MyBookSources.Net

inductive StateE
  | kDisconnected
  | kConnecting
  | kConnected
  | kDisconnecting
  deriving DecidableEq

/-- A callback that ran. The connection callback is recorded with the value of
`connected()`, the message callback with the buffer it was given. -/
inductive Callback
  | connectionCallback (connected : Bool)
  | messageCallback (inputBuffer : Buffer)
  | closeCallback
  deriving DecidableEq

/-- What `queueInLoop` posts to the loop. -/
inductive Functor
  | forceCloseInLoop
  | writeCompleteCallback
  | highWaterMarkCallback (size : Nat)
  deriving DecidableEq

/-- A call on the loop thread that is still to run. Handlers carry what `readFd`
and `write` will answer them; `userCode` is the body of a callback. -/
inductive Call
  | connectEstablished
  | connectDestroyed
  | handleEvent (revents : Events) (read : ReadResult) (write : WriteResult)
  | handleRead (read : ReadResult)
  | handleWrite (write : WriteResult)
  | handleClose
  | handleError
  | send (message : Bytes) (write : WriteResult)
  | sendInLoop (message : Bytes) (write : WriteResult)
  | shutdown
  | forceClose
  | forceCloseInLoop
  | retrieveInput (len : Nat)
  | removeChannel
  | closeCallback
  | userCode
  deriving DecidableEq

structure TcpConnection where
  state : StateE
  channel : Channel
  writeCompleteCallback : Bool
  highWaterMarkCallback : Bool
  highWaterMark : Nat
  inputBuffer : Buffer
  outputBuffer : Buffer

/-- A connection with its surroundings: the poller, the functors posted to the
loop, the bytes the kernel has accepted, and whether the write side was shut. -/
structure Endpoint extends TcpConnection where
  poller : EPollPoller
  pendingFunctors : List Functor
  accepted : Bytes
  writeShutdown : Bool

structure Outcome where
  endpoint : Endpoint
  delivered : List Callback
  calls : List Call

namespace Endpoint

def create (address : Nat) (fd : Int) (poller : EPollPoller)
    (writeCompleteCallback highWaterMarkCallback : Bool) : Endpoint where
  state := .kConnecting
  channel := Channel.create address fd
  writeCompleteCallback := writeCompleteCallback
  highWaterMarkCallback := highWaterMarkCallback
  highWaterMark := 64 * 1024 * 1024
  inputBuffer := Buffer.create Buffer.kInitialSize
  outputBuffer := Buffer.create Buffer.kInitialSize
  poller := poller
  pendingFunctors := []
  accepted := []
  writeShutdown := false

variable (endpoint : Endpoint)

def connected : Bool := endpoint.state == .kConnected

def setState (state : StateE) : Endpoint := { endpoint with state := state }

def queueInLoop (functor : Functor) : Endpoint :=
  { endpoint with pendingFunctors := endpoint.pendingFunctors ++ [functor] }

/-! ## Channel operations -/

/-- `Channel::update` for a channel whose events have just been changed. -/
def update (channel : Channel) (ctl : Bool) : Bool × Endpoint :=
  let updated := endpoint.poller.updateChannel channel ctl
  (updated.answer, { endpoint with channel := updated.channel, poller := updated.poller })

def enableReading (ctl : Bool) : Bool × Endpoint :=
  endpoint.update endpoint.channel.withReading ctl

def enableWriting (ctl : Bool) : Bool × Endpoint :=
  endpoint.update endpoint.channel.withWriting ctl

def disableWriting (ctl : Bool) : Bool × Endpoint :=
  endpoint.update endpoint.channel.withoutWriting ctl

def disableAll (ctl : Bool) : Bool × Endpoint :=
  endpoint.update endpoint.channel.withoutAll ctl

/-- `Channel::remove`. -/
def removeChannel (ctl : Bool) : Endpoint :=
  if endpoint.channel.isNoneEvent = false then endpoint
  else
    let removed := endpoint.poller.removeChannel endpoint.channel ctl
    { endpoint with poller := removed.1, channel := removed.2 }

@[simp] theorem update_events (channel : Channel) (ctl : Bool) :
    (endpoint.update channel ctl).2.channel.events = channel.events := by
  rcases endpoint.poller.updateChannel_channel channel ctl with ⟨index, renewed⟩
  simp [update, renewed]

@[simp] theorem update_isWriting (channel : Channel) (ctl : Bool) :
    (endpoint.update channel ctl).2.channel.isWriting = channel.isWriting := by
  rw [Channel.isWriting, update_events, Channel.isWriting]

@[simp] theorem update_isReading (channel : Channel) (ctl : Bool) :
    (endpoint.update channel ctl).2.channel.isReading = channel.isReading := by
  rw [Channel.isReading, update_events, Channel.isReading]

@[simp] theorem update_isNoneEvent (channel : Channel) (ctl : Bool) :
    (endpoint.update channel ctl).2.channel.isNoneEvent = channel.isNoneEvent := by
  rw [Channel.isNoneEvent, update_events, Channel.isNoneEvent]

@[simp] theorem update_state (channel : Channel) (ctl : Bool) :
    (endpoint.update channel ctl).2.state = endpoint.state := rfl

@[simp] theorem update_outputBuffer (channel : Channel) (ctl : Bool) :
    (endpoint.update channel ctl).2.outputBuffer = endpoint.outputBuffer := rfl

@[simp] theorem update_accepted (channel : Channel) (ctl : Bool) :
    (endpoint.update channel ctl).2.accepted = endpoint.accepted := rfl

/-! ## Sending -/

/-- The locals `nwrote`, `remaining` and `faultError` of `sendInLoop`. -/
structure WriteProgress where
  nwrote : Nat
  remaining : Nat
  faultError : Bool

def postWriteComplete : Endpoint :=
  if endpoint.writeCompleteCallback then endpoint.queueInLoop .writeCompleteCallback
  else endpoint

/-- The write that `sendInLoop` tries before it queues anything. -/
def writeDirectly (data : Bytes) : WriteResult → Endpoint × WriteProgress
  | .accepted count =>
      let remaining := sizeSub data.length count
      let written := { endpoint with accepted := endpoint.accepted ++ data.take count }
      (if remaining = 0 then written.postWriteComplete else written,
        ⟨count, remaining, false⟩)
  | .failed errno =>
      (endpoint, ⟨0, data.length, errno == .EPIPE || errno == .ECONNRESET⟩)

/-- Posts the high water mark callback when `remaining` more bytes cross the mark. -/
def warnHighWater (remaining : Nat) : Endpoint :=
  let oldLen := endpoint.outputBuffer.readableBytes
  if endpoint.highWaterMark ≤ sizeAdd oldLen remaining ∧ oldLen < endpoint.highWaterMark ∧
      endpoint.highWaterMarkCallback then
    endpoint.queueInLoop (.highWaterMarkCallback (sizeAdd oldLen remaining))
  else endpoint

def ensureWriting (ctl : Bool) : Endpoint :=
  if endpoint.channel.isWriting then endpoint else (endpoint.enableWriting ctl).2

/-- The end of `sendInLoop`: what is left goes to the output buffer. -/
def queueOutput (data : Bytes) (progress : WriteProgress) (ctl : Bool) : Endpoint :=
  if data.length < progress.remaining then endpoint
  else if progress.faultError = false ∧ 0 < progress.remaining then
    let warned := endpoint.warnHighWater progress.remaining
    let rest := (data.drop progress.nwrote).take progress.remaining
    { warned with outputBuffer := warned.outputBuffer.append rest }.ensureWriting ctl
  else endpoint

def sendInLoop (data : Bytes) (write : WriteResult) (ctl : Bool) : Endpoint :=
  if endpoint.state = .kDisconnected then endpoint
  else
    let tried :=
      if endpoint.channel.isWriting = false ∧ endpoint.outputBuffer.readableBytes = 0 then
        endpoint.writeDirectly data write
      else (endpoint, ⟨0, data.length, false⟩)
    tried.1.queueOutput data tried.2 ctl

/-- `send` on the loop thread. -/
def send (message : Bytes) (write : WriteResult) : List Call :=
  if endpoint.state = .kConnected then [.sendInLoop message write] else []

/-! ## Closing -/

def shutdownInLoop : Endpoint :=
  if endpoint.channel.isWriting then endpoint else { endpoint with writeShutdown := true }

def shutdown : Endpoint :=
  if endpoint.state = .kConnected then (endpoint.setState .kDisconnecting).shutdownInLoop
  else endpoint

def forceClose : Endpoint :=
  if endpoint.state = .kConnected ∨ endpoint.state = .kDisconnecting then
    (endpoint.setState .kDisconnecting).queueInLoop .forceCloseInLoop
  else endpoint

def forceCloseInLoop : List Call :=
  if endpoint.state = .kConnected ∨ endpoint.state = .kDisconnecting then [.handleClose] else []

/-- The connection callback runs, and `after` is what follows it. -/
def connectionCallback (after : List Call) : Outcome where
  endpoint := endpoint
  delivered := [.connectionCallback endpoint.connected]
  calls := .userCode :: after

def connectEstablished (ctl : Bool) : Outcome :=
  if endpoint.state ≠ .kConnecting then ⟨endpoint, [], []⟩
  else
    let enabled := (endpoint.setState .kConnected).enableReading ctl
    if enabled.1 = false then ⟨enabled.2, [], [.handleClose]⟩
    else enabled.2.connectionCallback []

def connectDestroyed (ctl : Bool) : Outcome :=
  if endpoint.state = .kConnected then
    ((endpoint.setState .kDisconnected).disableAll ctl).2.connectionCallback [.removeChannel]
  else ⟨endpoint, [], [.removeChannel]⟩

def handleClose (ctl : Bool) : Outcome :=
  if endpoint.state = .kDisconnected then ⟨endpoint, [], []⟩
  else
    ((endpoint.setState .kDisconnected).disableAll ctl).2.connectionCallback [.closeCallback]

/-! ## Channel events -/

def handleRead (platform : Platform) (read : ReadResult) : Outcome :=
  let received := endpoint.inputBuffer.readFd platform read
  let filled := { endpoint with inputBuffer := received.2 }
  if 0 < received.1 then ⟨filled, [.messageCallback filled.inputBuffer], [.userCode]⟩
  else if received.1 = 0 then ⟨filled, [], [.handleClose]⟩
  else ⟨filled, [], [.handleError]⟩

def retrieveOutput (count : Nat) : Endpoint :=
  { endpoint with
    accepted := endpoint.accepted ++ endpoint.outputBuffer.readable.take count
    outputBuffer := (endpoint.outputBuffer.retrieve count).2 }

/-- The end of `handleWrite` when the output buffer has run empty. -/
def outputDrained (ctl : Bool) : Endpoint :=
  let completed := (endpoint.disableWriting ctl).2.postWriteComplete
  if completed.state = .kDisconnecting then completed.shutdownInLoop else completed

def handleWrite (write : WriteResult) (ctl : Bool) : Outcome :=
  if endpoint.channel.isWriting = false then ⟨endpoint, [], []⟩
  else
    match write with
    | .failed _ => ⟨endpoint, [], [.handleClose]⟩
    | .accepted count =>
        if count = 0 then ⟨endpoint, [], [.handleClose]⟩
        else
          let retrieved := endpoint.retrieveOutput count
          if retrieved.outputBuffer.readableBytes = 0 then
            ⟨retrieved.outputDrained ctl, [], []⟩
          else ⟨retrieved, [], []⟩

/-- `Channel::handleEventWithGuard`: the handlers that `revents` asks for. -/
def handleEventWithGuard (revents : Events) (read : ReadResult) (write : WriteResult) :
    List Call :=
  (if revents.has XPOLLHUP && !revents.has XPOLLIN then [.handleClose] else []) ++
  (if revents.has (XPOLLERR ||| XPOLLNVAL) then [.handleError] else []) ++
  (if revents.has (XPOLLIN ||| XPOLLPRI ||| XPOLLRDHUP) then [.handleRead read] else []) ++
  (if revents.has XPOLLOUT then [.handleWrite write] else [])

/-- One call, up to the calls it hands over to. `ctl` answers the `epoll_ctl`
call that it makes, if it makes one. -/
def execute (platform : Platform) (ctl : Bool) : Call → Outcome
  | .connectEstablished => endpoint.connectEstablished ctl
  | .connectDestroyed => endpoint.connectDestroyed ctl
  | .handleEvent revents read write =>
      ⟨{ endpoint with channel := { endpoint.channel with revents := revents } }, [],
        handleEventWithGuard revents read write⟩
  | .handleRead read => endpoint.handleRead platform read
  | .handleWrite write => endpoint.handleWrite write ctl
  | .handleClose => endpoint.handleClose ctl
  | .handleError => ⟨endpoint, [], [.handleClose]⟩
  | .send message write => ⟨endpoint, [], endpoint.send message write⟩
  | .sendInLoop message write => ⟨endpoint.sendInLoop message write ctl, [], []⟩
  | .shutdown => ⟨endpoint.shutdown, [], []⟩
  | .forceClose => ⟨endpoint.forceClose, [], []⟩
  | .forceCloseInLoop => ⟨endpoint, [], endpoint.forceCloseInLoop⟩
  | .retrieveInput len =>
      ⟨{ endpoint with inputBuffer := (endpoint.inputBuffer.retrieve len).2 }, [], []⟩
  | .removeChannel => ⟨endpoint.removeChannel ctl, [], []⟩
  | .closeCallback => ⟨endpoint, [.closeCallback], [.userCode]⟩
  | .userCode => ⟨endpoint, [], []⟩

/-! ## What the helpers leave alone -/

theorem postWriteComplete_eq : ∃ functors,
    endpoint.postWriteComplete = { endpoint with pendingFunctors := functors } := by
  unfold postWriteComplete
  split
  · exact ⟨_, rfl⟩
  · exact ⟨endpoint.pendingFunctors, rfl⟩

theorem warnHighWater_eq (remaining : Nat) : ∃ functors,
    endpoint.warnHighWater remaining = { endpoint with pendingFunctors := functors } := by
  unfold warnHighWater
  dsimp only
  split
  · exact ⟨_, rfl⟩
  · exact ⟨endpoint.pendingFunctors, rfl⟩

theorem shutdownInLoop_eq : ∃ shut,
    endpoint.shutdownInLoop = { endpoint with writeShutdown := shut } := by
  unfold shutdownInLoop
  split
  · exact ⟨endpoint.writeShutdown, rfl⟩
  · exact ⟨true, rfl⟩

/-- Apart from what it posts and whether it shuts the socket, `outputDrained` only
disables writing. -/
theorem outputDrained_eq (ctl : Bool) : ∃ functors shut,
    endpoint.outputDrained ctl =
      { (endpoint.disableWriting ctl).2 with
        pendingFunctors := functors, writeShutdown := shut } := by
  rcases (endpoint.disableWriting ctl).2.postWriteComplete_eq with ⟨functors, posted⟩
  refine ⟨functors, ?_⟩
  unfold outputDrained
  rw [posted]
  dsimp only
  split
  · rcases shutdownInLoop_eq
      { (endpoint.disableWriting ctl).2 with pendingFunctors := functors } with ⟨shut, closed⟩
    exact ⟨shut, closed⟩
  · exact ⟨_, rfl⟩

end Endpoint

end MyBookSources.Net
