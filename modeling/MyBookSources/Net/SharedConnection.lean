import MyBookSources.Net.ConnectionMachine
import MyBookSources.Net.EventLoop

/-! # Sending from other threads

A connection on which worker threads call `send`. `send` tests `state_` on the
worker's thread and posts `sendInLoop` in a step of its own; everything else
happens on the loop thread, where `shutdown` acts at once. What the connection
posts for itself keeps a queue of its own.
-/

namespace MyBookSources.Net

/-- `other` stands for the functors that are not about sending on the connection. -/
inductive OutputFunctor
  | sendInLoop (message : Bytes)
  | other
  deriving DecidableEq

/-- `sending` holds the messages of the threads that are between the test of `state_` and
the post. The rest is history: the messages whose `send` found the connection connected and is
over, those for which that was so when `shutdown` was called, those that `sendInLoop`
took while the write side was open, and whether a write was tried after that. -/
structure SharedConnection where
  config : Config
  loop : EventLoop OutputFunctor
  sending : List Bytes
  completed : List Bytes
  owed : List Bytes
  handled : List Bytes
  lateWrite : Bool

inductive SharedLabel
  | act (action : LoopAction)
  | call (write : WriteResult)
  | enter (call : Call)
  | event (revents : Events) (read : ReadResult) (write : WriteResult)
  | dispatch
  | advance (ctl : Bool)
  | leave
  | testState (message : Bytes)
  | post (message : Bytes)
  | queueOther
  | quit

namespace Call

/-- The calls that user code or a functor of the server makes on the loop thread. -/
def isOnLoop : Call → Bool
  | .connectEstablished => true
  | .connectDestroyed => true
  | .send _ _ => true
  | .shutdown => true
  | .forceClose => true
  | .retrieveInput _ => true
  | _ => false

end Call

namespace OutputFunctor

def message : OutputFunctor → Option Bytes
  | .sendInLoop message => some message
  | .other => none

end OutputFunctor

namespace SharedConnection

def create (endpoint : Endpoint) : SharedConnection where
  config := .create endpoint
  loop := .create
  sending := []
  completed := []
  owed := []
  handled := []
  lateWrite := false

variable (connection : SharedConnection)

def sends : List Bytes :=
  match connection.config.stack with
  | .send message _ :: _ => if connection.config.endpoint.state = .kConnected then [message] else []
  | _ => []

/-- The next call is a `shutdown` that finds the connection connected. -/
def shutsDown : Bool :=
  match connection.config.stack with
  | .shutdown :: _ => connection.config.endpoint.state == .kConnected
  | _ => false

/-- The message that the next call takes while the write side is open. -/
def takes : List Bytes :=
  match connection.config.stack with
  | .sendInLoop message _ :: _ =>
      if connection.config.endpoint.state = .kDisconnected ∨
          connection.config.endpoint.writeShutdown = true then []
      else [message]
  | _ => []

def writes : Bool :=
  match connection.config.stack with
  | .sendInLoop _ _ :: _ =>
      connection.config.endpoint.state != .kDisconnected &&
        !connection.config.endpoint.channel.isWriting &&
        connection.config.endpoint.outputBuffer.readableBytes == 0
  | .handleWrite _ :: _ => connection.config.endpoint.channel.isWriting
  | _ => false

def stepConfig (platform : Platform) (label : Label) : Option SharedConnection :=
  (connection.config.step platform label).map fun config =>
    { connection with config := config }

/-- One call on the loop thread, with what it adds to the history. -/
def advance (platform : Platform) (ctl : Bool) : Option SharedConnection :=
  (connection.config.step platform (.advance ctl)).map fun config =>
    { connection with
      config := config
      completed := connection.completed ++ connection.sends
      owed := if connection.shutsDown then connection.completed else connection.owed
      handled := connection.handled ++ connection.takes
      lateWrite := connection.lateWrite ||
        connection.config.endpoint.writeShutdown && connection.writes }

def idle : Bool := connection.config.stack.isEmpty

def callFunctor (platform : Platform) (write : WriteResult) :
    OutputFunctor → Option SharedConnection
  | .sendInLoop message => connection.stepConfig platform (.enter (.sendInLoop message write))
  | .other => some connection

def step (platform : Platform) : SharedLabel → Option SharedConnection
  | .act action =>
      if connection.idle && action != .call then
        (connection.loop.act action).map fun loop => { connection with loop := loop }
      else none
  | .call write =>
      if connection.idle then
        match connection.loop.act .call, connection.loop.nextFunctor with
        | some called, some functor =>
            { connection with loop := called }.callFunctor platform write functor
        | _, _ => none
      else none
  | .enter call =>
      if call.isOnLoop && connection.loop.inCallback then
        connection.stepConfig platform (.enter call)
      else none
  | .event revents read write =>
      if connection.idle && connection.loop.isHandling then
        connection.stepConfig platform (.enter (.handleEvent revents read write))
      else none
  | .dispatch =>
      if connection.idle && connection.loop.isBetween then
        connection.stepConfig platform .dispatch
      else none
  | .advance ctl => connection.advance platform ctl
  | .leave => connection.stepConfig platform .leave
  | .testState message =>
      if connection.config.endpoint.state = .kConnected then
        some { connection with sending := connection.sending ++ [message] }
      else some connection
  | .post message =>
      if connection.sending.contains message then
        some { connection with
          loop := connection.loop.queueInLoop (.sendInLoop message)
          sending := connection.sending.erase message
          completed := connection.completed ++ [message] }
      else none
  | .queueOther => some { connection with loop := connection.loop.queueInLoop .other }
  | .quit => some { connection with loop := connection.loop.askToQuit }

end SharedConnection

/-- Every interleaving of the loop thread with the threads that send. -/
def sharedMachine (platform : Platform) : Machine SharedConnection SharedLabel :=
  .ofPartial fun connection => connection.step platform

end MyBookSources.Net
