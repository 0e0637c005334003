import MyBookSources.Net.ConnectionMachine
import MyBookSources.Net.EventLoop
import Mathlib.Logic.Function.Basic

/-! # The server

`net::TcpServer` with its loops. The base loop creates connections and removes
them from `connections_`; the I/O loops of the pool run them. A connection is the
stack of calls that its loop thread runs for it, and what it posts for itself
keeps a queue of its own. `stop` walks the map and then quits and joins the
threads of the pool one after the other.
-/

namespace MyBookSources.Net

inductive ServerFunctor
  | connectEstablished (id : Nat)
  | connectDestroyed (id : Nat)
  | removeConnectionInLoop (id : Nat)
  deriving DecidableEq

/-- `loop` is `ioLoop`; the loop 0 is the base loop. -/
structure ServerConnection where
  name : String
  loop : Nat
  config : Config

/-- Where `stop` is. `started_` is set in `running` only. -/
inductive StopPhase
  | running
  | walking
  | joining (loop : Nat) (asked : Bool)
  | stopped
  deriving DecidableEq

namespace StopPhase

/-- `stop` holds the thread of the base loop. -/
def isBusy : StopPhase → Bool
  | .walking => true
  | .joining _ _ => true
  | _ => false

/-- The walk over `connections_` is over. -/
def hasWalked : StopPhase → Bool
  | .joining _ _ => true
  | .stopped => true
  | _ => false

end StopPhase

/-- `exited` says that the loop to which `connectDestroyed` went was back from `loop`. -/
structure Posting where
  connection : Nat
  exited : Bool
  deriving DecidableEq

/-- `connections` is the map `connections_`, in which a key can keep a reset pointer.
`created` holds every connection ever created, under the `nextConnId_` it was given. The counter
does not wrap here, as the source's int does after 2^32 connections; the names that it gives
then stand with `ServerNames`. -/
structure TcpServer where
  name : String
  hostport : String
  numThreads : Nat
  next : Nat
  nextConnId : Nat
  connections : String → Option (Option Nat)
  loops : Nat → EventLoop ServerFunctor
  created : Nat → Option ServerConnection
  stopPhase : StopPhase
  posted : List Posting

/-- `use` is a call that user code makes on a connection; the connection's own labels are
those of its `Config`. -/
inductive ServerLabel
  | act (loop : Nat) (action : LoopAction)
  | call (loop : Nat)
  | event (id : Nat) (revents : Events) (read : ReadResult) (write : WriteResult)
  | use (id : Nat) (call : Call)
  | dispatch (id : Nat)
  | advance (id : Nat) (ctl : Bool)
  | leave (id : Nat)
  | newConnection (address : Nat) (sockfd : Int) (poller : EPollPoller)
      (writeCompleteCallback highWaterMarkCallback : Bool)
  | stop
  | destroy (key : String)
  | endWalk
  | quitLoop
  | joinLoop
  | quitBase

def Call.isPublic : Call → Bool
  | .send _ _ => true
  | .shutdown => true
  | .forceClose => true
  | .retrieveInput _ => true
  | _ => false

namespace TcpServer

def create (name hostport : String) (numThreads : Nat) : TcpServer where
  name := name
  hostport := hostport
  numThreads := numThreads
  next := 0
  nextConnId := 1
  connections _ := none
  loops _ := EventLoop.create
  created _ := none
  stopPhase := .running
  posted := []

variable (server : TcpServer)

/-- `snprintf` cuts the part behind the server's name off after 31 characters. -/
def connName : String :=
  server.name ++ String.ofList
    ((":" ++ server.hostport ++ "#" ++ toString server.nextConnId).toList.take 31)

def getNextLoop : Nat × TcpServer :=
  if server.numThreads = 0 then (0, server)
  else (server.next + 1,
    { server with next := if server.numThreads ≤ server.next + 1 then 0 else server.next + 1 })

/-! ## Threads -/

/-- `check` of every connection that lives on `loop`. -/
def all (loop : Nat) (check : ServerConnection → Bool) : Bool :=
  (List.range server.nextConnId).all fun id =>
    match server.created id with
    | some connection => connection.loop != loop || check connection
    | none => true

/-- No call for a connection runs on the thread of `loop`. -/
def idle (loop : Nat) : Bool := server.all loop fun connection => connection.config.stack.isEmpty

/-- The thread of `loop` is about the loop's own work. -/
def free (loop : Nat) : Bool := server.idle loop && (loop != 0 || !server.stopPhase.isBusy)

/-- The thread of `loop` runs nothing, or the body of a callback. -/
def isOpen (loop : Nat) : Bool := server.all loop fun connection => connection.config.isOpen

/-- Callbacks of connections can run on the thread of `loop`. -/
def runsCallbacks (loop : Nat) : Bool :=
  (server.loops loop).inCallback || loop == 0 && server.stopPhase.isBusy

def setLoop (loop : Nat) (state : EventLoop ServerFunctor) : TcpServer :=
  { server with loops := Function.update server.loops loop state }

def queueInLoop (loop : Nat) (functor : ServerFunctor) : TcpServer :=
  server.setLoop loop ((server.loops loop).queueInLoop functor)

/-! ## Connections -/

def setConfig (id : Nat) (connection : ServerConnection) (config : Config) : TcpServer :=
  { server with
    created := Function.update server.created id (some { connection with config := config }) }

def stepConnection (platform : Platform) (id : Nat) (label : Label) : Option TcpServer :=
  match server.created id with
  | none => none
  | some connection =>
      (connection.config.step platform label).map (server.setConfig id connection)

/-- A member function of a connection that starts with `assertInLoopThread`. -/
def enter (platform : Platform) (loop id : Nat) (call : Call) : Option TcpServer :=
  match server.created id with
  | none => none
  | some connection =>
      if connection.loop = loop then server.stepConnection platform id (.enter call) else none

/-- `queueInLoop` of `connectDestroyed`. -/
def postDestroyed (id loop : Nat) : TcpServer :=
  { server.queueInLoop loop (.connectDestroyed id) with
    posted := server.posted ++ [⟨id, (server.loops loop).hasReturned⟩] }

def removeConnectionInLoop (id : Nat) : TcpServer :=
  match server.created id with
  | none => server
  | some connection =>
      match server.connections connection.name with
      | none => server
      | some _ =>
          let erased : TcpServer := { server with
            connections := Function.update server.connections connection.name none }
          erased.postDestroyed id connection.loop

/-- `removeConnection`, the close callback of every connection. -/
def removeConnection (id : Nat) : TcpServer :=
  match server.created id with
  | none => server
  | some connection =>
      if connection.loop = 0 then server.removeConnectionInLoop id
      else server.queueInLoop 0 (.removeConnectionInLoop id)

def closing (id : Nat) : Bool :=
  match server.created id with
  | none => false
  | some connection => connection.config.stack.head? == some .closeCallback

def close (platform : Platform) (id : Nat) : Option TcpServer :=
  ((server.stepConnection platform id (.advance true)).bind fun delivered =>
    delivered.stepConnection platform id .leave).map (removeConnection · id)

def addConnection (loop : Nat) (endpoint : Endpoint) : TcpServer :=
  { server with
    nextConnId := server.nextConnId + 1
    connections :=
      Function.update server.connections server.connName (some (some server.nextConnId))
    created := Function.update server.created server.nextConnId
      (some ⟨server.connName, loop, .create endpoint⟩) }

/-- `connectEstablished` is run or posted. -/
def establish (platform : Platform) (loop id : Nat) : Option TcpServer :=
  if loop = 0 then server.enter platform 0 id .connectEstablished
  else some (server.queueInLoop loop (.connectEstablished id))

def newConnection (platform : Platform) (endpoint : Endpoint) : Option TcpServer :=
  let chosen := server.getNextLoop
  (chosen.2.addConnection chosen.1 endpoint).establish platform chosen.1 server.nextConnId

/-! ## Functors and `stop` -/

/-- The functor that `doPendingFunctors` calls next runs. -/
def callFunctor (platform : Platform) (loop : Nat) : ServerFunctor → Option TcpServer
  | .connectEstablished id => server.enter platform loop id .connectEstablished
  | .connectDestroyed id => server.enter platform loop id .connectDestroyed
  -- `assertInLoopThread` of the base loop
  | .removeConnectionInLoop id =>
      if loop = 0 then some (server.removeConnectionInLoop id) else none

/-- One entry of the walk: the pointer is reset and `connectDestroyed` is run or posted. -/
def destroy (platform : Platform) (key : String) : Option TcpServer :=
  match server.connections key with
  | some (some id) =>
      match server.created id with
      | none => none
      | some connection =>
          let reset : TcpServer := { server with
            connections := Function.update server.connections key (some none) }
          if connection.loop = 0 then
            let destroyed : TcpServer := { reset with posted := server.posted ++ [⟨id, false⟩] }
            destroyed.enter platform 0 id .connectDestroyed
          else some (reset.postDestroyed id connection.loop)
  | _ => none

/-- No entry of `connections_` is left to be reset. -/
def allReset : Bool :=
  (List.range server.nextConnId).all fun id =>
    match server.created id with
    | some connection => server.connections connection.name != some (some id)
    | none => true

/-- The thread of the pool that `stopLoop` turns to next. -/
def stopFrom (loop : Nat) : StopPhase :=
  if loop ≤ server.numThreads then .joining loop false else .stopped

def step (platform : Platform) : ServerLabel → Option TcpServer
  | .act loop action =>
      if server.free loop && action != .call then
        ((server.loops loop).act action).map (server.setLoop loop)
      else none
  | .call loop =>
      if server.free loop then
        match (server.loops loop).act .call, (server.loops loop).nextFunctor with
        | some called, some functor =>
            (server.setLoop loop called).callFunctor platform loop functor
        | _, _ => none
      else none
  | .event id revents read write =>
      match server.created id with
      | none => none
      | some connection =>
          if server.free connection.loop && (server.loops connection.loop).isHandling then
            server.stepConnection platform id (.enter (.handleEvent revents read write))
          else none
  | .use id call =>
      match server.created id with
      | none => none
      | some connection =>
          if call.isPublic && server.runsCallbacks connection.loop &&
              server.isOpen connection.loop then
            server.stepConnection platform id (.enter call)
          else none
  | .dispatch id =>
      match server.created id with
      | none => none
      | some connection =>
          if server.free connection.loop && (server.loops connection.loop).isBetween then
            server.stepConnection platform id .dispatch
          else none
  | .advance id ctl =>
      if server.closing id then server.close platform id
      else server.stepConnection platform id (.advance ctl)
  | .leave id => server.stepConnection platform id .leave
  | .newConnection address sockfd poller writeCompleteCallback highWaterMarkCallback =>
      if server.free 0 && (server.loops 0).isHandling then
        server.newConnection platform
          (.create address sockfd poller writeCompleteCallback highWaterMarkCallback)
      else none
  | .stop =>
      if server.free 0 && (server.loops 0).phase.runsCallbacks then
        match server.stopPhase with
        | .running => some { server with stopPhase := .walking }
        | _ => some server
      else none
  | .destroy key =>
      match server.stopPhase with
      | .walking => if server.idle 0 then server.destroy platform key else none
      | _ => none
  | .endWalk =>
      match server.stopPhase with
      | .walking =>
          if server.idle 0 && server.allReset then
            some { server with stopPhase := server.stopFrom 1 }
          else none
      | _ => none
  | .quitLoop =>
      match server.stopPhase with
      | .joining loop false =>
          some { server.setLoop loop (server.loops loop).askToQuit with
            stopPhase := .joining loop true }
      | _ => none
  | .joinLoop =>
      match server.stopPhase with
      | .joining loop true =>
          if (server.loops loop).hasReturned then
            some { server with stopPhase := server.stopFrom (loop + 1) }
          else none
      | _ => none
  | .quitBase => some (server.setLoop 0 (server.loops 0).askToQuit)

end TcpServer

/-- Every interleaving of the base loop with the loops of the pool. -/
def serverMachine (platform : Platform) : Machine TcpServer ServerLabel :=
  .ofPartial fun server => server.step platform

end MyBookSources.Net
