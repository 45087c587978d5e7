/-
Module: FastCgi.Model.TcpServer
Layer: Model
Purpose: `muduo::net::TcpServer` over its loops (mucgi/muduo_net/TcpServer.cc,
  EventLoopThreadPool.cc): how connections are made, handed to a loop, removed and
  destroyed, with the functors that the loops queue for each other.
Trusted boundary: the functors of a loop are called in the order they were queued,
  each once, and not while it handles an event; a handler or functor touches the data
  of its own loop and the queues only; the names of connections are distinct, so
  that `nextConnId_` does not overflow; the server is not destroyed
Main exports: Muduo.Functor, Muduo.TcpServer, Muduo.TcpServer.step
-/
import FastCgi.Library.Transitions
import FastCgi.Model.TcpConnection

namespace FastCgi

namespace Muduo

/-- A connection, by the number in its name. -/
abbrev ConnId := Nat

/-- Zero is the loop of the server, the others are those of the pool. -/
abbrev LoopId := Nat

def baseLoop : LoopId := 0

/-- What one loop asks another to call. -/
inductive Functor where
  | connectEstablished (n : ConnId)
  | removeConnectionInLoop (n : ConnId)
  | connectDestroyed (n : ConnId)
deriving Repr, DecidableEq

/-- The connection that a functor holds. -/
def Functor.conn : Functor → ConnId
  | connectEstablished n => n
  | removeConnectionInLoop n => n
  | connectDestroyed n => n

/-- What `poll` can report for a descriptor: what it is watched for, an error and a
hang-up. -/
def Revents.possible (revents : Revents) : Option Events → Bool
  | none => false
  | some events =>
      (events.reading || !(revents.pollin || revents.pollpri)) &&
        (events.writing || !revents.pollout) && !revents.pollrdhup && !revents.pollnval

structure TcpServer (γ : Type) where
  /-- The threads of the pool. -/
  numThreads : Nat
  /-- `connections_` has this name. -/
  connections : ConnId → Bool
  nextConnId : ConnId
  /-- `next_` of the pool. -/
  next : Nat
  /-- The pending functors of all loops, each behind those that were queued
  before it. -/
  pending : List (LoopId × Functor)
  /-- The connections that exist, with their loops. -/
  conns : ConnId → Option (LoopId × TcpConnection γ)

namespace TcpServer

variable {γ : Type}

def start (numThreads : Nat) : TcpServer γ where
  numThreads := numThreads
  connections := fun _ => false
  nextConnId := 1
  next := 0
  pending := []
  conns := fun _ => none

def setConn (s : TcpServer γ) (n : ConnId) (conn : Option (LoopId × TcpConnection γ)) :
    TcpServer γ :=
  { s with conns := Function.update s.conns n conn }

def queueInLoop (s : TcpServer γ) (loop : LoopId) (f : Functor) : TcpServer γ :=
  { s with pending := s.pending ++ [(loop, f)] }

/-- `EventLoopThreadPool::getNextLoop`. -/
def getNextLoop (s : TcpServer γ) : LoopId × TcpServer γ :=
  if s.numThreads = 0 then (baseLoop, s)
  else (s.next + 1, { s with next := if s.numThreads ≤ s.next + 1 then 0 else s.next + 1 })

/-- `connectEstablished` of a connection. -/
def connectEstablished (codec : γ) (s : TcpServer γ) (n : ConnId) : Except Fault (TcpServer γ) :=
  match s.conns n with
  | none => .error .outOfBounds
  | some (loop, c) => do
      let c ← c.connectEstablished codec
      return s.setConn n (some (loop, c))

def removeConnectionInLoop (s : TcpServer γ) (n : ConnId) : Except Fault (TcpServer γ) :=
  match s.conns n with
  | none => .error .outOfBounds
  | some (loop, _) => do
      check (s.connections n = true) "n == 1"
      return { s with connections := Function.update s.connections n false }.queueInLoop loop
        (.connectDestroyed n)

/-- `connectDestroyed` of a connection. -/
def connectDestroyed (s : TcpServer γ) (n : ConnId) : Except Fault (TcpServer γ) :=
  match s.conns n with
  | none => .error .outOfBounds
  | some (loop, c) => do
      let c ← c.connectDestroyed
      return s.setConn n (some (loop, c))

/-- The references to a connection that outlive a call: from `connections_`, and from
the functors that wait. -/
def referenced (s : TcpServer γ) (n : ConnId) : Bool :=
  s.connections n || s.pending.any fun entry => entry.2.conn == n

/-- A reference is dropped; the last one destroys the connection. -/
def release (s : TcpServer γ) (n : ConnId) : Except Fault (TcpServer γ) :=
  if s.referenced n then .ok s
  else
    match s.conns n with
    | none => .ok s
    | some (_, c) => do
        c.destroy
        return s.setConn n none

def callFunctor (codec : γ) (s : TcpServer γ) : Functor → Except Fault (TcpServer γ)
  | .connectEstablished n => s.connectEstablished codec n
  | .removeConnectionInLoop n => s.removeConnectionInLoop n
  | .connectDestroyed n => s.connectDestroyed n

/-- `loop->runInLoop(f)` in the thread of a loop. -/
def runInLoop (codec : γ) (s : TcpServer γ) (here loop : LoopId) (f : Functor) :
    Except Fault (TcpServer γ) :=
  if here = loop then s.callFunctor codec f else .ok (s.queueInLoop loop f)

def newConnection (codec : γ) (s : TcpServer γ) (socket : Socket) :
    Except Fault (TcpServer γ) :=
  let (ioLoop, s) := s.getNextLoop
  let n := s.nextConnId
  let s := { s with nextConnId := n + 1, connections := Function.update s.connections n true }
  (s.setConn n (some (ioLoop, .make codec socket))).runInLoop codec baseLoop ioLoop
    (.connectEstablished n)

/-- `closeCallback_`, once for every time it was called. -/
def closeCallbacks (codec : γ) (n : ConnId) (loop : LoopId) :
    List Operation → TcpServer γ → Except Fault (TcpServer γ)
  | [], s => .ok s
  | .closed :: operations, s => do
      let s ← s.runInLoop codec loop baseLoop (.removeConnectionInLoop n)
      closeCallbacks codec n loop operations s
  | _ :: operations, s => closeCallbacks codec n loop operations s

/-- The loop of a connection handles its channel, which is tied to the connection. -/
def handleChannel (onMessage : MessageCallback γ) (codec : γ) (s : TcpServer γ) (n : ConnId)
    (loop : LoopId) (c : TcpConnection γ) (revents : Revents) (result : ReadResult) :
    Except Fault (TcpServer γ) := do
  let c' ← c.handleEvent onMessage revents result
  let s ← closeCallbacks codec n loop (c'.operations.drop c.operations.length)
    (s.setConn n (some (loop, c')))
  s.release n

/-- A loop calls a functor that it took from its queue, and drops it. -/
def doFunctor (codec : γ) (s : TcpServer γ) (f : Functor) : Except Fault (TcpServer γ) := do
  let s ← s.callFunctor codec f
  s.release f.conn

/-- What one of the loops does next. -/
inductive Action where
  /-- The loop of the server accepts a connection. -/
  | accept (socket : Socket)
  /-- The loop of a connection handles an event. -/
  | event (n : ConnId) (revents : Revents) (result : ReadResult)
  /-- A loop calls its next functor. -/
  | call (loop : LoopId)

/-- The state behind a step; `none` if there is nothing to do. -/
def step (onMessage : MessageCallback γ) (codec : γ) (s : TcpServer γ) :
    Action → Except Fault (Option (TcpServer γ))
  | .accept socket => (s.newConnection codec socket).map some
  | .event n revents result =>
      match s.conns n with
      | none => .ok none
      | some (loop, c) =>
          if revents.possible c.channel.watched then
            (s.handleChannel onMessage codec n loop c revents result).map some
          else .ok none
  | .call loop =>
      match s.pending.find? fun entry => entry.1 == loop with
      | none => .ok none
      | some (_, f) =>
          ({ s with pending := s.pending.eraseP fun entry => entry.1 == loop }.doFunctor
            codec f).map some

/-- The steps that do not fail. -/
def advance (onMessage : MessageCallback γ) (codec : γ) (s : TcpServer γ) (action : Action) :
    Option (TcpServer γ) :=
  match s.step onMessage codec action with
  | .ok next => next
  | .error _ => none

end TcpServer

end Muduo

end FastCgi
