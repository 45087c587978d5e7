/-
Module: FastCgi.Spec.TcpServer
Layer: Spec
Purpose: The life of a connection of the server, as the server and the loops see it:
  from `newConnection` over its events to the destructor, with the one functor that
  waits for it at a time.
Trusted boundary: human-reviewed spec
Main exports: Muduo.TcpServer.view, Muduo.TcpServer.Life, Muduo.TcpServer.readsOf,
  Muduo.TcpServer.Action.Fails
-/
import FastCgi.Model.TcpServer
import FastCgi.Spec.TcpConnection

namespace FastCgi

namespace Muduo

namespace TcpServer

variable {γ : Type}

/-- What the server, the loops and the heap hold of one connection. -/
structure View (γ : Type) where
  conn : Option (LoopId × TcpConnection γ)
  listed : Bool
  waiting : List (LoopId × Functor)

def view (s : TcpServer γ) (n : ConnId) : View γ where
  conn := s.conns n
  listed := s.connections n
  waiting := s.pending.filter fun entry => entry.2.conn == n

/-- The loops take turns. -/
def loopFor (numThreads : Nat) (n : ConnId) : LoopId :=
  if numThreads = 0 then baseLoop else (n - 1) % numThreads + 1

/-- The stations of a connection: it exists or not, it is listed or not, and one
functor at most waits for it. -/
inductive Life (onMessage : MessageCallback γ) (codec : γ) (n : ConnId) (loop : LoopId) :
    List Bytes → View γ → Prop
  | absent (reads : List Bytes) : Life onMessage codec n loop reads ⟨none, false, []⟩
  | connecting (socket : Socket) :
      Life onMessage codec n loop []
        ⟨some (loop, .make codec socket), true, [(loop, .connectEstablished n)]⟩
  | up (reads : List Bytes) (c : TcpConnection γ) (behind : c.Behind onMessage codec reads false) :
      Life onMessage codec n loop reads ⟨some (loop, c), true, []⟩
  | down (reads : List Bytes) (c : TcpConnection γ) (behind : c.Behind onMessage codec reads true) :
      Life onMessage codec n loop reads
        ⟨some (loop, c), true, [(baseLoop, .removeConnectionInLoop n)]⟩
  | removed (reads : List Bytes) (c : TcpConnection γ)
      (behind : c.Behind onMessage codec reads true) :
      Life onMessage codec n loop reads ⟨some (loop, c), false, [(loop, .connectDestroyed n)]⟩

/-- What a step gives the message callback of a connection. -/
def Action.reads (n : ConnId) : Action → List Bytes
  | .event m revents result => if m = n then revents.reads result else []
  | .accept _ => []
  | .call _ => []

def readsOf (n : ConnId) (actions : List Action) : List Bytes :=
  actions.flatMap (Action.reads n)

/-- The ways in which a step fails: the message callback does, or an event takes a
connection down twice. -/
def Action.Fails (onMessage : MessageCallback γ) (codec : γ) (reads : ConnId → List Bytes)
    (fault : Fault) : Action → Prop
  | .event n revents result =>
      (revents.closesTwice result = true ∧
        fault = .assertion "state_ == kConnected || state_ == kDisconnecting") ∨
      ∃ data ∈ revents.given result, callsBy onMessage codec (reads n ++ [data]) = .error fault
  | .accept _ => False
  | .call _ => False

/-- How many calls a functor leads to: `removeConnectionInLoop` queues another one. -/
def Functor.calls : Functor → Nat
  | .connectEstablished _ => 1
  | .removeConnectionInLoop _ => 2
  | .connectDestroyed _ => 1

def callsLeft (s : TcpServer γ) : Nat := (s.pending.map fun entry => Functor.calls entry.2).sum

end TcpServer

end Muduo

end FastCgi
