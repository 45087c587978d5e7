/-
Module: FastCgi.Spec.TcpConnection
Layer: Spec
Purpose: What a connection owes its message callback: the messages it was given
  before the first `shutdown`, and nothing else, reach the socket in order; then
  the sending side is closed.
Trusted boundary: human-reviewed spec
Main exports: Muduo.acceptedBy, Muduo.callsBy, Muduo.sentBy, Muduo.Revents.closes,
  Muduo.TcpConnection.Serving, Muduo.TcpConnection.Ended, Muduo.TcpConnection.Behind
-/
import FastCgi.Model.TcpConnection

namespace FastCgi

namespace Muduo

/-- The bytes that a sequence of calls hands over: what is sent behind a `shutdown`
is dropped. -/
def acceptedBy : List Call → Bytes
  | [] => []
  | .send message :: calls => message ++ acceptedBy calls
  | .shutdown :: _ => []

/-- The calls that the message callback makes of some reads. -/
def callsBy {γ : Type} (onMessage : MessageCallback γ) :
    γ → List Bytes → Except Fault (γ × List Call)
  | context, [] => .ok (context, [])
  | context, data :: reads => do
      let (context, calls) ← onMessage context data
      let (context, later) ← callsBy onMessage context reads
      return (context, calls ++ later)

/-- What an event gives the message callback. -/
def Revents.given (revents : Revents) : ReadResult → List Bytes
  | .data first rest => if revents.pollin || revents.pollpri then [first :: rest] else []
  | .endOfFile => []
  | .failed => []

/-- The same while the connection is up: with a hang-up it went down before. -/
def Revents.reads (revents : Revents) : ReadResult → List Bytes
  | .data first rest =>
      if revents.pollin || (revents.pollpri && !revents.pollhup) then [first :: rest] else []
  | .endOfFile => []
  | .failed => []

/-- The event takes a connection down: a hang-up with nothing to read, or the end of
the stream. -/
def Revents.closes (revents : Revents) (result : ReadResult) : Bool :=
  (revents.pollhup && !revents.pollin) ||
    ((revents.pollin || revents.pollpri) && result == .endOfFile)

/-- The event takes a connection down twice: urgent data with a hang-up, and then the
end of the stream. -/
def Revents.closesTwice (revents : Revents) (result : ReadResult) : Bool :=
  revents.pollhup && !revents.pollin && revents.pollpri && result == .endOfFile

/-- The bytes of an operation that the socket took. -/
def Operation.taken : Operation → Bytes
  | .wrote data => data
  | _ => []

/-- What the socket took. -/
def sentBy (operations : List Operation) : Bytes := operations.flatMap Operation.taken

namespace Channel

/-- Watched for reads, and for writes or not. -/
def listening (writing : Bool) : Channel where
  events := ⟨true, writing⟩
  index := .kAdded
  addedToLoop := true
  mapped := true
  watched := some ⟨true, writing⟩

/-- Known to the poller, and not watched. -/
def deaf : Channel where
  events := .none
  index := .kDeleted
  addedToLoop := true
  mapped := true
  watched := none

end Channel

namespace TcpConnection

variable {γ : Type}

/-- The pieces that were written are the messages, or their beginning if a write has
found the other side gone. -/
def Carried (calls : List Call) (pieces : List Bytes) (c : TcpConnection γ) : Prop :=
  pieces.flatten ++ c.outputBuffer.readable = acceptedBy calls ∨
    (∃ k < c.writes, c.socket.result k = .broken) ∧ pieces.flatten <+: acceptedBy calls

/-- Nothing waits behind a `shutdown`. -/
def Drained (calls : List Call) (c : TcpConnection γ) : Prop :=
  .shutdown ∈ calls ∧ c.outputBuffer.readable = []

instance (calls : List Call) (c : TcpConnection γ) : Decidable (c.Drained calls) :=
  inferInstanceAs (Decidable (_ ∧ _))

/-- The operations of a connection that is up: its callback, the writes, and the end
of the sending side as soon as nothing waits. -/
def operationsOf (pieces : List Bytes) (ended : Bool) : List Operation :=
  .connection true :: (pieces.map .wrote ++ if ended then [.shutdownWrite] else [])

/-- A connection that is up, behind these calls. -/
structure Serving (calls : List Call) (pieces : List Bytes) (c : TcpConnection γ) : Prop where
  state : c.state = if .shutdown ∈ calls then .kDisconnecting else .kConnected
  channel : c.channel = .listening (decide (c.outputBuffer.readable ≠ []))
  carried : c.Carried calls pieces
  operations : c.operations = operationsOf pieces (decide (c.Drained calls))

/-- A connection that went down. -/
structure Ended (calls : List Call) (pieces : List Bytes) (c : TcpConnection γ) : Prop where
  state : c.state = .kDisconnected
  channel : c.channel = .deaf
  carried : c.Carried calls pieces
  operations : c.operations =
    operationsOf pieces (decide (c.Drained calls)) ++ [.connection false, .closed]

/-- A connection behind these reads, which is up or went down. -/
def Behind (onMessage : MessageCallback γ) (codec : γ) (reads : List Bytes) (down : Bool)
    (c : TcpConnection γ) : Prop :=
  ∃ context calls pieces, callsBy onMessage codec reads = .ok (context, calls) ∧
    if down then c.Ended calls pieces else c.Serving calls pieces ∧ c.context = context

end TcpConnection

end Muduo

end FastCgi
