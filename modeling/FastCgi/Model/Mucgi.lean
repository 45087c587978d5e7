/-
Module: FastCgi.Model.Mucgi
Layer: Model
Purpose: A connection of the mucgi server, from `TcpConnection::handleRead`
  (mucgi/muduo_net/TcpConnection.cc) through `FastCgiCodec::onMessage`
  (mucgi/fastcgi.h) to the request callback, which is a parameter here.
Trusted boundary: the event loop delivers the reads of one connection in order
  and one at a time; `shutdown` closes the sending side only, so reads may
  follow it
Main exports: Mucgi.Callback, Mucgi.onMessage, Mucgi.handleRead, Mucgi.run,
  Mucgi.shutdowns
-/
import FastCgi.Model.Codec

namespace FastCgi

namespace Mucgi

variable {σ : Type}

/-- `FastCgiCodec::Callback`.  The map and the buffer are passed by reference;
`σ` is the connection and whatever else the callback may change. -/
abbrev Callback (σ : Type) := ParamMap → Buffer → σ → Except Fault (ParamMap × Buffer × σ)

/-- A callback that returns. -/
def returning (handler : ParamMap → Buffer → σ → ParamMap × Buffer × σ) : Callback σ :=
  fun params stdin conn => .ok (handler params stdin conn)

/-- The state after `onMessage`, whether it called `conn->shutdown()`, and
what could be seen on the way. -/
structure Handled (σ : Type) where
  codec : FastCgiCodec
  conn : σ
  shutdown : Bool
  seen : List Observation

/-- `parseRequest`; the result of the source is always `true`. -/
def parseRequest (c : FastCgiCodec) : Except Fault (FastCgiCodec × List RecordEvent) :=
  c.parseRecords

def onMessage (cb : Callback σ) (c : FastCgiCodec) (conn : σ) : Except Fault (Handled σ) := do
  let (c, events) ← parseRequest c
  if c.gotRequest then
    let (params, stdin, conn) ← cb c.params c.stdin conn
    return {
      codec := { c with params := params, stdin := stdin }.clearRequest
      conn := conn
      shutdown := !c.keepConn
      seen := events.map .record ++ [.invoked ⟨c.params, c.stdin.readable⟩] }
  else
    return { codec := c, conn := conn, shutdown := false, seen := events.map .record }

/-- `handleRead` when `readFd` returned a positive count. -/
def handleRead (cb : Callback σ) (c : FastCgiCodec) (conn : σ) (data : Bytes) :
    Except Fault (Handled σ) := do
  let buf ← c.buf.readFd data
  onMessage cb { c with buf := buf } conn

/-- The reads of one connection, one after the other. -/
def run (cb : Callback σ) : FastCgiCodec → σ → List Bytes →
    Except Fault (FastCgiCodec × σ × List Observation)
  | c, conn, [] => .ok (c, conn, [])
  | c, conn, data :: reads => do
      let handled ← handleRead cb c conn data
      let (c, conn, seen) ← run cb handled.codec handled.conn reads
      return (c, conn, handled.seen ++ seen)

/-- Whether each of these reads made `onMessage` call `conn->shutdown()`. -/
def shutdowns (cb : Callback σ) : FastCgiCodec → σ → List Bytes → Except Fault (List Bool)
  | _, _, [] => .ok []
  | c, conn, data :: reads => do
      let handled ← handleRead cb c conn data
      let later ← shutdowns cb handled.codec handled.conn reads
      return handled.shutdown :: later

end Mucgi

end FastCgi
