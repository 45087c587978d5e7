/-
Module: FastCgi.Model.MucgiServer
Layer: Model
Purpose: The program of mucgi/main.cpp: the muduo server whose connections each have
  their own `FastCgiCodec`, bound to `onRequest`.
Trusted boundary: the backend answers a connection from the calls that this
  connection made
Main exports: Mucgi.Context, Mucgi.onConnection, Mucgi.messageCallback, Mucgi.advance
-/
import FastCgi.Model.Handlers
import FastCgi.Model.TcpServer

namespace FastCgi

namespace Mucgi

/-- `context_` with `inputBuffer_`: the codec, and what its handler did so far. -/
abbrev Context := FastCgiCodec × List Event

/-- The codec that `onConnection` makes. -/
def onConnection : Context := (.fresh, [])

/-- `conn->send(&response)`. -/
def sends : Event → List Muduo.Call
  | .responded response => [.send response]
  | _ => []

/-- `FastCgiCodec::onMessage` behind `handleRead`, with what it does with its
connection. -/
def messageCallback (printRequest : Backend) : Muduo.MessageCallback Context :=
  fun context data => do
    let handled ← handleRead (onRequest printRequest) context.1 context.2 data
    let calls := (handled.conn.drop context.2.length).flatMap sends
    return ((handled.codec, handled.conn),
      calls ++ if handled.shutdown then [.shutdown] else [])

/-- One step of the loops of the server. -/
def advance (printRequest : Backend) :
    Muduo.TcpServer Context → Muduo.TcpServer.Action → Option (Muduo.TcpServer Context) :=
  Muduo.TcpServer.advance (messageCallback printRequest) onConnection

end Mucgi

end FastCgi
