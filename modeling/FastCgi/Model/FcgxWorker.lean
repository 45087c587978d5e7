/-
Module: FastCgi.Model.FcgxWorker
Layer: Model
Purpose: One worker of the fastcgi server on its connections: the loop of
  `CFastCgiServer::Run` (fastcgi/fastcgi_server.cpp) over `FCGI_Accept` and
  `FCGI_printf` (fastcgi/fastcgi_lib/fcgi_stdio.cpp), with libfcgi under it.
Trusted boundary: the worker runs as FastCGI, not as CGI; `getenv` finds the first
  entry of `environ` that starts with the name and an equals sign; `OS_Accept`
  gives one connection after the other and then fails
Main exports: CFastCgiServer.getenv, CFastCgiServer.serve, CFastCgiServer.worker
-/
import FastCgi.Model.FcgxInput
import FastCgi.Model.FastCgiRequests

namespace FastCgi

namespace CFastCgiServer

open Fcgx (Ipc Params Reading Request StreamName Output OutputOp acceptR)

/-- The value of an entry of `environ`, if this is its name. -/
def entryValue (name entry : Bytes) : Option Bytes :=
  let text := printString entry
  if (name ++ [61]).isPrefixOf text then some (text.drop (name.length + 1)) else none

def getenv (environ : List Bytes) : Environment := fun name => environ.findSome? (entryValue name)

variable {σ : Type}

/-- The call of `FCGI_printf` that a request leads to. -/
def printed (callBack : Option (FastCgiCallback σ)) (stdout : Bytes) : List OutputOp :=
  if callBack.isSome then [.putStr .out stdout] else []

/-- What a request leaves behind. -/
structure Served (σ : Type) where
  /-- `FCGX_Finish_r` closes the connection. -/
  close : Bool
  ipc : Ipc
  request : Request
  members : Members
  cgiParameter : σ

/-- The body of the loop for an accepted request, and the `FCGX_Finish_r` that the
next `FCGI_Accept` begins with. -/
def serve (callBack : Option (FastCgiCallback σ)) (misaligned : StreamName → Bool)
    (params : Params) (r : Reading) (m : Members) (cgiParameter : σ) :
    Except Fault (Served σ) := do
  let (stdout, m, cgiParameter) := handleRequest callBack (getenv params.vec) m cgiParameter
  let (_, output) ← (Output.start r.request misaligned r.ipc).run (printed callBack stdout)
  let (close, output) ← output.finish r.stream.fcgiErrno
  return ⟨close, output.ipc, output.request, m, cgiParameter⟩

/-- The connections a worker is done with, in the order it closed them, and those
it has not read to the end. -/
structure WorkerState (σ : Type) where
  closed : List Ipc
  later : List Ipc
  members : Members
  cgiParameter : σ

/-- Whether the streams of a request find their buffers misaligned. -/
structure Alignment where
  input : Bool
  output : StreamName → Bool

/-- The loop for a number of requests.  A connection that is kept comes before
those not accepted yet; what its input stream had buffered is gone. -/
def worker (callBack : Option (FastCgiCallback σ)) (misaligned : Alignment) :
    Nat → Request → List Ipc → Members → σ → Except Fault (WorkerState σ)
  | 0, _, connections, m, cgiParameter => .ok ⟨[], connections, m, cgiParameter⟩
  | n + 1, request, connections, m, cgiParameter => do
      let accepted ← acceptR misaligned.input request connections
      match accepted.accepted with
      | none => return ⟨accepted.closed, [], m, cgiParameter⟩
      | some (params, r) =>
          let served ← serve callBack misaligned.output params r m cgiParameter
          let (closed, later) :=
            if served.close then ([served.ipc], accepted.later)
            else ([], served.ipc :: accepted.later)
          let rest ← worker callBack misaligned n served.request later served.members
            served.cgiParameter
          return { rest with closed := accepted.closed ++ (closed ++ rest.closed) }

end CFastCgiServer

end FastCgi
