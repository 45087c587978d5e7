/-
Module: FastCgi.Spec.Exchanges
Layer: Spec
Purpose: The requests of a connection and the responses to them, from what its
  reads bring: those that a connection of mucgi owes, and for one of cocgi the
  exchanges with a socket whose writes may fail, and what it means for the reads
  and the writes that nothing follows a response that was abandoned.
Trusted boundary: human-reviewed spec
Main exports: Mucgi.requestsFrom, Mucgi.responses, Cocgi.Exchange,
  Cocgi.exchanges, Cocgi.converse, Cocgi.outlay, Cocgi.silentFor,
  Cocgi.silentOnceAbandoned
-/
import FastCgi.Spec.Handling
import FastCgi.Spec.KeepAlive

namespace FastCgi

/-! ### mucgi -/

namespace Mucgi

/-- The requests of these reads up to the first one that ends the connection. -/
def requestsFrom (v : View) (reads : List Bytes) : List Invocation :=
  invocations (v.run (reads.take ((v.endings reads).findIdx id + 1))).2

/-- The responses to these requests, behind these calls of the backend. -/
def responses (backend : Backend) : List BackendCall → List Invocation → Bytes
  | _, [] => []
  | earlier, request :: requests =>
      match requestCgi request.params request.stdin with
      | .error _ => []
      | .ok cgi =>
          responseBytes (backend earlier (callOf request.params cgi)) ++
            responses backend (earlier ++ [callOf request.params cgi]) requests

end Mucgi

/-! ### cocgi -/

namespace Cocgi

/-- A request and the response to it. -/
structure Exchange where
  call : BackendCall
  response : Bytes
  /-- The connection is to be kept behind it. -/
  keepConn : Bool
deriving DecidableEq

/-- The exchange that a complete request leads to, behind these calls of the
backend; there is none if its body does not parse. -/
def exchangeOf (backend : Backend) (earlier : List BackendCall) (request : RequestState) :
    Option Exchange :=
  match requestCgi request.params request.stdin with
  | .error _ => none
  | .ok cgi => some {
      call := callOf request.params cgi
      response := responseBytes (backend earlier (callOf request.params cgi))
      keepConn := request.keepConn }

/-- What `errno` is after a read without data. -/
def errnoAfter (errno : Errno) : ReadResult → Errno
  | .failed code => code
  | _ => errno

/-- The exchanges that the reads ask for, up to a read that ends the connection or a
request whose body does not parse.  `recycle` counts the reads without data in a row,
and `earlier` are the calls of the backend so far. -/
def exchanges (backend : Backend) (recycle : Nat) (v : View) (earlier : List BackendCall) :
    List (Errno × ReadResult) → List Exchange
  | [] => []
  | (_, .received data) :: reads =>
      if (v.receive data).request.gotRequest then
        match exchangeOf backend earlier (v.receive data).request with
        | none => []
        | some exchange =>
            exchange :: exchanges backend 0 (v.step data) (earlier ++ [exchange.call]) reads
      else exchanges backend 0 (v.step data) earlier reads
  | (errno, result) :: reads =>
      if errnoAfter errno result = eagain ∧ recycle < maxRecycleCount then
        exchanges backend (recycle + 1) v earlier reads
      else []

/-- What happens in an exchange on a socket with these results: the response is
offered until all of it is taken or a write fails. -/
def Exchange.events (exchange : Exchange) (script : List WriteResult) : List Event :=
  .called exchange.call :: .responded exchange.response ::
    (transmit script exchange.response).2.2

/-- Whether another exchange may follow: not while the response is being written, and
not behind one that was written to the end of a connection that is not kept. -/
def Exchange.goesOn (exchange : Exchange) : Option ErrorCode → Bool
  | none => false
  | some .errOk => exchange.keepConn
  | some _ => true

/-- What happens in these exchanges, one after the other. -/
def converse : List WriteResult → List Exchange → List Event
  | _, [] => []
  | script, exchange :: later =>
      exchange.events script ++
        if exchange.goesOn (transmit script exchange.response).1 then
          converse (transmit script exchange.response).2.1 later
        else []

/-! ### Abandoned responses -/

/-- What the results of `write` are to a response of some size: enough for it, or one
of them fails before that, with those that are left; or there are too few. -/
inductive Outlay where
  | covered (left : List WriteResult)
  | failed (left : List WriteResult)
  | short
deriving DecidableEq

def outlay : List WriteResult → Nat → Outlay
  | script, 0 => .covered script
  | [], _ + 1 => .short
  | .failed _ :: script, _ + 1 => .failed script
  | .accepted count :: script, size + 1 => outlay script (size + 1 - count)

/-- This many responses can be offered, one after the other, and not one byte is
taken. -/
def silentFor : List WriteResult → Nat → Bool
  | _, 0 => true
  | [], _ + 1 => true
  | .failed _ :: script, responses + 1 => silentFor script responses
  | .accepted count :: script, responses + 1 =>
      decide (count = 0) && silentFor script (responses + 1)

/-- If a write fails before a response is covered, the results that are left take
nothing of the responses that are asked for after it. -/
def silentOnceAbandoned : List WriteResult → List Exchange → Bool
  | _, [] => true
  | script, exchange :: later =>
      match outlay script exchange.response.length with
      | .covered left => !exchange.keepConn || silentOnceAbandoned left later
      | .failed left => silentFor left later.length
      | .short => true

end Cocgi

end FastCgi
