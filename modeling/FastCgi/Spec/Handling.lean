/-
Module: FastCgi.Spec.Handling
Layer: Spec
Purpose: What the request handlers are for, on byte strings: which variables a
  request has, which form it sends and which call of the backend it leads to,
  how a response goes out through a socket that takes it in pieces, when it
  delivers one, and when the output of a connection is framed.
Trusted boundary: human-reviewed spec
Main exports: variableOf, requestCgi, requestCookies, Mucgi.callOf, Cocgi.callOf,
  SendsForm, transmit, Suffices, written, built, Framed, TakesFirst, Delivered
-/
import FastCgi.Model.Handlers
import FastCgi.Spec.Forms
import FastCgi.Spec.Responses

namespace FastCgi

open Library (assignAll)

/-! ### The variables of a request -/

/-- A variable of a request; a missing one is empty. -/
def variableOf (params : ParamMap) (key : Bytes) : Bytes := params[key]?.getD []

/-- The `Cgicc` object of a request: the arguments that both handlers give its
constructor. -/
def requestCgi (params : ParamMap) (body : Bytes) : Except Fault Cgicc :=
  Cgicc.construct (variableOf params (ascii "QUERY_STRING"))
    (variableOf params (ascii "HTTP_COOKIE")) body (variableOf params (ascii "CONTENT_TYPE"))

/-- The names and values of the cookies a client sent, in order. -/
def requestCookies (params : ParamMap) : List (Bytes × Bytes) :=
  (cookieList (variableOf params (ascii "HTTP_COOKIE"))).map fun cookie =>
    (cookie.name, cookie.value)

/-- A map in which a missing key has been inserted with the empty string. -/
def withDefault (map : ParamMap) (key : Bytes) : ParamMap := (subscript map key).2

/-- The map after the three look-ups of a handler. -/
def lookedUp (params : ParamMap) : ParamMap :=
  withDefault (withDefault (withDefault params (ascii "QUERY_STRING")) (ascii "CONTENT_TYPE"))
    (ascii "HTTP_COOKIE")

/-- The call that `onRequest` makes. -/
def Mucgi.callOf (params : ParamMap) (cgi : Cgicc) : BackendCall where
  qmap := insertAll (insertAll ∅ (elementPairs cgi)) cgi.filePairs
  header := assignAll (lookedUp params) cgi.cookiePairs

/-- The call that `doRequest` makes. -/
def Cocgi.callOf (params : ParamMap) (cgi : Cgicc) : BackendCall where
  qmap := assignAll (assignAll ∅ (elementPairs cgi)) cgi.filePairs
  header := assignAll (lookedUp params) cgi.cookiePairs

/-! ### The form of a request -/

/-- The names of the elements have no upper-case letters. -/
def LowerCaseNames (cgi : Cgicc) : Prop :=
  ∀ element ∈ cgi.formData, element.name.map lowerCase = element.name
deriving Decidable

/-- No name has two values. -/
def SingleValued (pairs : List (Bytes × Bytes)) : Prop :=
  ∀ pair ∈ pairs, ∀ other ∈ pairs, pair.1 = other.1 → pair.2 = other.2
deriving Decidable

/-- The pairs of a form are sent as the query string, without a body, or as
the body, without a query string and with the content type of a plain form. -/
def SendsForm (params : ParamMap) (body : Bytes) (pairs : List (Bytes × Bytes)) : Prop :=
  (variableOf params (ascii "QUERY_STRING") = encodeForm pairs ∧ body = []) ∨
    (variableOf params (ascii "QUERY_STRING") = [] ∧ body = encodeForm pairs ∧
      IsPlain (variableOf params (ascii "CONTENT_TYPE")))

/-! ### Sending a response -/

open Cocgi (ErrorCode WriteResult)

/-- Bytes are offered to the socket until it has taken them all or fails. -/
def transmit : List WriteResult → Bytes → Option ErrorCode × List WriteResult × List Event
  | [], bytes => (if bytes = [] then some .errOk else none, [], [])
  | result :: script, bytes =>
      if bytes = [] then
        (some .errOk, result :: script, [])
      else
        match result with
        | .failed errno => (some .errSocketWrite, script, [.writeFailed errno])
        | .accepted count =>
            let (ret, rest, writes) := transmit script (bytes.drop count)
            (ret, rest, .wrote (bytes.take count) :: writes)

/-- The bytes a write takes at most. -/
def Cocgi.WriteResult.count : WriteResult → Nat
  | .accepted count => count
  | .failed _ => 0

/-- The results are enough to send this many bytes or to give up. -/
def Suffices (script : List WriteResult) (size : Nat) : Prop :=
  (∃ errno, .failed errno ∈ script) ∨ size ≤ (script.map WriteResult.count).sum

/-! ### The output of a connection -/

/-- The bytes an event puts on the wire. -/
def Event.written : Event → Bytes
  | .wrote data => data
  | _ => []

/-- The bytes of the response an event has built. -/
def Event.built : Event → Bytes
  | .responded response => response
  | _ => []

/-- Everything written to the socket. -/
def written (trace : List Event) : Bytes := trace.flatMap Event.written

/-- The responses, one after the other. -/
def built (trace : List Event) : Bytes := trace.flatMap Event.built

/-- The event is a failed write. -/
def Event.isFailure : Event → Bool
  | .writeFailed _ => true
  | _ => false

/-- The output of a connection is framed: at every moment the bytes written
are a beginning of the responses built so far, and after a failed write
nothing more is written. -/
def Framed (trace : List Event) : Prop :=
  (∀ moment, moment <+: trace → written moment <+: built moment) ∧
    trace.Pairwise fun earlier later => earlier.isFailure = true → later.written = []

/-! ### Delivery on a non-blocking socket -/

/-- What a non-blocking socket makes of a write: it takes at least one byte, or
the write would block. -/
def Cocgi.WriteResult.NonBlocking : WriteResult → Prop
  | .accepted count => 0 < count
  | .failed errno => errno = Cocgi.eagain

/-- No write would block before the socket has taken this many bytes. -/
def TakesFirst (size : Nat) (script : List WriteResult) : Prop :=
  ∀ front back, script = front ++ .failed Cocgi.eagain :: back →
    size ≤ (front.map WriteResult.count).sum

/-- How `doRequest` is to send a response: it stops only when exactly the
response has been written, and gives up only after an error that is not
EAGAIN. -/
def Delivered (ret : Option ErrorCode) (response : Bytes) (writes : List Event) : Prop :=
  (ret ≠ none → written writes = response) ∧
    (ret = some .errSocketWrite → ∃ errno, errno ≠ Cocgi.eagain ∧ .writeFailed errno ∈ writes)

end FastCgi
